/-!
# Texts in pieces

* `splitOn`, `join`: the pieces of a list between the occurrences of a separator, and the way back;
* `lines`: the lines of a text. A line ends at a line feed, and a carriage return before it goes
  too; nothing follows the last line feed.
-/

namespace SdkConformance.Pieces

variable {α : Type} [DecidableEq α]

/-! ## 1. Pieces between separators -/

/-- Splits on, with the finished pieces and the piece under way both in reverse. -/
def splitFrom (sep : α) (done : List (List α)) (piece : List α) : List α → List (List α)
  | [] => (piece.reverse :: done).reverse
  | a :: as =>
    if a = sep then splitFrom sep (piece.reverse :: done) [] as
    else splitFrom sep done (a :: piece) as

/-- The pieces between the separators; one more than there are separators. -/
def splitOn (sep : α) (as : List α) : List (List α) := splitFrom sep [] [] as

/-- The pieces with a separator between each two. -/
def join (sep : α) : List (List α) → List α
  | [] => []
  | [p] => p
  | p :: ps => p ++ sep :: join sep ps

/-! ## 2. Lines -/

/-- The line without the carriage return it may end in. -/
def dropReturn (line : List Char) : List Char :=
  match line.reverse with
  | '\r' :: r => r.reverse
  | _ => line

/-- Every line that a line feed ends, and what follows the last line feed unless it is empty. -/
def lines (cs : List Char) : List (List Char) :=
  let pieces := splitOn '\n' cs
  let ended := pieces.dropLast.map dropReturn
  match pieces.getLast? with
  | some (c :: r) => ended ++ [c :: r]
  | _ => ended

/-! ## 3. Pieces that are finished and the one under way -/

theorem splitFrom_eq (sep : α) (done : List (List α)) (piece as : List α) :
    splitFrom sep done piece as =
      done.reverse ++ splitFrom sep [] piece as := by
  induction as generalizing done piece with
  | nil => simp [splitFrom]
  | cons a as ih =>
    unfold splitFrom
    split
    · rw [ih (piece.reverse :: done), ih [piece.reverse]]; simp
    · exact ih done (a :: piece)

theorem splitFrom_ne_nil (sep : α) (piece as : List α) : splitFrom sep [] piece as ≠ [] := by
  induction as generalizing piece with
  | nil => simp [splitFrom]
  | cons a as ih =>
    unfold splitFrom
    split
    · rw [splitFrom_eq]; simp
    · exact ih _

end SdkConformance.Pieces
