import SdkConformance.Text.Joining
import SdkConformance.Text.Pieces
import SdkConformance.Text.WhiteSpace

/-!
# Tables of text

A table is printed line by line. Every column is as wide as its widest cell, two spaces lie
between columns, and no line ends in white space. A cell of several lines makes its row as many
lines high.

* `Columns.lines`: the lines of a table, titles first.
-/

namespace SdkConformance

/-- The side of its column that a cell is on. -/
inductive Alignment where
  | left
  | right
  deriving DecidableEq, Repr

/-- A column of a table. -/
structure Column where
  title : String
  alignment : Alignment
  deriving DecidableEq, Repr

namespace Columns

/-- The lines of a cell. -/
def cellLines (cell : String) : List (List Char) := Pieces.splitOn '\n' cell.toList

/-- The widest line of a cell. -/
def cellsOf (cell : String) : Nat := ((cellLines cell).map cellWidth).foldl max 0

/-- The widths of the columns: each is the widest cell of any row there. -/
def widths (count : Nat) (rows : List (List String)) : List Nat :=
  rows.foldl (fun ws row => List.zipWith max ws (row.map cellsOf)) (List.replicate count 0)

/-- A line of a cell with spaces up to a width. -/
def padded (alignment : Alignment) (width : Nat) (line : List Char) : List Char :=
  let spaces := List.replicate (width - cellWidth line) ' '
  match alignment with
  | .left => line ++ spaces
  | .right => spaces ++ line

/-- The columns of one line beside each other. -/
def joined : List (List Char) → List Char
  | [] => []
  | [c] => c
  | c :: cs => c ++ ' ' :: ' ' :: joined cs

/-- The lines of a row. -/
def rowLines (columns : List Column) (widths : List Nat) (row : List String) : List String :=
  let cells := row.map cellLines
  let height := (cells.map List.length).foldl max 0
  let layout := columns.zip widths
  (List.range height).map fun i =>
    let line := List.zipWith (fun (column, width) (cell : List (List Char)) =>
      padded column.alignment width (cell.getD i [])) layout cells
    String.ofList (trimEndChars (joined line))

/-- The lines of a table: the titles, then the rows. -/
def lines (columns : List Column) (rows : List (List String)) : List String :=
  let all := columns.map (·.title) :: rows
  all.flatMap (rowLines columns (widths columns.length all))

end Columns

end SdkConformance
