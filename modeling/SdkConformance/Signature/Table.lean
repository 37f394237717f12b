import Std.Data.HashMap
import SdkConformance.Signature.MethodKey

/-!
# The signature table of a class

Every method is entered under its key and, after that, under its erased key, so that a look-up
with other spellings of the parameter types still finds a method of the same name and arity. Both
kinds of key share one table: what is entered last under a key is what is found.

* `SignatureTable.find`: an exact match, else an erased one, else none;
* `getElem?_insert`: what an entry changes.
-/

namespace SdkConformance

/-- The facts that a declaration is compared with. -/
structure MethodFacts where
  isStatic : Bool
  /-- The canonical name of the return type. -/
  returnType : String
  deriving DecidableEq, Repr

/-- The facts of a method of a class file. -/
def MethodFacts.ofEntry (m : MethodEntry) : MethodFacts := ⟨m.isStatic, m.returnName⟩

/-- How a look-up ends. -/
inductive MethodMatch where
  /-- The key itself is in the table. -/
  | exact (facts : MethodFacts)
  /-- Only the erased key is in the table. -/
  | erased (facts : MethodFacts)
  /-- No method has this name and arity. -/
  | absent
  deriving DecidableEq, Repr

/-- The facts that were found. -/
def MethodMatch.facts? : MethodMatch → Option MethodFacts
  | .exact facts => some facts
  | .erased facts => some facts
  | .absent => none

/-- The methods of one class. -/
structure SignatureTable where
  className : String
  methods : Std.HashMap MethodKey MethodFacts

namespace SignatureTable

/-! ## 1. Building and looking up -/

/-- A table without methods. -/
def empty (className : String) : SignatureTable := ⟨className, ∅⟩

/-- Enters a method under its key, then under its erased key. -/
def insert (t : SignatureTable) (key : MethodKey) (facts : MethodFacts) : SignatureTable :=
  { t with methods := (t.methods.insert key facts).insert key.erase facts }

/-- Looks for the key, then for its erased form. -/
def find (t : SignatureTable) (key : MethodKey) : MethodMatch :=
  match t.methods[key]? with
  | some facts => .exact facts
  | none =>
    match t.methods[key.erase]? with
    | some facts => .erased facts
    | none => .absent

/-- The table of a class: its methods, entered in the order of the file. -/
def ofClass (c : ClassFile) : SignatureTable :=
  c.methods.foldl (fun t m => t.insert (.ofEntry m) (.ofEntry m)) (empty c.name)

/-- The number of keys, erased ones included. -/
def size (t : SignatureTable) : Nat := t.methods.size

/-- Whether there is no key. -/
def isEmpty (t : SignatureTable) : Bool := t.methods.isEmpty

/-- The keys and what is entered under them, in the order of the keys. -/
def entries (t : SignatureTable) : List (MethodKey × MethodFacts) :=
  t.methods.toList.mergeSort fun a b => (a.1.order b.1).isLE

/-! ## 2. What an entry changes -/

@[simp] theorem className_insert (t : SignatureTable) (k : MethodKey) (facts : MethodFacts) :
    (t.insert k facts).className = t.className := rfl

@[simp] theorem getElem?_empty (className : String) (l : MethodKey) :
    (empty className).methods[l]? = none := by
  simp [empty]

/-- After an entry its key and its erased key hold its facts, and all others what they held. -/
theorem getElem?_insert (t : SignatureTable) (k l : MethodKey) (facts : MethodFacts) :
    (t.insert k facts).methods[l]? =
      if k.erase = l ∨ k = l then some facts else t.methods[l]? := by
  simp only [insert, Std.HashMap.getElem?_insert, beq_iff_eq]
  by_cases h₁ : k.erase = l <;> by_cases h₂ : k = l <;> simp [h₁, h₂]

end SignatureTable

end SdkConformance
