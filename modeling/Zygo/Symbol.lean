import Zygo.Atom

/-!
# Symbols

A symbol table gives every text one number for good. The first four numbers belong to reserved texts, which records use
as keys of their links; further texts are numbered in the order of their first appearance. A symbol carries its number
and its text, and two symbols are the same when their numbers are.

Numbers have 32 bits. `SymbolTable.tryIntern` refuses a new text when all numbers are in use; elsewhere the numbers go on,
since no program comes so far.
-/

namespace Zygo

/-- An interned symbol. A dotted symbol is a path such as `.a.b`. -/
structure Symbol where
  id : Nat
  name : String
  dotted : Bool
  deriving DecidableEq, Repr

/-- The texts with fixed numbers, in the order of their numbers. -/
def reservedNames : List String :=
  ["", ".parent", ".main", ".super"]

namespace Symbol

/-- Two symbols are the same when their numbers are. -/
def same (s t : Symbol) : Bool :=
  s.id == t.id

/-- Whether a symbol is one of the reserved ones. -/
def isReserved (s : Symbol) : Bool :=
  s.id < reservedNames.length

/-- The reserved symbol of a number. -/
def reserved (id : Fin 4) : Symbol :=
  ⟨id, reservedNames[id], true⟩

/-- The key of a record's defining environment. -/
def parentKey : Symbol := reserved 1

/-- The key of a record's main function. -/
def mainKey : Symbol := reserved 2

/-- The key of the record that a record delegates to. -/
def superKey : Symbol := reserved 3

/-- The names along a dotted path; a plain symbol is a path of one name, its text. -/
def path (s : Symbol) : List String :=
  if s.dotted then ((Atom.splitAt '.' s.name.toList).filter fun part => !part.isEmpty).map String.ofList else [s.name]

/-- The diagnostic form of a symbol: its text and its number. -/
def describe (s : Symbol) : String :=
  "Symbol(" ++ s.name ++ "#" ++ toString s.id ++ ")"

end Symbol

/-- Texts and their numbers: a map from text to number beside the list of the texts, each at the place of its number.
The two are inverse to each other. -/
structure SymbolTable where
  ids : List (String × Nat)
  names : Array String
  inverse : ∀ text id, ids.lookup text = some id ↔ names[id]? = some text
  deriving DecidableEq, Repr

/-- Why a text gets no number. -/
inductive InternError where
  /-- All numbers are in use. -/
  | overflow (count : Nat)
  deriving DecidableEq, Repr

/-- The greatest number that a text can have: numbers have 32 bits. -/
def greatestId : Nat :=
  Nat.pow 2 32 - 1

/-- The wording of a failure. -/
def InternError.message : InternError → String
  | overflow count =>
    "symbol table exceeded capacity: " ++ toString count ++ " symbols, max is " ++ toString greatestId

namespace SymbolTable

/-- The table in which only the reserved texts have numbers. -/
def initial : SymbolTable where
  ids := reservedNames.zipIdx
  names := reservedNames.toArray
  inverse := by
    intro text id
    simp only [reservedNames, List.zipIdx, List.lookup_cons, List.lookup_nil, List.getElem?_toArray]
    rcases id with _ | _ | _ | _ | id <;> grind

/-- A new text and the next number go together in the map as in the list. -/
theorem inverse_push {ids : List (String × Nat)} {names : Array String} {text : String}
    (inverse : ∀ other id, ids.lookup other = some id ↔ names[id]? = some other) (h : ids.lookup text = none)
    (other : String) (id : Nat) :
    ((text, names.size) :: ids).lookup other = some id ↔ (names.push text)[id]? = some other := by
  rw [Array.getElem?_push, List.lookup_cons]
  by_cases he : other = text
  · subst he
    have hnew : names[id]? ≠ some other := fun hn => by simp [(inverse other id).2 hn] at h
    by_cases hid : id = names.size
    · simp [hid]
    · simpa [hid, hnew] using Ne.symm hid
  · rw [beq_eq_false_iff_ne.2 he]
    by_cases hid : id = names.size
    · have hunused : ids.lookup other ≠ some id := by simp [hid, inverse]
      simpa [hid, Ne.symm he] using hid ▸ hunused
    · rw [if_neg hid]
      exact inverse other id

/-- The table with one more text, which gets the next number. -/
def push (t : SymbolTable) (text : String) (h : t.ids.lookup text = none) : SymbolTable where
  ids := (text, t.names.size) :: t.ids
  names := t.names.push text
  inverse := inverse_push t.inverse h

/-- The number of a text, which gets the next one if it has none. -/
def intern (t : SymbolTable) (text : String) : Nat × SymbolTable :=
  match h : t.ids.lookup text with
  | some id => (id, t)
  | none => (t.names.size, t.push text h)

/-- The number of a text, unless it has none and all are in use. -/
def tryIntern (t : SymbolTable) (text : String) : Except InternError (Nat × SymbolTable) :=
  if (t.ids.lookup text).isSome ∨ t.names.size ≤ greatestId then .ok (t.intern text)
  else .error (.overflow t.names.size)

/-- The text of a number, empty if the number is not in use. -/
def lookup (t : SymbolTable) (id : Nat) : String :=
  t.names[id]?.getD ""

/-- How many texts have numbers. -/
def size (t : SymbolTable) : Nat :=
  t.names.size

/-- Whether only the reserved texts have numbers. -/
def isEmpty (t : SymbolTable) : Bool :=
  t.size ≤ reservedNames.length

/-- The symbol of a text, with the number that `intern` gives it. -/
def makeSymbol (t : SymbolTable) (dotted : Bool) (text : String) : Symbol × SymbolTable :=
  (⟨(t.intern text).1, (t.intern text).2.lookup (t.intern text).1, dotted⟩, (t.intern text).2)

/-- The plain symbol of a text. -/
def symbol (t : SymbolTable) (text : String) : Symbol × SymbolTable :=
  t.makeSymbol false text

/-- The dotted symbol of a text. -/
def dottedSymbol (t : SymbolTable) (text : String) : Symbol × SymbolTable :=
  t.makeSymbol true text

end SymbolTable

end Zygo
