import Zygo.Function
import Zygo.Package
import Zygo.Record
import Zygo.Scope
import Zygo.Value.Equality

/-!
# The store

Frames, functions, records and packages are shared: values hold their numbers, and the store holds the objects. The
store also counts the list cells and host objects that have been made, so that each gets a number of its own, and keeps
the types that arrays remember.
-/

namespace Zygo

/-- All objects that values refer to. -/
structure Store where
  frames : Frames := .empty
  functions : Array Function := #[]
  records : Array Record := #[]
  packages : Array Package := #[]
  /-- How many list cells have been made. -/
  cells : Nat := 0
  /-- How many host objects have been made. -/
  hosts : Nat := 0
  /-- The types of arrays, as far as they have been asked for. -/
  arrayTypes : List (Value × TypeHandle) := []

namespace Store

/-- The function of a number; an unused number stands for one that does nothing. -/
def function (s : Store) (id : FunctionId) : Function :=
  s.functions[id.index]?.getD (Function.ofHost "" 0 true .nothing)

/-- The record of a number; an unused number stands for one without entries. -/
def record (s : Store) (id : RecordId) : Record :=
  s.records[id.index]?.getD { typeName := "" }

/-- The package of a number; an unused number stands for one without exports. -/
def package (s : Store) (id : PackageId) : Package :=
  s.packages[id.index]?.getD { name := "" }

/-- Adds a function. -/
def addFunction (s : Store) (f : Function) : FunctionId × Store :=
  (⟨s.functions.size⟩, { s with functions := s.functions.push f })

/-- Adds a record. -/
def addRecord (s : Store) (r : Record) : RecordId × Store :=
  (⟨s.records.size⟩, { s with records := s.records.push r })

/-- Adds a package. -/
def addPackage (s : Store) (p : Package) : PackageId × Store :=
  (⟨s.packages.size⟩, { s with packages := s.packages.push p })

/-- Adds a frame. -/
def addFrame (s : Store) (f : Frame) : FrameId × Store :=
  ((s.frames.push f).1, { s with frames := (s.frames.push f).2 })

/-- Adds a frame with the bindings that a frame has now, and with the same parent. -/
def cloneFrame (s : Store) (id : FrameId) : FrameId × Store :=
  s.addFrame ((s.frames.get? id).getD {})

/-- Changes a record. -/
def setRecord (s : Store) (id : RecordId) (r : Record) : Store :=
  { s with records := s.records.setIfInBounds id.index r }

/-- Changes a package. -/
def setPackage (s : Store) (id : PackageId) (p : Package) : Store :=
  { s with packages := s.packages.setIfInBounds id.index p }

/-- Lets a function capture another frame. -/
def setClosing (s : Store) (id : FunctionId) (closing : FrameId) : Store :=
  { s with functions := s.functions.modify id.index fun f => { f with closing? := some closing } }

/-- Adds a function that does the same and captures the same frame, for now. -/
def copyFunction (s : Store) (id : FunctionId) : FunctionId × Store :=
  s.addFunction (s.function id)

/-- Binds a symbol in a frame. -/
def define (s : Store) (id : FrameId) (symbol : Symbol) (v : Value) : Store :=
  { s with frames := s.frames.define id symbol v }

/-- Gives a symbol another value in its nearest binding. -/
def assign (s : Store) (id : FrameId) (symbol : Symbol) (v : Value) : Except RuntimeError Store :=
  (s.frames.assign id symbol v).map fun frames => { s with frames }

/-- Exports a function from a package under the function's own name. -/
def exportFrom (s : Store) (id : PackageId) (f : FunctionId) : Store :=
  s.setPackage id ((s.package id).add (s.function f).name f)

/-- Looks a symbol up in the scope that a function has captured. -/
def closingLookup (s : Store) (id : FunctionId) (symbol : Symbol) : Except RuntimeError Value :=
  match (s.function id).closing? with
  | some frame => s.frames.lookup frame symbol
  | none => .error (.symbolNotFound symbol.name)

/-- Looks a symbol up in the scope that a function has captured, up to the nearest function frame. -/
def closingLookupUntilFunction (s : Store) (id : FunctionId) (symbol : Symbol) : Except RuntimeError Value :=
  match (s.function id).closing? with
  | some frame => s.frames.lookupUntilFunction frame symbol
  | none => .error (.symbolNotFound symbol.name)

/-- Links values to a tail by new list cells. -/
def linkTo (s : Store) (items : List Value) (tail : Value) : Value × Store :=
  (Value.link s.cells items tail, { s with cells := s.cells + items.length })

/-- A proper list of values, in new list cells. -/
def list (s : Store) (items : List Value) : Value × Store :=
  s.linkTo items .null

/-- A new object of the host. -/
def hostObject (s : Store) (typeName rendering : String) : Value × Store :=
  (.host ⟨s.hosts, typeName, rendering⟩, { s with hosts := s.hosts + 1 })

end Store

end Zygo
