/-!
# Registered types

A registry gives a name at most one type, and a name keeps its type. Types of host objects may come from a bridge, which
is asked for names that the registry does not hold; what it answers is kept. A type is known by its registration: a handle
carries the number that it was registered under, so that two types of one name and kind are still two types. The types of
a bridge have the numbers that the host gives them.
-/

namespace Zygo

/-- A registered type: its name, what it describes and the number of its registration. -/
inductive TypeHandle where
  /-- A scalar type that every registry holds. -/
  | builtin (name : String) (number : Nat := 0)
  /-- The type of arrays whose elements have the type `elem`. -/
  | slice (name : String) (elem : TypeHandle) (number : Nat := 0)
  /-- A type of records. -/
  | record (name : String) (number : Nat := 0)
  /-- A type of host objects. -/
  | native (name : String) (number : Nat := 0)
  deriving DecidableEq, Repr

namespace TypeHandle

def name : TypeHandle → String
  | builtin n _ | slice n _ _ | record n _ | native n _ => n

/-- A type as it is registered under a number. -/
def numbered (number : Nat) : TypeHandle → TypeHandle
  | builtin n _ => builtin n number
  | slice n elem _ => slice n elem number
  | record n _ => record n number
  | native n _ => native n number

/-- The diagnostic form of a handle. -/
def describe (t : TypeHandle) : String :=
  "TypeHandle(" ++ t.name ++ ")"

/-- The kind of a type in diagnostics. -/
def kindName : TypeHandle → String
  | builtin .. => "Builtin"
  | slice _ elem _ => "Slice(" ++ elem.describe ++ ")"
  | record .. => "Record"
  | native .. => "Native"

end TypeHandle

/-- Types of host objects by name, as the host knows them. -/
abbrev Bridge := String → Option TypeHandle

/-- Types by name, the bridge if there is one, and the names that a bridge has been asked for. -/
structure TypeRegistry where
  entries : List (String × TypeHandle)
  bridge? : Option Bridge := none
  asked : List String := []

namespace TypeRegistry

/-- The names of the scalar types. -/
def builtinNames : List String :=
  ["int64", "float64", "bool", "int32", "string"]

/-- The registry of the scalar types. -/
def initial : TypeRegistry :=
  { entries := builtinNames.zipIdx.map fun (name, number) => (name, .builtin name number) }

/-- The type of a name. -/
def get? (r : TypeRegistry) (name : String) : Option TypeHandle :=
  r.entries.lookup name

/-- How many names have types. -/
def size (r : TypeRegistry) : Nat :=
  r.entries.length

/-- Adds a type under its name and the next number, unless the name has a type. Gives the type that the name has then. -/
def register (r : TypeRegistry) (name : String) (type : TypeHandle) : TypeHandle × TypeRegistry :=
  match r.get? name with
  | some found => (found, r)
  | none => (type.numbered r.size, { r with entries := r.entries ++ [(name, type.numbered r.size)] })

/-- Declares a record type. -/
def registerRecord (r : TypeRegistry) (name : String) : TypeHandle × TypeRegistry :=
  r.register name (.record name)

/-- The name of the type of arrays of `elem`. -/
def sliceName (elem : TypeHandle) : String :=
  "[]" ++ elem.name

/-- The type of arrays of `elem`. -/
def sliceOf (r : TypeRegistry) (elem : TypeHandle) : TypeHandle × TypeRegistry :=
  r.register (sliceName elem) (.slice (sliceName elem) elem)

/-- Installs a bridge in place of any other. -/
def setBridge (r : TypeRegistry) (bridge : Bridge) : TypeRegistry :=
  { r with bridge? := some bridge }

/-- The type of host objects of a name: the registered one, else what the bridge answers. -/
def resolveNative (r : TypeRegistry) (name : String) : Option TypeHandle × TypeRegistry :=
  match r.get? name, r.bridge? with
  | some found, _ => (some found, r)
  | none, none => (none, r)
  | none, some bridge =>
    let r := { r with asked := r.asked ++ [name] }
    match bridge name with
    | none => (none, r)
    | some type => (some type, { r with entries := r.entries ++ [(name, type)] })

/-- The diagnostic form of a registry. -/
def describe (r : TypeRegistry) : String :=
  "TypeRegistry \x7b types: " ++ toString r.size ++ ", has_bridge: " ++ toString r.bridge?.isSome ++ " \x7d"

end TypeRegistry

end Zygo
