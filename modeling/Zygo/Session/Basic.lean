import Zygo.Store.Render

/-!
# Sessions

A session holds everything that a program can change: the symbol table, the store with the global frame in it, the
packages by name and the types. Operations that cannot fail map a session to a session. `Action` is for those that can:
it keeps the session as the failure leaves it.
-/

namespace Zygo

/-- Everything that a running program can change. -/
structure Session where
  symbols : SymbolTable := .initial
  store : Store := {}
  /-- The global frame. -/
  globals : FrameId := ⟨0⟩
  packages : List (String × PackageId) := []
  types : TypeRegistry := .initial
  /-- Whether user functions can be called. -/
  hasEvaluator : Bool := false

/-- An operation that may change the session and may fail. -/
abbrev Action (α : Type) := ExceptT RuntimeError (StateM Session) α

namespace Store

/-- The type that an array remembers. -/
def remembered? (s : Store) (array : Value) : Option TypeHandle :=
  s.arrayTypes.lookup array

/-- Lets an array remember its type. -/
def remember (s : Store) (array : Value) (type : TypeHandle) : Store :=
  { s with arrayTypes := (array, type) :: s.arrayTypes }

/-- The type of a value, if it has one. An array has the type of slices of its first element's type, which is registered
if need be, and remembers it from then on; a record has the registered type of its name. -/
def typeOf (s : Store) (types : TypeRegistry) : Value → Option TypeHandle × Store × TypeRegistry
  | .int _ => (types.get? "int64", s, types)
  | .float _ => (types.get? "float64", s, types)
  | .bool _ => (types.get? "bool", s, types)
  | .char _ => (types.get? "int32", s, types)
  | .text .. => (types.get? "string", s, types)
  | .bytes _ type? => (type?, s, types)
  | .array (first :: rest) =>
    match s.remembered? (.array (first :: rest)) with
    | some type => (some type, s, types)
    | none =>
      match s.typeOf types first with
      | (some elem, s, types) =>
        let (type, types) := types.sliceOf elem
        (some type, s.remember (.array (first :: rest)) type, types)
      | (none, s, types) => (none, s, types)
  | .record id => (types.get? (s.record id).typeName, s, types)
  | .host object =>
    let (type?, types) := types.resolveNative object.typeName
    (type?, s, types)
  | .type t => (some t, s, types)
  | _ => (none, s, types)

/-- A package with further exports: functions of the host, each of which takes any arguments. -/
def hostPackage (s : Store) (p : Package) : List (String × HostAction) → Package × Store
  | [] => (p, s)
  | (name, action) :: functions =>
    let (id, s) := s.addFunction (.ofHost name 0 true action)
    s.hostPackage (p.add name id) functions

end Store

namespace Session

/-- A session with an empty global frame. -/
def initial : Session :=
  { store := (Store.addFrame {} {}).2 }

/-! ## Symbols and globals -/

/-- The symbol of a text, plain or dotted. -/
def intern (s : Session) (text : String) (dotted : Bool := false) : Symbol × Session :=
  ((s.symbols.makeSymbol dotted text).1, { s with symbols := (s.symbols.makeSymbol dotted text).2 })

/-- Binds a name in the global frame. -/
def addGlobal (s : Session) (name : String) (v : Value) : Session :=
  let (symbol, s) := s.intern name
  { s with store := s.store.define s.globals symbol v }

/-- Looks a name up in the global scope. -/
def lookupGlobal (s : Session) (name : String) : Except RuntimeError Value × Session :=
  let (symbol, s) := s.intern name
  (s.store.frames.lookup s.globals symbol, s)

/-- Adds a function and binds it globally under its own name. -/
def addFunction (s : Session) (f : Function) : Session :=
  let (id, store) := s.store.addFunction f
  { s with store }.addGlobal f.name (.function id)

/-! ## Packages -/

/-- The package of a name. -/
def package? (s : Session) (name : String) : Option PackageId :=
  s.packages.lookup name

/-- The package of a name, made without exports on first request. -/
def packageOf (s : Session) (name : String) : PackageId × Session :=
  match s.package? name with
  | some id => (id, s)
  | none =>
    let (id, store) := s.store.addPackage { name }
    (id, { s with store, packages := s.packages ++ [(name, id)] })

/-- Puts a package under its name, in place of the one that has it. -/
def registerPackage (s : Session) (p : Package) : PackageId × Session :=
  let (id, store) := s.store.addPackage p
  (id, { s with store, packages := (s.packages.filter fun e => e.1 != p.name) ++ [(p.name, id)] })

/-- Binds exports globally under the names they are listed with. -/
def bindExports (s : Session) : List (String × FunctionId) → Session
  | [] => s
  | (name, f) :: exports => (s.addGlobal name (.function f)).bindExports exports

/-- Binds every export of a package globally under its qualified name. -/
def importPackage (s : Session) (name : String) : Except RuntimeError PackageId × Session :=
  match s.package? name with
  | none => (.error (.unknownPackage name), s)
  | some id => (.ok id, s.bindExports (s.store.package id).qualifiedExports)

/-- Registers a package of host functions, each of which takes any arguments. -/
def registerHostPackage (s : Session) (name : String) (functions : List (String × HostAction)) : PackageId × Session :=
  let (p, store) := s.store.hostPackage { name } functions
  { s with store }.registerPackage p

/-! ## Types -/

/-- The type of a value. -/
def typeOf (s : Session) (v : Value) : Option TypeHandle × Session :=
  let (type?, store, types) := s.store.typeOf s.types v
  (type?, { s with store, types })

/-- The diagnostic form of a session. -/
def describe (s : Session) : String :=
  "Environment \x7b globals: " ++ toString (((s.store.frames.get? s.globals).getD {}).bindings.length) ++ ", packages: "
    ++ toString s.packages.length ++ ", types: " ++ s.types.describe ++ ", has_evaluator: "
    ++ toString s.hasEvaluator ++ " \x7d"

end Session

end Zygo
