import Zygo.Session.Basic
import Zygo.Value.Text

/-!
# Calls and evaluation

A call checks the count of the arguments first. A host function then does its action; a user function evaluates its
form in a new function frame, whose parent is the captured frame and which binds the parameters to the arguments.

A session leaves evaluation to an evaluator that the host installs, and `evalWith` is one of the many that it could be: a
symbol evaluates to its value in the frame, a list to the call of its head with the values of its other elements, and
anything else to itself. Evaluation follows the form by recursion.

Nested calls are counted, so that every call comes to an end: at `callDepth` they fail. A running program has no such
limit and no such error; there calls nest until its stack is used up, which may be sooner or later than this.
-/

namespace Zygo.Session

/-! ## Steps of actions -/

/-- Takes over a result that does not touch the session. -/
def pureResult {α : Type} (r : Except RuntimeError α) : Action α :=
  ExceptT.mk (pure r)

/-- Takes over an operation that may fail. -/
def ofOperation {α : Type} (f : Session → Except RuntimeError α × Session) : Action α :=
  ExceptT.mk fun s => f s

/-- Takes over an operation that cannot fail. -/
def ofChange {α : Type} (f : Session → α × Session) : Action α :=
  ExceptT.mk fun s => (.ok (f s).1, (f s).2)

/-- Fails. -/
def raise {α : Type} (e : RuntimeError) : Action α :=
  pureResult (.error e)

/-- Fails on a value of the wrong variant. -/
def mismatch {α : Type} (context expected : String) (v : Value) : Action α :=
  raise (.typeMismatch context expected v.variant)

/-- The argument with the number `i`. -/
def argument (f : Function) (args : List Value) (i : Nat) : Action Value :=
  match args[i]? with
  | some v => pure v
  | none => raise (.missingArgument f.name i)

/-! ## Host functions -/

/-- Calls the method of a record, which must be the record's own. -/
def callMethod (call : FunctionId → List Value → Action Value) (r : RecordId) (method : Symbol) (args : List Value) :
    Action Value := do
  let s ← get
  match (s.store.record r).method? method with
  | some f => call f args
  | none => raise (.methodNotFound method.name (s.store.record r).typeName)

/-- The symbol that names a method: a symbol itself, or the plain symbol of a text. -/
def methodSymbol (v : Value) : Action Symbol :=
  match v with
  | .symbol symbol => pure symbol
  | .text text _ => ofChange (·.intern text)
  | v => mismatch "_call: method name" "symbol or string" v

/-- What a host function does, given the way to call functions. -/
def perform (call : FunctionId → List Value → Action Value) (f : Function) (action : HostAction) (args : List Value) :
    Action Value := do
  let first := args.headD .null
  match action with
  | .packageOf =>
    match ← argument f args 0 with
    | .text name _ => return .package (← ofChange (·.packageOf name))
    | v => mismatch "package: name" "string" v
  | .exportFrom =>
    match ← argument f args 0 with
    | .package p =>
      match ← argument f args 1 with
      | .function g =>
        modify fun s => { s with store := s.store.exportFrom p g }
        return .null
      | v => mismatch "export: second argument" "function" v
    | v => mismatch "export: first argument" "package" v
  | .importPackage =>
    match ← argument f args 0 with
    | .text name _ => return .package (← ofOperation (·.importPackage name))
    | v => mismatch "import: name" "string" v
  | .callMethod =>
    match ← argument f args 0 with
    | .record r =>
      let method ← methodSymbol (← argument f args 1)
      callMethod call r method (args.drop 2)
    | v => mismatch "_call: receiver" "record" v
  | .concat => pureResult ((← argument f args 0).concat (args.drop 1))
  | .append => pureResult ((← argument f args 0).appendChar (← argument f args 1))
  | .chomp => pureResult (← argument f args 0).chomp
  | .trim => pureResult (← argument f args 0).trim
  | .argCount => return .int (Int64.ofNat args.length)
  | .argList => ofChange fun s => ((s.store.list args).1, { s with store := (s.store.list args).2 })
  | .argArray => return .array args
  | .first => return first
  | .ownName => return .text f.name false
  | .nothing => return .null
  | .refuse => mismatch ("host " ++ f.name) "string" first
  | .apply =>
    match first with
    | .function g => call g (args.drop 1)
    | v => mismatch "apply" "function" v
  | .global => ofOperation (·.lookupGlobal (first.asText?.getD ""))

/-- The functions that a session offers to programs: name, count of arguments, whether more are welcome, action. -/
def builtins : List (String × Nat × Bool × HostAction) :=
  [("package", 1, false, .packageOf), ("export", 2, false, .exportFrom), ("import", 1, false, .importPackage),
    ("_call", 2, true, .callMethod), ("concat", 1, true, .concat), ("append", 2, false, .append),
    ("chomp", 1, false, .chomp), ("trim", 1, false, .trim)]

/-- Binds the built-in functions globally. -/
def registerBuiltins (s : Session) : Session :=
  builtins.foldl (fun s (name, arity, variadic, action) => s.addFunction (.ofHost name arity variadic action)) s

/-! ## Evaluation -/

/-- The frame of a call: a function frame over `parent?` that binds the parameters in turn. -/
def callFrame (parent? : Option FrameId) (params : List Symbol) (args : List Value) : Frame :=
  (params.zip args).foldl (fun f (symbol, v) => f.define symbol v) { parent?, isFunction := true }

mutual

/-- The value of a form in a frame, given the way to call functions: the evaluator that is installed if there is one. -/
def evalWith (call : FunctionId → List Value → Action Value) (frame : FrameId) : Value → Action Value
  | .symbol symbol => do pureResult ((← get).store.frames.lookup frame symbol)
  | .pair cell head tail => do
    let _ ← pureResult ((← get).store.elements (.pair cell head tail))
    match ← evalWith call frame head with
    | .function f =>
      if ((← get).store.function f).isBuilder then call f tail.chain.1
      else call f (← evalElements call frame tail)
    | v => mismatch "call head" "function" v
  | v => pure v

/-- The values of the elements of a list, from left to right. -/
def evalElements (call : FunctionId → List Value → Action Value) (frame : FrameId) : Value → Action (List Value)
  | .pair _ head tail => do
    let v ← evalWith call frame head
    let vs ← evalElements call frame tail
    return v :: vs
  | _ => pure []

end

/-- One call, given the way to make the calls in it. -/
def callWith (call : FunctionId → List Value → Action Value) (id : FunctionId) (args : List Value) : Action Value := do
  let s ← get
  let f := s.store.function id
  if f.accepts args.length then
    match f.body with
    | .host action => perform call f action args
    | .user params form =>
      if s.hasEvaluator then
        let frame ← ofChange fun s =>
          let (frame, store) := s.store.addFrame (callFrame f.closing? params args)
          (frame, { s with store })
        evalWith call frame form
      else raise (.noEvaluator f.name)
  else raise (.wrongArgumentCount f.name f.arity args.length f.variadic)

/-- A call that nests calls to at most the given depth, itself included. -/
def callUpTo : Nat → FunctionId → List Value → Action Value
  | 0, id, _ => do raise (.callsTooDeep ((← get).store.function id).name)
  | depth + 1, id, args => callWith (callUpTo depth) id args

/-- How deep calls may be nested. This limit stands for the end of the stack of a running program, which has no other. -/
def callDepth : Nat := 100000

/-- Calls a function. -/
def call (id : FunctionId) (args : List Value) : Action Value :=
  callUpTo callDepth id args

/-- Calls a record's own method. -/
def invokeMethod (r : RecordId) (method : Symbol) (args : List Value) : Action Value :=
  callMethod call r method args

/-- The value of a form in a frame. -/
def eval (frame : FrameId) (form : Value) : Action Value :=
  evalWith call frame form

end Zygo.Session
