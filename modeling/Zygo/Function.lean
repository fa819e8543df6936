import Zygo.Text.Quoted
import Zygo.Value.Basic

/-!
# Functions

A function is either part of the host or defined by parameters and a form to evaluate. A user function captures the
frame that it was made in; the capture is the frame itself, so later bindings show. Builders receive their arguments
unevaluated.

A host is free to add functions that do anything. Of all that they could do, `HostAction` has the actions of the built-in
functions of a session, up to `trim`, and from `argCount` on some that hosts have used to try calls out: enough to pass
arguments on, to fail, and to call back into the session.
-/

namespace Zygo

/-- What a function of the host does, as far as it is one of those that are followed here. -/
inductive HostAction where
  /-- The package of a name, made on first request. -/
  | packageOf
  /-- Exports a function from a package. -/
  | exportFrom
  /-- Binds the exports of a package. -/
  | importPackage
  /-- Calls a method of a record. -/
  | callMethod
  /-- Joins texts. -/
  | concat
  /-- Appends a character to a text. -/
  | append
  /-- Drops the last newline of a text. -/
  | chomp
  /-- Drops the blanks around a text. -/
  | trim
  /-- Counts the arguments. -/
  | argCount
  /-- Lists the arguments. -/
  | argList
  /-- Puts the arguments into an array. -/
  | argArray
  /-- Gives the first argument. -/
  | first
  /-- Gives the function's own name. -/
  | ownName
  /-- Gives the empty list. -/
  | nothing
  /-- Fails. -/
  | refuse
  /-- Calls the first argument with the others. -/
  | apply
  /-- Looks up the global that the first argument names. -/
  | global
  deriving DecidableEq, Repr

/-- What runs when a function is called. -/
inductive Body where
  | host (action : HostAction)
  | user (params : List Symbol) (form : Value)

/-- A function. -/
structure Function where
  name : String
  arity : Nat
  /-- Whether further arguments are welcome. -/
  variadic : Bool
  body : Body
  /-- The captured frame. -/
  closing? : Option FrameId := none
  /-- Whether the arguments are left unevaluated. -/
  isBuilder : Bool := false
  /-- The form that the function was made from. -/
  source? : Option Value := none

namespace Function

/-- A function of the host. -/
def ofHost (name : String) (arity : Nat) (variadic : Bool) (action : HostAction) : Function :=
  { name, arity, variadic, body := .host action }

/-- A function of the host that receives its arguments unevaluated. -/
def builder (name : String) (action : HostAction) : Function :=
  { ofHost name 0 true action with isBuilder := true }

/-- A user function that captures a frame. -/
def ofForm (name : String) (params : List Symbol) (variadic : Bool) (form : Value) (closing : FrameId) : Function :=
  { name, arity := params.length, variadic, body := .user params form, closing? := some closing }

/-- Whether a function is defined by a form. -/
def isUser (f : Function) : Bool :=
  match f.body with
  | .user .. => true
  | .host _ => false

/-- Whether a function takes this many arguments. -/
def accepts (f : Function) (count : Nat) : Bool :=
  if f.variadic then f.arity ≤ count else count == f.arity

/-- The diagnostic form of a function. -/
def describe (f : Function) : String :=
  "FunctionValue \x7b name: " ++ Text.quoted f.name ++ ", arity: " ++ toString f.arity ++ ", variadic: "
    ++ toString f.variadic ++ ", user: " ++ toString f.isUser ++ ", is_builder: " ++ toString f.isBuilder
    ++ ", has_closing: " ++ toString f.closing?.isSome ++ " \x7d"

end Function

end Zygo
