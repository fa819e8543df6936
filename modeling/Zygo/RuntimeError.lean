import Zygo.Value.Basic

/-!
# Errors of a session

Every failure of an operation on values is a `RuntimeError` with a cause; `RuntimeError.message` is the wording.

Two of them are never raised in a running program, which ends instead: `callsTooDeep` stands for a stack that is used up,
and `missingArgument` for a function of the host that reads past the end of its arguments.
-/

namespace Zygo

/-- The kinds of literals that may hold no value. -/
inductive LiteralKind where
  | decimal
  | hex
  | octal
  | binary
  | float
  | char
  deriving DecidableEq, Repr

/-- The name of a kind in messages. -/
def LiteralKind.name : LiteralKind → String
  | decimal => "decimal"
  | hex => "hex"
  | octal => "octal"
  | binary => "binary"
  | float => "float"
  | char => "char"

/-- Why an operation failed. -/
inductive RuntimeError where
  /-- No frame that the look-up may see binds the symbol. -/
  | symbolNotFound (name : String)
  /-- The record has no method of the name. -/
  | methodNotFound (method typeName : String)
  /-- A call with too few or too many arguments. -/
  | wrongArgumentCount (name : String) (expected got : Nat) (variadic : Bool)
  /-- A value of another variant than `expected`. -/
  | typeMismatch (context expected : String) (got : Variant)
  | unknownPackage (name : String)
  /-- The record does not hold the key, which is given as it renders. -/
  | keyNotFound (key : String)
  /-- A value that can be no key. -/
  | unhashableKey (variant : Variant)
  /-- A list that ends in another value than the empty list, given as it renders. -/
  | improperList (tail : String)
  /-- A literal of the right form that stands for no value. -/
  | invalidLiteral (kind : LiteralKind) (text : String)
  /-- A call of a user function while there is no evaluator. -/
  | noEvaluator (name : String)
  /-- Calls nested more deeply than evaluation goes. -/
  | callsTooDeep (name : String)
  /-- A function of the host that reads an argument which its declared arity does not promise. -/
  | missingArgument (name : String) (index : Nat)
  deriving DecidableEq, Repr

/-- The wording of an error. -/
def RuntimeError.message : RuntimeError → String
  | symbolNotFound name => "symbol `" ++ name ++ "` not found"
  | methodNotFound method typeName => "method `" ++ method ++ "` not found on record `" ++ typeName ++ "`"
  | wrongArgumentCount name expected got variadic =>
    "`" ++ name ++ "` expects " ++ (if variadic then "at least " else "exactly ") ++ toString expected ++ " argument"
      ++ (if expected = 1 then "" else "s") ++ ", got " ++ toString got
  | typeMismatch context expected got => context ++ ": expected " ++ expected ++ ", got " ++ got.name
  | unknownPackage name => "unknown package `" ++ name ++ "`"
  | keyNotFound key => "key `" ++ key ++ "` not found"
  | unhashableKey variant => "value of type " ++ variant.name ++ " cannot be used as a record key"
  | improperList tail => "expected a proper list, found a chain ending in `" ++ tail ++ "`"
  | invalidLiteral kind text => "invalid " ++ kind.name ++ " literal `" ++ text ++ "`"
  | noEvaluator name => "cannot call `" ++ name ++ "`: no evaluator installed"
  | callsTooDeep name => "cannot call `" ++ name ++ "`: calls are nested too deeply"
  | missingArgument name index => "`" ++ name ++ "` has no argument " ++ toString index

end Zygo
