import Zygo.Number.Nearest
import Zygo.RuntimeError

/-!
# Values of tokens

`Token.constant?` is the value of a self-evaluating literal, which depends on nothing but the token. `Token.value?`
gives symbols their values as well and puts their texts into the symbol table. Structural tokens have no value.
-/

namespace Zygo.Token

/-- The integer that a payload writes in a radix. -/
def integer (radix : Nat) (kind : LiteralKind) (text : String) : Except RuntimeError Value :=
  match Number.readInt64? radix text with
  | some n => .ok (.int n)
  | none => .error (.invalidLiteral kind text)

/-- The value of a self-evaluating literal. -/
def constant? (t : Token) : Except RuntimeError (Option Value) :=
  match t.kind with
  | .bool => .ok (some (.bool (t.text == "true")))
  | .decimal => (integer 10 .decimal t.text).map some
  | .hex => (integer 16 .hex t.text).map some
  | .oct => (integer 8 .octal t.text).map some
  | .binary => (integer 2 .binary t.text).map some
  | .float =>
    match Double.read? t.text with
    | some x => .ok (some (.float x))
    | none => .error (.invalidLiteral .float t.text)
  | .char =>
    match t.text.toList with
    | c :: _ => .ok (some (.char c))
    | [] => .error (.invalidLiteral .char t.text)
  | .string => .ok (some (.text t.text false))
  | .rawString => .ok (some (.text t.text true))
  | _ => .ok none

/-- The value of a literal or a symbol, and the symbol table with the symbol. -/
def value? (t : Token) (symbols : SymbolTable) : Except RuntimeError (Option Value × SymbolTable) :=
  match t.kind with
  | .symbol => .ok (some (.symbol (symbols.symbol t.text).1), (symbols.symbol t.text).2)
  | .dotSymbol => .ok (some (.symbol (symbols.dottedSymbol t.text).1), (symbols.dottedSymbol t.text).2)
  | _ => t.constant?.map fun v => (v, symbols)

end Zygo.Token
