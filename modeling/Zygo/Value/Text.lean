import Zygo.RuntimeError

/-!
# Operations on texts

Joining, appending a character, and dropping the last newline or the blanks around a text. Texts never change: each
operation makes a new one.
-/

namespace Zygo.Value

/-- The characters of a text value; any other value does not fit `context`. -/
def expectText (context : String) (v : Value) : Except RuntimeError String :=
  match v.asText? with
  | some s => .ok s
  | none => .error (.typeMismatch context "string" v.variant)

/-- `joined` followed by the texts of a list, whose first value is the argument with the number `i`. -/
def joinFrom (joined : String) (i : Nat) : List Value → Except RuntimeError String
  | [] => .ok joined
  | v :: vs =>
    match v.expectText ("concat: argument " ++ toString i ++ " (0-based) of the rest") with
    | .error e => .error e
    | .ok s => joinFrom (joined ++ s) (i + 1) vs

/-- A text followed by others. -/
def concat (first : Value) (rest : List Value) : Except RuntimeError Value :=
  match first.expectText "concat: first argument" with
  | .error e => .error e
  | .ok s => (joinFrom s 0 rest).map fun joined => text joined false

/-- A text followed by a character. -/
def appendChar (first second : Value) : Except RuntimeError Value :=
  match first.expectText "append: first argument" with
  | .error e => .error e
  | .ok s =>
    match second with
    | char c => .ok (text (s.push c) false)
    | v => .error (.typeMismatch "append: second argument" "char" v.variant)

/-- A text without the newline at its end. -/
def dropNewline (s : String) : String :=
  match s.toList.reverse with
  | '\n' :: r => String.ofList r.reverse
  | _ => s

/-- A text value without the newline at its end. -/
def chomp (v : Value) : Except RuntimeError Value :=
  (v.expectText "chomp").map fun s => text (dropNewline s) false

/-- A text value without the blanks at its ends. -/
def trim (v : Value) : Except RuntimeError Value :=
  (v.expectText "trim").map fun s => text (Text.trim s) false

end Zygo.Value
