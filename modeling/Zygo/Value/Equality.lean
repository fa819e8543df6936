import Zygo.Value.Basic

/-!
# Equality of values

`Value.identical` decides whether two values are one and the same, cell by cell. `Value.equal` is the equality that
programs see: data by content, texts by their characters alone, floats as numbers, symbols by number, and functions,
records, packages and host objects by identity. Two lists that go on with the same cell are equal from there on without
a further look, so a NaN in a shared tail is not compared.

* `identical_iff`: `identical` decides equality in the logic.
-/

namespace Zygo.Value

mutual

/-- Whether two values are the same value. -/
def identical : Value → Value → Bool
  | int m, int n => m == n
  | float x, float y => x == y
  | bool b, bool c => b == c
  | char c, char d => c == d
  | symbol s, symbol t => s == t
  | sentinel s, sentinel t => s == t
  | text s raw, text t raw' => s == t && raw == raw'
  | bytes data ty, bytes data' ty' => data == data' && ty == ty'
  | pair cell head tail, pair cell' head' tail' => cell == cell' && head.identical head' && tail.identical tail'
  | array items, array items' => identicalAll items items'
  | function f, function g => f == g
  | record r, record s => r == s
  | package p, package q => p == q
  | error m, error n => m == n
  | host a, host b => a == b
  | type t, type u => t == u
  | _, _ => false

/-- Whether two lists hold the same values. -/
def identicalAll : List Value → List Value → Bool
  | [], [] => true
  | v :: vs, w :: ws => v.identical w && identicalAll vs ws
  | _, _ => false

end

mutual

theorem identical_iff : ∀ v w : Value, v.identical w = true ↔ v = w
  | pair cell head tail, w => by
    cases w with
    | pair cell' head' tail' => simp [identical, identical_iff head head', identical_iff tail tail', and_assoc]
    | _ => simp [identical]
  | array items, w => by
    cases w with
    | array items' => simp [identical, identicalAll_iff items items']
    | _ => simp [identical]
  | int _, w | float _, w | bool _, w | char _, w | symbol _, w | sentinel _, w | text .., w | bytes .., w
  | function _, w | record _, w | package _, w | error _, w | host _, w | type _, w => by
    cases w <;> simp [identical]

theorem identicalAll_iff : ∀ vs ws : List Value, identicalAll vs ws = true ↔ vs = ws
  | [], ws => by cases ws <;> simp [identicalAll]
  | v :: vs, ws => by
    cases ws with
    | nil => simp [identicalAll]
    | cons w ws => simp [identicalAll, identical_iff v w, identicalAll_iff vs ws]

end

instance : DecidableEq Value := fun v w => decidable_of_iff _ (identical_iff v w)

/-- Whether two values are the same list cell. -/
def sameCell : Value → Value → Bool
  | pair cell head tail, pair cell' head' tail' => (pair cell head tail).identical (pair cell' head' tail')
  | _, _ => false

mutual

/-- Equality of values as programs see it. -/
def equal : Value → Value → Bool
  | int m, int n => m == n
  | float x, float y => x.equal y
  | bool b, bool c => b == c
  | char c, char d => c == d
  | symbol s, symbol t => s.same t
  | sentinel s, sentinel t => s == t
  | text s _, text t _ => s == t
  | bytes data _, bytes data' _ => data == data'
  | pair _ head tail, pair _ head' tail' => head.equal head' && (sameCell tail tail' || tail.equal tail')
  | array items, array items' => equalAll items items'
  | function f, function g => f == g
  | record r, record s => r == s
  | package p, package q => p == q
  | error m, error n => m == n
  | host a, host b => a == b
  | type t, type u => t == u
  | _, _ => false

/-- Equality item by item. -/
def equalAll : List Value → List Value → Bool
  | [], [] => true
  | v :: vs, w :: ws => v.equal w && equalAll vs ws
  | _, _ => false

end

end Zygo.Value
