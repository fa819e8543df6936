/-!
# Integers in a radix

Digits, the number that a list of digits stands for, and the reading of signed 64-bit integers. A reading fails on an
empty list of digits, on a character that is no digit of the radix and on a number outside the range of 64 bits.
-/

namespace Zygo.Number

/-- The value of a digit: ten decimal digits, then the letters of either case. -/
def digitValue? (c : Char) : Option Nat :=
  if '0' ≤ c ∧ c ≤ '9' then some (c.toNat - '0'.toNat)
  else if 'a' ≤ c ∧ c ≤ 'z' then some (c.toNat - 'a'.toNat + 10)
  else if 'A' ≤ c ∧ c ≤ 'Z' then some (c.toNat - 'A'.toNat + 10)
  else none

/-- The value of a digit of `radix`. -/
def digitIn? (radix : Nat) (c : Char) : Option Nat :=
  (digitValue? c).filter (· < radix)

/-- The number whose digits in `radix` are `acc` followed by the list. -/
def digitsFrom? (radix acc : Nat) : List Char → Option Nat
  | [] => some acc
  | c :: s => (digitIn? radix c).bind fun d => digitsFrom? radix (radix * acc + d) s

/-- The number of a non-empty list of digits. -/
def natural? (radix : Nat) (s : List Char) : Option Nat :=
  if s.isEmpty then none else digitsFrom? radix 0 s

/-- The number of a list of digits after an optional sign. -/
def integer? (radix : Nat) : List Char → Option Int
  | '-' :: s => (natural? radix s).map fun n => -(n : Int)
  | '+' :: s => (natural? radix s).map fun n => (n : Int)
  | s => (natural? radix s).map fun n => (n : Int)

/-- The 64-bit integer with this value, if there is one. -/
def int64? (n : Int) : Option Int64 :=
  if Int64.minValue.toInt ≤ n ∧ n ≤ Int64.maxValue.toInt then some (Int64.ofInt n) else none

/-- The 64-bit integer that a text writes in `radix`. -/
def readInt64? (radix : Nat) (text : String) : Option Int64 :=
  (integer? radix text.toList).bind int64?

end Zygo.Number
