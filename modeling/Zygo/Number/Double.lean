/-!
# Double precision numbers

A number in the 64-bit interchange format, as its bits: a sign, eleven bits of exponent and fifty-two of fraction.
Equal bits are the same number object; `Double.equal` is numeric equality, for which the two zeros are equal and
nothing equals a NaN.
-/

namespace Zygo

/-- A double precision number. -/
structure Double where
  bits : UInt64
  deriving DecidableEq, Repr

namespace Double

/-- The bits of the positive infinity: the exponent field is full and the fraction empty. -/
def infinityBits : Nat :=
  0x7FF * Nat.pow 2 52

/-- Whether the sign bit is set. -/
def isNegative (x : Double) : Bool :=
  Nat.pow 2 63 ≤ x.bits.toNat

/-- All bits but the sign. -/
def magnitude (x : Double) : Nat :=
  x.bits.toNat % Nat.pow 2 63

/-- The number with this sign and these other bits. -/
def ofMagnitude (negative : Bool) (magnitude : Nat) : Double :=
  ⟨UInt64.ofNat (magnitude + if negative then Nat.pow 2 63 else 0)⟩

/-- Infinity of either sign. -/
def infinity (negative : Bool) : Double :=
  ofMagnitude negative infinityBits

/-- The NaN with the first bit of the fraction set, of either sign. -/
def nan (negative : Bool) : Double :=
  ofMagnitude negative (infinityBits + Nat.pow 2 51)

def isNaN (x : Double) : Bool :=
  infinityBits < x.magnitude

def isInfinite (x : Double) : Bool :=
  x.magnitude == infinityBits

def isZero (x : Double) : Bool :=
  x.magnitude == 0

/-- Numeric equality. -/
def equal (x y : Double) : Bool :=
  !x.isNaN && !y.isNaN && (x == y || (x.isZero && y.isZero))

/-- The whole number `m` and the power of two `q` with |x| = m · 2 ^ q, for a finite `x`. -/
def parts (x : Double) : Nat × Int :=
  let field : Nat := x.magnitude / Nat.pow 2 52
  let fraction : Nat := x.magnitude % Nat.pow 2 52
  if field = 0 then (fraction, -1074) else (fraction + Nat.pow 2 52, Int.ofNat field - 1075)

end Double

end Zygo
