import Zygo.Number.Double
import Zygo.Number.Radix

/-!
# Reading double precision numbers

`Double.ofDecimal` is the double nearest to `m · 10 ^ e`, a tie going to the even neighbour, by exact integer
arithmetic. `Double.read?` reads a decimal text: an optional sign, then `inf`, `infinity` or `nan` in any case, or
digits with an optional point and an optional exponent.
-/

namespace Zygo

namespace Number

/-- The quotient rounded to the nearest whole number, a half to the even neighbour. -/
def divNearest (n d : Nat) : Nat :=
  let q := n / d
  let twice := 2 * (n % d)
  if twice < d then q else if d < twice then q + 1 else if q % 2 = 0 then q else q + 1

/-- The greatest `k` with 2 ^ k ≤ n / d, for positive `n` and `d`. -/
def floorLog2 (n d : Nat) : Int :=
  let k := (n.log2 : Int) - d.log2
  if n * Nat.pow 2 (-k).toNat < d * Nat.pow 2 k.toNat then k - 1 else k

/-- The count of decimal digits of a number. -/
def decimalLength (n : Nat) : Nat :=
  (Nat.toDigits 10 n).length

end Number

namespace Double

open Number

/-- The magnitude bits of the double nearest to `n / d`, for positive `n` and `d`. The fraction is rounded on the grid
2 ^ q of the number's size; a carry out of it raises the exponent field by itself. -/
def nearestMagnitude (n d : Nat) : Nat :=
  let q := max (floorLog2 n d - 52) (-1074)
  let m := divNearest (n * Nat.pow 2 (-q).toNat) (d * Nat.pow 2 q.toNat)
  min ((q + 1074).toNat * Nat.pow 2 52 + m) infinityBits

/-- The magnitude bits of the double nearest to `m · 10 ^ e`. Numbers from 10 ^ 310 on are infinite and those below
10 ^ -330 vanish, so no greater power is ever built. -/
def decimalMagnitude (m : Nat) (e : Int) : Nat :=
  let size := (decimalLength m : Int) + e
  if m = 0 ∨ size < -330 then 0
  else if 310 < size then infinityBits
  else nearestMagnitude (m * Nat.pow 10 e.toNat) (Nat.pow 10 (-e).toNat)

/-- The double nearest to `m · 10 ^ e`, with the given sign. -/
def ofDecimal (negative : Bool) (m : Nat) (e : Int) : Double :=
  ofMagnitude negative (decimalMagnitude m e)

/-- The exponent that stands behind a number: nothing, or `e` of either case, an optional sign and digits. -/
def exponent? : List Char → Option Int
  | [] => some 0
  | c :: s => if c = 'e' ∨ c = 'E' then integer? 10 s else none

/-- An unsigned number: digits with an optional point, at least one of them, then the exponent. -/
def unsigned? (negative : Bool) (s : List Char) : Option Double :=
  let whole := s.takeWhile Char.isDigit
  let rest := s.dropWhile Char.isDigit
  let (fraction, rest) := match rest with
    | '.' :: rest => (rest.takeWhile Char.isDigit, rest.dropWhile Char.isDigit)
    | _ => ([], rest)
  match natural? 10 (whole ++ fraction), exponent? rest with
  | some m, some e => some (ofDecimal negative m (e - fraction.length))
  | _, _ => none

/-- A number or one of the names of infinity and NaN. -/
def unsignedOrName? (negative : Bool) (s : List Char) : Option Double :=
  let name := s.map Char.toLower
  if name = "inf".toList ∨ name = "infinity".toList then some (infinity negative)
  else if name = "nan".toList then some (nan negative)
  else unsigned? negative s

/-- The double that a text writes. -/
def read? (text : String) : Option Double :=
  match text.toList with
  | '-' :: s => unsignedOrName? true s
  | '+' :: s => unsignedOrName? false s
  | s => unsignedOrName? false s

end Double

end Zygo
