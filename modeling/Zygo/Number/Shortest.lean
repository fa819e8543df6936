import Zygo.Number.Nearest

/-!
# Writing double precision numbers

`Double.shortest` is the shortest decimal that reads back as the number: the fewest digits, and of those the nearest to
the number, a tie going up. `Double.render` lays the digits out: positionally in a middle range, else with an exponent.
-/

namespace Zygo

namespace Double

open Number

/-- A positive decimal `digits · 10 ^ scale`. -/
structure Decimal where
  digits : Nat
  scale : Int
  deriving DecidableEq, Repr

/-- The greatest `k` with 10 ^ k ≤ n / d, for positive `n` and `d`. -/
def floorLog10 (n d : Nat) : Int :=
  let k := (decimalLength n : Int) - decimalLength d
  if n * Nat.pow 10 (-k).toNat < d * Nat.pow 10 k.toNat then k - 1 else k

/-- The decimals next to `n / d` on the grid 10 ^ scale, the nearer one first, the upper one at a tie. -/
def neighbours (n d : Nat) (scale : Int) : List Decimal :=
  let n := n * Nat.pow 10 (-scale).toNat
  let d := d * Nat.pow 10 scale.toNat
  let lower : Decimal := ⟨n / d, scale⟩
  let upper : Decimal := ⟨n / d + 1, scale⟩
  if 2 * (n % d) < d then [lower, upper] else [upper, lower]

/-- Whether a decimal reads back as the magnitude `x`. -/
def readsAs (x : Nat) (c : Decimal) : Bool :=
  decimalMagnitude c.digits c.scale == x

/-- The first decimal that reads back, trying the grids 10 ^ scale, 10 ^ (scale - 1), … in turn. -/
def search (x n d : Nat) : (grids : Nat) → (scale : Int) → Option Decimal
  | 0, _ => none
  | grids + 1, scale =>
    match (neighbours n d scale).find? (readsAs x) with
    | some c => some c
    | none => search x n d grids (scale - 1)

/-- A decimal without zeros at the end. `fuel` bounds their number. -/
def Decimal.strip : (fuel : Nat) → Decimal → Decimal
  | 0, c => c
  | fuel + 1, c => if c.digits ≠ 0 ∧ c.digits % 10 = 0 then Decimal.strip fuel ⟨c.digits / 10, c.scale + 1⟩ else c

/-- The shortest decimal that reads back as a finite positive number. Seventeen digits always suffice; the exact value
stands behind them. -/
def shortest (x : Double) : Decimal :=
  let (m, q) := x.parts
  let n := m * Nat.pow 2 q.toNat
  let d := Nat.pow 2 (-q).toNat
  let found := search x.magnitude n d 17 (floorLog10 n d)
  let exact : Decimal := ⟨n * Nat.pow 10 (-q).toNat / d, min q 0⟩
  let c := found.getD exact
  c.strip (decimalLength c.digits)

/-- Which exponents of the first digit are written positionally. -/
structure Layout where
  least : Int
  greatest : Int

/-- Numbers from a ten-thousandth up to 10 ^ 16 are written positionally. -/
def layout : Layout :=
  ⟨-4, 15⟩

/-- Digits with a point after the first `e + 1` of them, and a digit at least on each side of it. -/
def positional (digits : List Char) (e : Int) : List Char :=
  if e < 0 then ['0', '.'] ++ List.replicate (-e - 1).toNat '0' ++ digits
  else
    let places := (e + 1).toNat
    let whole := digits.take places ++ List.replicate (places - digits.length) '0'
    let fraction := digits.drop places
    whole ++ ['.'] ++ if fraction.isEmpty then ['0'] else fraction

/-- Digits with a point after the first, if more follow, and an exponent. -/
def scientific (digits : List Char) (e : Int) : List Char :=
  let mantissa := match digits with
    | first :: second :: rest => first :: '.' :: second :: rest
    | _ => digits
  mantissa ++ ['e'] ++ (toString e).toList

/-- The text of a decimal. -/
def Decimal.layOut (c : Decimal) (layout : Layout) : List Char :=
  let digits := Nat.toDigits 10 c.digits
  let e := (digits.length : Int) + c.scale - 1
  if layout.least ≤ e ∧ e ≤ layout.greatest then positional digits e else scientific digits e

/-- The text of a number. -/
def render (x : Double) : String :=
  if x.isNaN then "NaN"
  else
    let body :=
      if x.isInfinite then ['i', 'n', 'f']
      else if x.isZero then ['0', '.', '0']
      else x.shortest.layOut layout
    String.ofList (if x.isNegative then '-' :: body else body)

end Double

end Zygo
