import Mathlib.Algebra.Order.Field.Power
import Mathlib.Data.Int.Log
import Mathlib.Data.Rat.Floor
import Mathlib.Tactic.GCongr
import Mathlib.Tactic.NormNum
import Mathlib.Tactic.Positivity
import Mathlib.Tactic.Ring
import Zygo.Number.Nearest

/-!
# Rounding to the nearest double

`Double.nearestMagnitude` rounds a quotient, and of its two arguments only the ratio counts. A quotient that is a
double is rounded to that double. So a decimal may be shifted, its digits multiplied by ten and its exponent lowered,
without another reading.

* `Double.nearestMagnitude_congr`: equal quotients are rounded alike.
* `Double.nearestMagnitude_parts`: a finite double is the rounding of its parts.
* `Double.decimalMagnitude_mul_pow`: zeros behind the digits count as exponent.
-/

namespace Zygo

namespace Number

variable {n d c : Nat}

/-! ## Quotients -/

theorem divNearest_mul_right (n d : Nat) (hc : 0 < c) : divNearest (n * c) (d * c) = divNearest n d := by
  have hq : n * c / (d * c) = n / d := Nat.mul_div_mul_right n d hc
  have hr : n * c % (d * c) = n % d * c := Nat.mul_mod_mul_right c n d
  simp only [divNearest, hq, hr, ← Nat.mul_assoc, Nat.mul_lt_mul_right hc]

theorem divNearest_mul_self (m : Nat) (hd : 0 < d) : divNearest (m * d) d = m := by
  simp [divNearest, Nat.mul_div_cancel m hd, Nat.mul_mod_left, hd]

/-- A power of two as the quotient that the code computes with. -/
theorem two_zpow (k : Int) : (2 : ℚ) ^ k = (2 : ℚ) ^ k.toNat / 2 ^ (-k).toNat := by
  rcases Int.le_total 0 k with hk | hk
  · obtain ⟨j, rfl⟩ := Int.eq_ofNat_of_zero_le hk
    simp
  · obtain ⟨j, hj⟩ := Int.eq_ofNat_of_zero_le (show 0 ≤ -k by omega)
    obtain rfl : k = -(j : Int) := by omega
    simp

theorem log_two_eq {x : ℚ} {k : Int} (hlow : (2 : ℚ) ^ k ≤ x) (hhigh : x < 2 ^ (k + 1)) : Int.log 2 x = k := by
  have hx : 0 < x := lt_of_lt_of_le (by positivity) hlow
  have h₁ := (Int.zpow_le_iff_le_log (b := 2) (by decide) hx).1 (by exact_mod_cast hlow)
  have h₂ := (Int.lt_zpow_iff_log_lt (b := 2) (by decide) hx).1 (by exact_mod_cast hhigh)
  omega

/-- `floorLog2` is the logarithm of the quotient. -/
theorem floorLog2_eq (hn : 0 < n) (hd : 0 < d) : floorLog2 n d = Int.log 2 ((n : ℚ) / d) := by
  have hdq : (0 : ℚ) < d := by exact_mod_cast hd
  have hn₁ : (2 : ℚ) ^ (n.log2 : Int) ≤ n := by exact_mod_cast Nat.log2_self_le hn.ne'
  have hn₂ : (n : ℚ) < 2 ^ ((n.log2 : Int) + 1) := by exact_mod_cast Nat.lt_log2_self
  have hd₁ : (2 : ℚ) ^ (d.log2 : Int) ≤ d := by exact_mod_cast Nat.log2_self_le hd.ne'
  have hd₂ : (d : ℚ) < 2 ^ ((d.log2 : Int) + 1) := by exact_mod_cast Nat.lt_log2_self
  generalize hk : (n.log2 : Int) - d.log2 = k
  have hlow : (2 : ℚ) ^ (k - 1) ≤ n / d := by
    rw [le_div_iff₀ hdq]
    calc (2 : ℚ) ^ (k - 1) * d ≤ 2 ^ (k - 1) * 2 ^ ((d.log2 : Int) + 1) := by gcongr
      _ = 2 ^ (n.log2 : Int) := by rw [← zpow_add₀ two_ne_zero]; congr 1; omega
      _ ≤ n := hn₁
  have hhigh : (n : ℚ) / d < 2 ^ (k + 1) := by
    rw [div_lt_iff₀ hdq]
    calc (n : ℚ) < 2 ^ ((n.log2 : Int) + 1) := hn₂
      _ = 2 ^ (k + 1) * 2 ^ (d.log2 : Int) := by rw [← zpow_add₀ two_ne_zero]; congr 1; omega
      _ ≤ 2 ^ (k + 1) * d := by gcongr
  have htest : n * Nat.pow 2 (-k).toNat < d * Nat.pow 2 k.toNat ↔ (n : ℚ) / d < 2 ^ k := by
    rw [two_zpow, div_lt_div_iff₀ hdq (by positivity), mul_comm (_ ^ _) (d : ℚ)]
    exact_mod_cast Iff.rfl
  simp only [floorLog2, hk, htest]
  split
  · rename_i h
    exact (log_two_eq hlow (by simpa using h)).symm
  · rename_i h
    exact (log_two_eq (not_lt.1 h) hhigh).symm

theorem floorLog2_mul_right (hn : 0 < n) (hd : 0 < d) (hc : 0 < c) : floorLog2 (n * c) (d * c) = floorLog2 n d := by
  have hcq : (c : ℚ) ≠ 0 := by exact_mod_cast hc.ne'
  rw [floorLog2_eq (Nat.mul_pos hn hc) (Nat.mul_pos hd hc), floorLog2_eq hn hd, Nat.cast_mul, Nat.cast_mul,
    mul_div_mul_right _ _ hcq]

/-- The size of a number with a known power of two in it. -/
theorem floorLog2_mul_pow {m : Nat} (hm : 0 < m) (q : Int) :
    floorLog2 (m * Nat.pow 2 q.toNat) (Nat.pow 2 (-q).toNat) = m.log2 + q := by
  have hpos : ∀ k, 0 < Nat.pow 2 k := fun k => Nat.pow_pos two_pos
  have hlow : (2 : ℚ) ^ (m.log2 : Int) ≤ m := by exact_mod_cast Nat.log2_self_le hm.ne'
  have hhigh : (m : ℚ) < 2 ^ ((m.log2 : Int) + 1) := by exact_mod_cast Nat.lt_log2_self
  have hquot : ((m * Nat.pow 2 q.toNat : Nat) : ℚ) / (Nat.pow 2 (-q).toNat : Nat) = m * 2 ^ q := by
    rw [two_zpow, ← mul_div_assoc]
    push_cast [Nat.pow_eq]
    rfl
  rw [floorLog2_eq (Nat.mul_pos hm (hpos _)) (hpos _), hquot]
  refine log_two_eq ?_ ?_
  · rw [zpow_add₀ two_ne_zero]
    gcongr
  · rw [show (m.log2 : Int) + q + 1 = m.log2 + 1 + q by omega, zpow_add₀ two_ne_zero]
    gcongr

/-! ## Counts of digits -/

theorem decimalLength_pos (n : Nat) : 0 < decimalLength n :=
  Nat.length_toDigits_pos

theorem lt_pow_decimalLength (n : Nat) : n < 10 ^ decimalLength n :=
  (Nat.length_toDigits_le_iff (by decide) (decimalLength_pos n)).1 le_rfl

theorem pow_le_of_lt_decimalLength {k : Nat} (h : k < decimalLength n) (hn : 0 < n) : 10 ^ k ≤ n := by
  rcases Nat.eq_zero_or_pos k with rfl | hk
  · exact hn
  · refine not_lt.1 fun hlt => ?_
    have := (Nat.length_toDigits_le_iff (b := 10) (by decide) hk).2 hlt
    exact absurd h (Nat.not_lt.2 this)

theorem decimalLength_ten_mul (hn : 0 < n) : decimalLength (10 * n) = decimalLength n + 1 := by
  have happend := Nat.toDigits_append_toDigits (b := 10) (d := 0) (by decide) hn (by decide)
  rw [decimalLength, ← Nat.add_zero (10 * n), ← happend, List.length_append]
  rfl

end Number

namespace Double

open Number

variable {n d n' d' : Nat}

/-! ## Rounding -/

theorem nearestMagnitude_mul_right {c : Nat} (hn : 0 < n) (hd : 0 < d) (hc : 0 < c) :
    nearestMagnitude (n * c) (d * c) = nearestMagnitude n d := by
  simp only [nearestMagnitude, floorLog2_mul_right hn hd hc, Nat.mul_right_comm _ c, divNearest_mul_right _ _ hc]

/-- **Equal quotients are rounded alike.** -/
theorem nearestMagnitude_congr (hn : 0 < n) (hd : 0 < d) (hn' : 0 < n') (hd' : 0 < d') (h : n * d' = n' * d) :
    nearestMagnitude n d = nearestMagnitude n' d' := by
  rw [← nearestMagnitude_mul_right hn hd hd', ← nearestMagnitude_mul_right hn' hd' hd, h, Nat.mul_comm d d']

theorem nearestMagnitude_le (n d : Nat) : nearestMagnitude n d ≤ infinityBits :=
  Nat.min_le_right _ _

/-- A number on the grid of its size is rounded to itself. -/
theorem nearestMagnitude_mul_pow {m : Nat} {q : Int} (hm : 0 < m) (hlt : m < 2 ^ 53) (hq : -1074 ≤ q)
    (hgrid : 2 ^ 52 ≤ m ∨ q = -1074) :
    nearestMagnitude (m * Nat.pow 2 q.toNat) (Nat.pow 2 (-q).toNat) =
      min ((q + 1074).toNat * Nat.pow 2 52 + m) infinityBits := by
  have hlog : m.log2 < 53 := (Nat.log2_lt hm.ne').2 hlt
  have hexp : max (floorLog2 (m * Nat.pow 2 q.toNat) (Nat.pow 2 (-q).toNat) - 52) (-1074) = q := by
    rw [floorLog2_mul_pow hm]
    rcases hgrid with hge | rfl
    · have := (Nat.le_log2 hm.ne').2 hge
      omega
    · omega
  have hpow : 0 < Nat.pow 2 (-q).toNat * Nat.pow 2 q.toNat :=
    Nat.mul_pos (Nat.pow_pos two_pos) (Nat.pow_pos two_pos)
  have hround := divNearest_mul_self m hpow
  rw [Nat.mul_comm (Nat.pow 2 (-q).toNat), ← Nat.mul_assoc, Nat.mul_comm (Nat.pow 2 q.toNat)] at hround
  simp only [nearestMagnitude, hexp, hround]

/-- Neither infinite nor a NaN. -/
def Finite (x : Double) : Prop :=
  x.magnitude < infinityBits

/-- The parts of a number make up its bits, and the whole number fills its 53 bits unless the grid is the finest. -/
theorem parts_spec (x : Double) :
    (x.parts.2 + 1074).toNat * Nat.pow 2 52 + x.parts.1 = x.magnitude ∧ x.parts.1 < 2 ^ 53 ∧ -1074 ≤ x.parts.2 ∧
      (2 ^ 52 ≤ x.parts.1 ∨ x.parts.2 = -1074) := by
  have hmod : x.magnitude % Nat.pow 2 52 < Nat.pow 2 52 := Nat.mod_lt _ (by decide)
  have hdiv := Nat.div_add_mod x.magnitude (Nat.pow 2 52)
  simp only [parts]
  split
  all_goals
    simp only [Nat.pow_eq, Int.ofNat_eq_natCast] at *
    norm_num at *
    omega

theorem parts_le {x : Double} (hx : x.Finite) : x.parts.2 ≤ 971 := by
  obtain ⟨hbits, -, hq, hgrid⟩ := x.parts_spec
  simp only [Finite, infinityBits, ← hbits, Nat.pow_eq] at hx
  norm_num at hx
  omega

theorem parts_pos {x : Double} (hx : 0 < x.magnitude) : 0 < x.parts.1 := by
  obtain ⟨hbits, -, -, hgrid⟩ := x.parts_spec
  rcases hgrid with hge | hq
  · exact lt_of_lt_of_le (by positivity) hge
  · rw [hq] at hbits
    simpa [← hbits] using hx

/-- **A finite double is the rounding of its parts.** -/
theorem nearestMagnitude_parts {x : Double} (hx : x.Finite) (hpos : 0 < x.magnitude) :
    nearestMagnitude (x.parts.1 * Nat.pow 2 x.parts.2.toNat) (Nat.pow 2 (-x.parts.2).toNat) = x.magnitude := by
  obtain ⟨hbits, hlt, hq, hgrid⟩ := x.parts_spec
  rw [nearestMagnitude_mul_pow (parts_pos hpos) hlt hq hgrid, hbits]
  exact Nat.min_eq_left (Nat.le_of_lt hx)

/-! ## Decimals -/

theorem decimalMagnitude_le (m : Nat) (e : Int) : decimalMagnitude m e ≤ infinityBits := by
  simp only [decimalMagnitude]
  split
  · exact Nat.zero_le _
  · split
    · exact Nat.le_refl _
    · exact nearestMagnitude_le _ _

/-- A zero behind the digits counts as exponent. -/
theorem decimalMagnitude_ten_mul (m : Nat) (e : Int) : decimalMagnitude (10 * m) e = decimalMagnitude m (e + 1) := by
  rcases Nat.eq_zero_or_pos m with rfl | hm
  · simp [decimalMagnitude]
  have hpos : ∀ k, 0 < Nat.pow 10 k := fun k => Nat.pow_pos (by decide)
  have hround : nearestMagnitude (10 * m * Nat.pow 10 e.toNat) (Nat.pow 10 (-e).toNat) =
      nearestMagnitude (m * Nat.pow 10 (e + 1).toNat) (Nat.pow 10 (-(e + 1)).toNat) := by
    refine nearestMagnitude_congr (Nat.mul_pos (by omega) (hpos _)) (hpos _) (Nat.mul_pos hm (hpos _)) (hpos _) ?_
    rcases lt_or_ge e 0 with he | he
    · rw [show e.toNat = 0 by omega, show (e + 1).toNat = 0 by omega, show (-e).toNat = (-(e + 1)).toNat + 1 by omega]
      simp only [Nat.pow_eq]
      ring
    · rw [show (e + 1).toNat = e.toNat + 1 by omega, show (-(e + 1)).toNat = 0 by omega, show (-e).toNat = 0 by omega]
      simp only [Nat.pow_eq]
      ring
  have hsize : (decimalLength (10 * m) : Int) + e = decimalLength m + (e + 1) := by
    rw [decimalLength_ten_mul hm]
    omega
  have hzero : 10 * m = 0 ↔ m = 0 := by omega
  simp only [decimalMagnitude, hsize, hzero, hround]

/-- **Zeros behind the digits count as exponent.** -/
theorem decimalMagnitude_mul_pow (m k : Nat) (e : Int) :
    decimalMagnitude (m * 10 ^ k) e = decimalMagnitude m (e + k) := by
  induction k generalizing e with
  | zero => simp
  | succ k ih =>
    rw [pow_succ, ← Nat.mul_assoc, Nat.mul_comm _ 10, decimalMagnitude_ten_mul, ih]
    congr 1
    omega

end Double

end Zygo
