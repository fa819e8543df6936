import Zygo.Proofs.Number.Numeral

/-!
# Texts of doubles

The text of a finite double reads back as the same bits. Which decimal the search finds does not matter: it tries each
one by reading it, and the exact value stands behind the search. Nor does the layout, which is a numeral in any case.

* `Double.shortest_reads`: the digits of a finite double are rounded to the double.
* `Double.read?_render`: a finite double reads back from its text.
* `Double.not_isNaN_of_read?`: only the name of a NaN is read as a NaN.
-/

namespace Zygo

open Number

namespace Double

/-! ## Digits -/

section Digits

variable {x n d : Nat} {c : Decimal}

/-- What is found has been tried. -/
theorem search_reads {grids : Nat} {scale : Int} (h : search x n d grids scale = some c) :
    decimalMagnitude c.digits c.scale = x := by
  fun_induction search x n d grids scale with
  | case1 => cases h
  | case2 grids scale c' hc =>
    cases h
    simpa [readsAs] using List.find?_some hc
  | case3 grids scale _ ih => exact ih h

/-- Zeros at the end may go. -/
theorem strip_reads (fuel : Nat) (c : Decimal) :
    decimalMagnitude (c.strip fuel).digits (c.strip fuel).scale = decimalMagnitude c.digits c.scale := by
  fun_induction Decimal.strip fuel c with
  | case1 => rfl
  | case2 fuel c h ih =>
    have hdigits : c.digits = 10 * (c.digits / 10) := by omega
    rw [ih, ← decimalMagnitude_ten_mul, ← hdigits]
  | case3 => rfl

/-- A positive decimal of the size of a double is rounded as its quotient is. -/
theorem decimalMagnitude_eq {digits k : Nat} (hpos : 0 < digits) (hlow : (k : Int) ≤ decimalLength digits + 330)
    (hhigh : (decimalLength digits : Int) ≤ k + 310) :
    decimalMagnitude digits (-k) = nearestMagnitude digits (10 ^ k) := by
  have hzero : ¬(digits = 0 ∨ (decimalLength digits : Int) + -k < -330) := by omega
  have hinf : ¬310 < (decimalLength digits : Int) + -k := by omega
  simp only [decimalMagnitude, hzero, hinf, if_false]
  simp

/-- The exact decimal of `n / 2 ^ k` is not small if `2 ^ k` is not great. -/
theorem lt_decimalLength_add {k j : Nat} (hn : 0 < n) (hk : 2 ^ k ≤ 10 ^ j) : k < decimalLength (n * 5 ^ k) + j := by
  by_contra hge
  have hlen := lt_pow_decimalLength (n * 5 ^ k)
  have hlow : 5 ^ k * 10 ^ j ≤ n * 5 ^ k * 10 ^ j := Nat.mul_le_mul_right _ (Nat.le_mul_of_pos_left _ hn)
  have hhigh : n * 5 ^ k * 10 ^ j < 5 ^ k * 10 ^ j :=
    calc n * 5 ^ k * 10 ^ j < 10 ^ decimalLength (n * 5 ^ k) * 10 ^ j :=
          Nat.mul_lt_mul_of_pos_right hlen (Nat.pow_pos (by decide))
      _ = 10 ^ (decimalLength (n * 5 ^ k) + j) := (pow_add ..).symm
      _ ≤ 10 ^ k := Nat.pow_le_pow_right (by decide) (Nat.not_lt.1 hge)
      _ = 5 ^ k * 2 ^ k := Nat.mul_pow 5 2 k
      _ ≤ 5 ^ k * 10 ^ j := Nat.mul_le_mul_left _ hk
  omega

/-- The exact decimal of `n / 2 ^ k` has no more digits before the point than `n`. -/
theorem decimalLength_le_add {k j : Nat} (hn : 0 < n) (hj : n < 10 ^ j) : decimalLength (n * 5 ^ k) ≤ k + j := by
  by_contra hlong
  have hlen := pow_le_of_lt_decimalLength (Nat.not_le.1 hlong) (Nat.mul_pos hn (Nat.pow_pos (by decide)))
  have hhigh : n * 5 ^ k < 10 ^ (k + j) :=
    calc n * 5 ^ k < 10 ^ j * 5 ^ k := Nat.mul_lt_mul_of_pos_right hj (Nat.pow_pos (by decide))
      _ ≤ 10 ^ j * 10 ^ k := Nat.mul_le_mul_left _ (Nat.pow_le_pow_left (by decide) k)
      _ = 10 ^ (k + j) := by rw [← pow_add, Nat.add_comm]
  omega

/-- Powers of ten beyond the least and the greatest double. -/
theorem two_pow_le_ten_pow {k : Nat} : (k ≤ 1074 → 2 ^ k ≤ 10 ^ 331) ∧ (k ≤ 1024 → 2 ^ k ≤ 10 ^ 310) :=
  ⟨fun h => (Nat.pow_le_pow_right two_pos h).trans (by decide +kernel),
    fun h => (Nat.pow_le_pow_right two_pos h).trans (by decide +kernel)⟩

end Digits

variable {x : Double}

/-- The exact decimal of a finite double reads back. -/
theorem exact_reads (hx : x.Finite) (hpos : 0 < x.magnitude) :
    decimalMagnitude
        (x.parts.1 * Nat.pow 2 x.parts.2.toNat * Nat.pow 10 (-x.parts.2).toNat / Nat.pow 2 (-x.parts.2).toNat)
        (min x.parts.2 0) = x.magnitude := by
  obtain ⟨-, hlt, hq, -⟩ := x.parts_spec
  have hqle := parts_le hx
  have hm := parts_pos hpos
  have hround := nearestMagnitude_parts hx hpos
  rw [show min x.parts.2 0 = -((-x.parts.2).toNat : Int) by omega]
  simp only [Nat.pow_eq] at hround ⊢
  generalize x.parts.1 = m at *
  have hn : 0 < m * 2 ^ x.parts.2.toNat := by positivity
  have hnlt : m * 2 ^ x.parts.2.toNat < 2 ^ (53 + x.parts.2.toNat) :=
    calc m * 2 ^ x.parts.2.toNat < 2 ^ 53 * 2 ^ x.parts.2.toNat := Nat.mul_lt_mul_of_pos_right hlt (Nat.two_pow_pos _)
      _ = 2 ^ (53 + x.parts.2.toNat) := (pow_add ..).symm
  have hn₁ := hnlt.trans_le (two_pow_le_ten_pow.2 (by omega))
  have hk := two_pow_le_ten_pow.1 (show (-x.parts.2).toNat ≤ 1074 by omega)
  generalize m * 2 ^ x.parts.2.toNat = n at *
  generalize (-x.parts.2).toNat = k at *
  have hpow : n * 10 ^ k = n * 5 ^ k * 2 ^ k := by rw [Nat.mul_assoc, ← Nat.mul_pow]
  have hdigits : 0 < n * 5 ^ k := Nat.mul_pos hn (Nat.pow_pos (by decide))
  have hlow := lt_decimalLength_add hn hk
  have hhigh := decimalLength_le_add (k := k) hn hn₁
  rw [hpow, Nat.mul_div_cancel _ (Nat.two_pow_pos k), decimalMagnitude_eq hdigits (by omega) (by omega), ← hround]
  exact nearestMagnitude_congr hdigits (Nat.pow_pos (by decide)) hn (Nat.two_pow_pos k) hpow.symm

/-- **The digits of a finite double are rounded to the double.** -/
theorem shortest_reads (hx : x.Finite) (hpos : 0 < x.magnitude) :
    decimalMagnitude x.shortest.digits x.shortest.scale = x.magnitude := by
  simp only [shortest]
  rw [strip_reads]
  cases hfound : search x.magnitude (x.parts.1 * Nat.pow 2 x.parts.2.toNat) (Nat.pow 2 (-x.parts.2).toNat) 17
      (floorLog10 (x.parts.1 * Nat.pow 2 x.parts.2.toNat) (Nat.pow 2 (-x.parts.2).toNat)) with
  | some c => exact search_reads hfound
  | none => exact exact_reads hx hpos

/-! ## Signs -/

theorem toNat_ofMagnitude {m : Nat} (hm : m ≤ infinityBits) (negative : Bool) :
    (ofMagnitude negative m).bits.toNat = m + if negative then Nat.pow 2 63 else 0 := by
  simp only [infinityBits, Nat.pow_eq] at hm
  rw [ofMagnitude, UInt64.toNat_ofNat']
  refine Nat.mod_eq_of_lt ?_
  simp only [Nat.pow_eq]
  split <;> omega

theorem magnitude_ofMagnitude {m : Nat} (hm : m ≤ infinityBits) (negative : Bool) :
    (ofMagnitude negative m).magnitude = m := by
  rw [magnitude, toNat_ofMagnitude hm]
  simp only [infinityBits, Nat.pow_eq] at hm ⊢
  split <;> omega

/-- A number is its sign and its magnitude. -/
theorem ofMagnitude_magnitude (x : Double) : ofMagnitude x.isNegative x.magnitude = x := by
  have hlt : x.bits.toNat < 2 ^ 64 := x.bits.toNat_lt
  have hbits : x.magnitude + (if x.isNegative then Nat.pow 2 63 else 0) = x.bits.toNat := by
    simp only [magnitude, isNegative, decide_eq_true_eq, Nat.pow_eq]
    split <;> omega
  rw [ofMagnitude, hbits, UInt64.ofNat_toNat]

/-! ## Reading -/

/-- A text without the letter that the names of infinity and NaN share is none of them. -/
theorem unsignedOrName?_eq {s : List Char} (h : ∀ c ∈ s, c.toLower ≠ 'n') (negative : Bool) :
    unsignedOrName? negative s = unsigned? negative s := by
  have hname : ∀ name : List Char, 'n' ∈ name → s.map Char.toLower ≠ name := by
    rintro name hn rfl
    obtain ⟨c, hc, hlower⟩ := List.mem_map.1 hn
    exact h c hc hlower
  rw [unsignedOrName?, if_neg (not_or.2 ⟨hname _ (by decide), hname _ (by decide)⟩), if_neg (hname _ (by decide))]

/-- The characters of numbers are not those of names. -/
theorem toLower_ne {c : Char} (hc : c.isDigit ∨ c ∈ ['.', 'e', 'E', '+', '-']) : c.toLower ≠ 'n' := by
  rcases hc with hc | hc
  · have hval : c.val ≤ 57 := by simpa using (Bool.and_eq_true_iff.1 hc).2
    have hupper : ¬(c.val ≥ 'A'.val ∧ c.val ≤ 'Z'.val) := fun h => absurd (UInt32.le_trans h.1 hval) (by decide)
    have hlower : c.toLower = c := dif_neg hupper
    rw [hlower]
    rintro rfl
    cases hc
  · simp only [List.mem_cons, List.not_mem_nil, or_false] at hc
    rcases hc with rfl | rfl | rfl | rfl | rfl <;> decide

theorem not_isNaN_of_unsigned? {s : List Char} {negative : Bool} (h : unsigned? negative s = some x) :
    x.isNaN = false := by
  simp only [unsigned?] at h
  split at h
  · cases h
    rw [isNaN, ofDecimal, magnitude_ofMagnitude (decimalMagnitude_le _ _)]
    simpa using decimalMagnitude_le _ _
  · cases h

/-- **Only the name of a NaN is read as a NaN.** -/
theorem not_isNaN_of_read? {text : String} (hname : ∀ c ∈ text.toList, c.toLower ≠ 'n') (h : read? text = some x) :
    x.isNaN = false := by
  unfold read? at h
  split at h
  · rename_i s hs
    rw [unsignedOrName?_eq fun c hc => hname c (hs ▸ List.mem_cons_of_mem _ hc)] at h
    exact not_isNaN_of_unsigned? h
  · rename_i s hs
    rw [unsignedOrName?_eq fun c hc => hname c (hs ▸ List.mem_cons_of_mem _ hc)] at h
    exact not_isNaN_of_unsigned? h
  · rw [unsignedOrName?_eq hname] at h
    exact not_isNaN_of_unsigned? h

/-- A finite double is written as a numeral that is rounded to it. -/
theorem render_numeral (hx : x.Finite) : ∃ t : Numeral,
    x.render = String.ofList (if x.isNegative then '-' :: t.text else t.text) ∧
      decimalMagnitude t.number t.scale = x.magnitude := by
  have hnan : x.isNaN = false := by simpa [isNaN] using Nat.le_of_lt hx
  have hinf : x.isInfinite = false := by simpa [isInfinite] using Nat.ne_of_lt hx
  rcases Nat.eq_zero_or_pos x.magnitude with hzero | hpos
  · refine ⟨⟨['0'], some ['0'], none, by simp, fun c hc => isDigit_zeros (k := 2) hc, .inl rfl⟩, ?_, ?_⟩
    · simp [render, hnan, hinf, isZero, hzero, Numeral.text, Numeral.pointText, Numeral.exponentText]
    · rw [hzero]
      rfl
  · have hnonzero : x.isZero = false := by simpa [isZero] using hpos.ne'
    obtain ⟨t, htext, hread⟩ := Decimal.layOut_isText x.shortest layout
    refine ⟨t, ?_, hread.trans (shortest_reads hx hpos)⟩
    simp [render, hnan, hinf, hnonzero, htext]

/-- **A finite double reads back from its text.** -/
theorem read?_render (hx : x.Finite) : read? x.render = some x := by
  obtain ⟨t, htext, hread⟩ := render_numeral hx
  have hunsigned : ∀ negative, unsignedOrName? negative t.text = some (ofMagnitude negative x.magnitude) := by
    intro negative
    have hname : ∀ c ∈ t.text, c.toLower ≠ 'n' := fun c hc =>
      toLower_ne ((Numeral.mem_text hc).imp_right (by simp; tauto))
    rw [unsignedOrName?_eq hname, Numeral.unsigned?_text, ofDecimal, hread]
  have hx := x.ofMagnitude_magnitude
  rw [htext, read?, String.toList_ofList]
  cases hneg : x.isNegative with
  | true =>
    rw [hneg] at hx
    exact (hunsigned true).trans (congrArg some hx)
  | false =>
    rw [hneg] at hx
    obtain ⟨c, s, hs, hc⟩ := t.exists_text
    have hread := (hunsigned false).trans (congrArg some hx)
    -- The text starts with a digit, so neither sign is read.
    rw [hs] at hread
    simp only [hs, Bool.false_eq_true, if_false]
    split
    · rename_i heq
      obtain ⟨rfl, -⟩ := List.cons.inj heq
      cases hc
    · rename_i heq
      obtain ⟨rfl, -⟩ := List.cons.inj heq
      cases hc
    · exact hread

end Double

end Zygo
