import Zygo.Number.Shortest
import Zygo.Proofs.Number.Decimal
import Zygo.Proofs.Number.Nearest

/-!
# Numerals

A numeral is an unsigned number as it is written: digits, more digits behind a point, and an exponent. Reading takes it
apart at the point and at the letter of the exponent, where no digits stand. A layout of a decimal is a numeral, and of
the zeros that a layout may add, those in front change no number and those at the end count as exponent.

* `Numeral.unsigned?_text`: a numeral is read as the decimal of its digits and its exponent.
* `Double.Decimal.layOut_isText`: a layout is a numeral that is read as the decimal is.
-/

namespace Zygo

open Number

/-- An unsigned number as it is written. The fraction and the exponent may be missing, but not both. -/
structure Numeral where
  whole : List Char
  fraction? : Option (List Char)
  exponent? : Option Int
  nonempty : whole ≠ []
  digits : ∀ c ∈ whole ++ fraction?.getD [], c.isDigit
  marked : fraction?.isSome ∨ exponent?.isSome

namespace Numeral

variable (t : Numeral)

/-- The digits behind the point. -/
def fraction : List Char :=
  t.fraction?.getD []

/-- The point with the digits behind it. -/
def pointText : List Char :=
  match t.fraction? with
  | some fraction => '.' :: fraction
  | none => []

/-- The exponent with its letter. -/
def exponentText : List Char :=
  match t.exponent? with
  | some e => 'e' :: (toString e).toList
  | none => []

/-- The characters of a numeral. -/
def text : List Char :=
  t.whole ++ (t.pointText ++ t.exponentText)

/-- The number of all the digits. -/
def number : Nat :=
  Nat.ofDigitChars 10 (t.whole ++ t.fraction) 0

/-- The power of ten that goes with the number. -/
def scale : Int :=
  t.exponent?.getD 0 - t.fraction.length

variable {t}

theorem isDigit_whole {c : Char} (hc : c ∈ t.whole) : c.isDigit :=
  t.digits c (List.mem_append_left _ hc)

theorem isDigit_fraction {c : Char} (hc : c ∈ t.fraction) : c.isDigit :=
  t.digits c (List.mem_append_right _ hc)

theorem exists_text (t : Numeral) : ∃ c s, t.text = c :: s ∧ c.isDigit := by
  obtain ⟨c, s, hs⟩ := List.exists_cons_of_ne_nil t.nonempty
  exact ⟨c, s ++ (t.pointText ++ t.exponentText), by rw [text, hs, List.cons_append],
    isDigit_whole (hs ▸ List.mem_cons_self)⟩

theorem mem_mantissa {c : Char} (hc : c ∈ t.whole ++ t.pointText) : c.isDigit ∨ c = '.' := by
  rcases List.mem_append.1 hc with hc | hc
  · exact .inl (isDigit_whole hc)
  · unfold pointText at hc
    split at hc
    · rename_i f hf
      rcases List.mem_cons.1 hc with rfl | hc
      · exact .inr rfl
      · exact .inl (isDigit_fraction (by rwa [fraction, hf]))
    · cases hc

theorem mem_exponentText {c : Char} (hc : c ∈ t.exponentText) : c.isDigit ∨ c ∈ ['e', '-'] := by
  unfold exponentText at hc
  split at hc
  · rename_i e _
    rw [toList_toString, List.mem_cons] at hc
    rcases hc with rfl | hc
    · exact .inr (by decide)
    · split at hc
      · exact .inl (isDigit_toDigits _ c hc)
      · rcases List.mem_cons.1 hc with rfl | hc
        · exact .inr (by decide)
        · exact .inl (isDigit_toDigits _ c hc)
  · cases hc

/-- The characters of a numeral. -/
theorem mem_text {c : Char} (hc : c ∈ t.text) : c.isDigit ∨ c ∈ ['.', 'e', '-'] := by
  rw [text, ← List.append_assoc] at hc
  rcases List.mem_append.1 hc with hc | hc
  · exact (mem_mantissa hc).imp_right fun hc => List.mem_cons.2 (.inl hc)
  · exact (mem_exponentText hc).imp_right (List.mem_cons_of_mem _)

/-- Where digits end, if what follows does not go on with one. -/
theorem span_digits {s rest : List Char} (hs : ∀ c ∈ s, c.isDigit) (hrest : ∀ c ∈ rest.head?, c.isDigit = false) :
    (s ++ rest).takeWhile Char.isDigit = s ∧ (s ++ rest).dropWhile Char.isDigit = rest := by
  rw [List.takeWhile_append_of_pos hs, List.dropWhile_append_of_pos hs]
  cases rest with
  | nil => simp
  | cons c rest =>
    have hc : ¬c.isDigit = true := by simp [hrest c rfl]
    rw [List.takeWhile_cons_of_neg hc, List.dropWhile_cons_of_neg hc, List.append_nil]
    exact ⟨rfl, rfl⟩

theorem exponent?_exponentText (t : Numeral) : Double.exponent? t.exponentText = some (t.exponent?.getD 0) := by
  unfold exponentText
  cases t.exponent? with
  | none => rfl
  | some e =>
    simp only [Double.exponent?, true_or, if_true, integer?_toString]
    rfl

/-- No digit is where the exponent may start. -/
theorem exponentText_head {c : Char} (hc : c ∈ t.exponentText.head?) : c.isDigit = false ∧ c ≠ '.' := by
  unfold exponentText at hc
  split at hc
  · obtain rfl : 'e' = c := by simpa using hc
    decide
  · cases hc

/-- **A numeral is read as the decimal of its digits and its exponent.** -/
theorem unsigned?_text (t : Numeral) (negative : Bool) :
    Double.unsigned? negative t.text = some (Double.ofDecimal negative t.number t.scale) := by
  have hnumber : natural? 10 (t.whole ++ t.fraction) = some t.number :=
    natural?_digits (by simp [t.nonempty]) t.digits
  have hexponent : ∀ c ∈ t.exponentText.head?, c.isDigit = false := fun c hc => (exponentText_head hc).1
  cases hf : t.fraction? with
  | some f =>
    have hfraction : t.fraction = f := by rw [fraction, hf, Option.getD_some]
    have htext : t.text = t.whole ++ '.' :: (f ++ t.exponentText) := by rw [text, pointText, hf]; rfl
    have hpoint : ∀ c ∈ ('.' :: (f ++ t.exponentText)).head?, c.isDigit = false := by simp
    have hwhole := span_digits (fun c => isDigit_whole (t := t)) hpoint
    have hrest := span_digits (fun c hc => isDigit_fraction (t := t) (hfraction ▸ hc)) hexponent
    rw [hfraction] at hnumber
    simp only [Double.unsigned?, htext, hwhole, hrest, hnumber, exponent?_exponentText, scale, hfraction]
  | none =>
    have hfraction : t.fraction = [] := by rw [fraction, hf, Option.getD_none]
    have htext : t.text = t.whole ++ t.exponentText := by rw [text, pointText, hf, List.nil_append]
    have hwhole := span_digits (fun c => isDigit_whole (t := t)) hexponent
    rw [hfraction, List.append_nil] at hnumber
    -- The exponent does not start with a point, so there is no fraction to look for.
    have hsplit := fun c => exponentText_head (t := t) (c := c)
    have hread := exponent?_exponentText t
    generalize t.exponentText = rest at *
    rcases rest with _ | ⟨c, rest⟩
    · rw [List.append_nil] at htext hwhole
      simp only [Double.unsigned?, htext, hwhole, List.append_nil, hnumber, hread, scale, hfraction]
    · have hc : c ≠ '.' := (hsplit c rfl).2
      simp [Double.unsigned?, htext, hwhole, hnumber, hread, scale, hfraction, hc]

/-! ## Layouts -/

/-- The zeros in front of digits do not count. -/
theorem ofDigitChars_zeros (k : Nat) (s : List Char) :
    Nat.ofDigitChars 10 (List.replicate k '0' ++ s) 0 = Nat.ofDigitChars 10 s 0 := by
  rw [Nat.ofDigitChars_append, Nat.ofDigitChars_replicate_zero, Nat.mul_zero]

end Numeral

namespace Double

/-- A numeral that is read as the decimal is. -/
def Decimal.IsText (c : Decimal) (text : List Char) : Prop :=
  ∃ t : Numeral, t.text = text ∧ decimalMagnitude t.number t.scale = decimalMagnitude c.digits c.scale

section Positional

variable {c : Decimal} {whole fraction : List Char}

/-- A text with a point and no exponent. -/
theorem Decimal.isText_pointed (hw : whole ≠ []) (hdigits : ∀ d ∈ whole ++ fraction, d.isDigit)
    (hread : decimalMagnitude (Nat.ofDigitChars 10 (whole ++ fraction) 0) (-fraction.length) =
      decimalMagnitude c.digits c.scale) : c.IsText (whole ++ ['.'] ++ fraction) := by
  refine ⟨⟨whole, some fraction, none, hw, hdigits, .inl rfl⟩, ?_, ?_⟩
  · simp [Numeral.text, Numeral.pointText, Numeral.exponentText]
  · simpa only [Numeral.number, Numeral.scale, Numeral.fraction, Option.getD_some, Option.getD_none, Int.zero_sub]

theorem isDigit_zeros {k : Nat} {d : Char} (hd : d ∈ List.replicate k '0') : d.isDigit := by
  rw [List.eq_of_mem_replicate hd]
  rfl

/-- Below one, zeros stand in front of the digits. -/
theorem positional_below {e : Int} (he : e < 0) (hscale : e = decimalLength c.digits + c.scale - 1) :
    c.IsText (positional (Nat.toDigits 10 c.digits) e) := by
  have hzeros : ['0'] ++ (List.replicate (-e - 1).toNat '0' ++ Nat.toDigits 10 c.digits) =
      List.replicate ((-e - 1).toNat + 1) '0' ++ Nat.toDigits 10 c.digits := rfl
  have htext : positional (Nat.toDigits 10 c.digits) e =
      ['0'] ++ ['.'] ++ (List.replicate (-e - 1).toNat '0' ++ Nat.toDigits 10 c.digits) := by
    simp [positional, he]
  rw [htext]
  refine Decimal.isText_pointed (by simp) (fun d hd => ?_) ?_
  · rw [hzeros, List.mem_append] at hd
    exact hd.elim isDigit_zeros (isDigit_toDigits _ d)
  · rw [hzeros, Numeral.ofDigitChars_zeros, Nat.ofDigitChars_ten_toDigits, List.length_append, List.length_replicate]
    congr 1
    change -(((-e - 1).toNat + decimalLength c.digits : Nat) : Int) = c.scale
    omega

/-- From one on, the point stands among the digits or behind them and zeros that fill up the places. -/
theorem positional_above {e : Int} (he : 0 ≤ e) (hscale : e = decimalLength c.digits + c.scale - 1) :
    c.IsText (positional (Nat.toDigits 10 c.digits) e) := by
  have hlength : (Nat.toDigits 10 c.digits).length = decimalLength c.digits := rfl
  have hdigits := isDigit_toDigits c.digits
  have hnumber : Nat.ofDigitChars 10 (Nat.toDigits 10 c.digits) 0 = c.digits := Nat.ofDigitChars_ten_toDigits
  simp only [positional, not_lt.2 he, if_false]
  generalize hs : Nat.toDigits 10 c.digits = s at *
  rcases Nat.lt_or_ge (e + 1).toNat s.length with hlt | hge
  · have hfill : (e + 1).toNat - s.length = 0 := by omega
    have hdrop : s.drop (e + 1).toNat ≠ [] := by simpa using hlt
    rw [if_neg (by simpa using hdrop), hfill, List.replicate_zero, List.append_nil]
    refine Decimal.isText_pointed ?_ ?_ ?_
    · simp only [ne_eq, List.take_eq_nil_iff, not_or]
      exact ⟨by omega, List.ne_nil_of_length_pos (by omega)⟩
    · rwa [List.take_append_drop]
    · rw [List.take_append_drop, hnumber, List.length_drop]
      congr 1
      omega
  · have hzeros : s ++ List.replicate ((e + 1).toNat - s.length) '0' ++ ['0'] =
        s ++ List.replicate ((e + 1).toNat - s.length + 1) '0' := by
      rw [List.append_assoc, ← List.replicate_succ']
    rw [List.take_of_length_le hge, List.drop_eq_nil_of_le hge]
    refine Decimal.isText_pointed ?_ (fun d hd => ?_) ?_
    · have hne := List.ne_nil_of_length_pos (l := s) (by rw [hlength]; exact decimalLength_pos _)
      simp [hne]
    · rw [List.isEmpty_nil, if_pos rfl, hzeros, List.mem_append] at hd
      exact hd.elim (hdigits d) isDigit_zeros
    · rw [List.isEmpty_nil, if_pos rfl, hzeros, Nat.ofDigitChars_append, hnumber, Nat.ofDigitChars_replicate_zero,
        Nat.mul_comm, decimalMagnitude_mul_pow, List.length_singleton]
      congr 1
      omega

end Positional

/-- With an exponent, the point stands behind the first digit if more digits follow. -/
theorem scientific_isText {c : Decimal} {e : Int} (hscale : e = decimalLength c.digits + c.scale - 1) :
    c.IsText (scientific (Nat.toDigits 10 c.digits) e) := by
  have hlength : (Nat.toDigits 10 c.digits).length = decimalLength c.digits := rfl
  have hdigits := isDigit_toDigits c.digits
  have hnumber : Nat.ofDigitChars 10 (Nat.toDigits 10 c.digits) 0 = c.digits := Nat.ofDigitChars_ten_toDigits
  generalize Nat.toDigits 10 c.digits = s at *
  rcases s with _ | ⟨first, _ | ⟨second, rest⟩⟩
  · exact absurd (decimalLength_pos c.digits) (by simp [← hlength])
  · refine ⟨⟨[first], none, some e, by simp, by simpa using hdigits, .inr rfl⟩, rfl, ?_⟩
    simp only [Numeral.number, Numeral.scale, Numeral.fraction, Option.getD_none, Option.getD_some, List.append_nil,
      hnumber]
    congr 1
    simp only [List.length_singleton] at hlength
    simp only [List.length_nil]
    omega
  · refine ⟨⟨[first], some (second :: rest), some e, by simp, hdigits, .inl rfl⟩, ?_, ?_⟩
    · simp [scientific, Numeral.text, Numeral.pointText, Numeral.exponentText]
    · simp only [Numeral.number, Numeral.scale, Numeral.fraction, Option.getD_some, List.singleton_append, hnumber]
      congr 1
      simp only [List.length_cons] at hlength ⊢
      omega

/-- **A layout is a numeral that is read as the decimal is.** -/
theorem Decimal.layOut_isText (c : Decimal) (l : Layout) : c.IsText (c.layOut l) := by
  unfold layOut
  dsimp only
  generalize he : ((Nat.toDigits 10 c.digits).length : Int) + c.scale - 1 = e
  split
  · rcases lt_or_ge e 0 with hneg | hpos
    · exact positional_below hneg he.symm
    · exact positional_above hpos he.symm
  · exact scientific_isText he.symm

end Double

end Zygo
