import Zygo.Number.Radix

/-!
# Decimal texts of integers

The decimal text of a 64-bit integer is read back as the integer. Digits are followed from the left, as the reading
follows them: after some digits, `digitsFrom?` holds the number that they are.
-/

namespace Zygo.Number

variable {c : Char} {s : List Char}

theorem digitIn?_isDigit (h : c.isDigit) : digitIn? 10 c = some (c.toNat - '0'.toNat) := by
  have hc : '0' ≤ c ∧ c ≤ '9' := by
    simpa [Char.isDigit, Char.le_def] using h
  have hval : digitValue? c = some (c.toNat - '0'.toNat) := by rw [digitValue?, if_pos hc]
  have hlt : c.toNat - '0'.toNat < 10 := by
    have h9 : c.toNat ≤ '9'.toNat := hc.2
    simp only [Char.reduceToNat] at h9 ⊢
    omega
  simp only [digitIn?, hval, Option.filter, hlt, decide_true, if_true]

/-- Reading digits is evaluating them. -/
theorem digitsFrom?_digits (h : ∀ c ∈ s, c.isDigit) (acc : Nat) :
    digitsFrom? 10 acc s = some (Nat.ofDigitChars 10 s acc) := by
  induction s generalizing acc with
  | nil => rfl
  | cons c s ih =>
    rw [digitsFrom?, digitIn?_isDigit (h c List.mem_cons_self), Option.bind_some,
      ih (fun d hd => h d (List.mem_cons_of_mem _ hd)), Nat.ofDigitChars_cons]

theorem isDigit_toDigits (n : Nat) : ∀ c ∈ Nat.toDigits 10 n, c.isDigit := fun _ hc =>
  Nat.isDigit_of_mem_toDigits (by decide) (by decide) hc

theorem natural?_digits (hne : s ≠ []) (h : ∀ c ∈ s, c.isDigit) : natural? 10 s = some (Nat.ofDigitChars 10 s 0) := by
  have hempty : ¬s.isEmpty := by simp [hne]
  rw [natural?, if_neg hempty, digitsFrom?_digits h]

theorem natural?_toDigits (n : Nat) : natural? 10 (Nat.toDigits 10 n) = some n := by
  rw [natural?_digits Nat.toDigits_ne_nil (isDigit_toDigits n), Nat.ofDigitChars_ten_toDigits]

/-- The characters of the decimal text of an integer. -/
theorem toList_toString (i : Int) :
    (toString i).toList = if 0 ≤ i then Nat.toDigits 10 i.natAbs else '-' :: Nat.toDigits 10 i.natAbs := by
  rw [Int.toString_eq_repr, Int.repr_eq_if]
  split
  · rw [Nat.toList_repr, show i.toNat = i.natAbs by omega]
  · rw [String.toList_append, Nat.toList_repr, show (-i).toNat = i.natAbs by omega]
    rfl

/-- A text that starts with a digit has no sign. -/
theorem integer?_digit (hc : c.isDigit) (s : List Char) :
    integer? 10 (c :: s) = (natural? 10 (c :: s)).map fun n => (n : Int) := by
  unfold integer?
  split
  · rename_i heq
    obtain ⟨rfl, -⟩ := List.cons.inj heq
    cases hc
  · rename_i heq
    obtain ⟨rfl, -⟩ := List.cons.inj heq
    cases hc
  · rfl

theorem integer?_toString (i : Int) : integer? 10 (toString i).toList = some i := by
  have hdigits := isDigit_toDigits i.natAbs
  have hread := natural?_toDigits i.natAbs
  rw [toList_toString]
  split
  · obtain ⟨c, s, hs⟩ := List.exists_cons_of_ne_nil (Nat.toDigits_ne_nil (n := i.natAbs) (b := 10))
    rw [hs] at hdigits hread ⊢
    rw [integer?_digit (hdigits c List.mem_cons_self), hread]
    exact congrArg some (show (i.natAbs : Int) = i by omega)
  · rw [integer?, hread]
    exact congrArg some (show -(i.natAbs : Int) = i by omega)

theorem int64?_toInt (n : Int64) : int64? n.toInt = some n := by
  have hrange : Int64.minValue.toInt ≤ n.toInt ∧ n.toInt ≤ Int64.maxValue.toInt := ⟨n.minValue_le_toInt, n.toInt_le⟩
  rw [int64?, if_pos hrange, Int64.ofInt_toInt]

/-- **The decimal text of a 64-bit integer reads back.** -/
theorem readInt64?_toString (n : Int64) : readInt64? 10 (toString n.toInt) = some n := by
  rw [readInt64?, integer?_toString, Option.bind_some, int64?_toInt]

end Zygo.Number
