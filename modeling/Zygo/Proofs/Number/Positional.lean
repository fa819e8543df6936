import Mathlib.Data.Nat.Digits.Defs
import Zygo.Proofs.Number.Decimal

/-!
# Integers in positional notation

`Writes` says which integer a text writes in a radix: its digits count by their places, from the last digit on. The
reading goes from the first digit on and stops at nothing but the range of 64 bits.

* `Writes.integer?`: the integer of a text is read, whatever its size.
* `Writes.readInt64?`: a 64-bit integer is read back exactly if it is one.
-/

namespace Zygo.Number

/-- The digits of all radixes in their order. -/
def digitTable : List Char :=
  "0123456789abcdef".toList

/-- The value of a digit: its place in the table, where letters of either case count. -/
def digit (c : Char) : Nat :=
  digitTable.idxOf c.toLower

/-- The number that digits write. -/
def numberOf (radix : Nat) (s : List Char) : Nat :=
  Nat.ofDigits radix (s.reverse.map digit)

/-- At least one digit of the radix, and nothing else. -/
def IsDigits (radix : Nat) (s : List Char) : Prop :=
  s ≠ [] ∧ ∀ c ∈ s, digit c < radix

instance (radix : Nat) (s : List Char) : Decidable (IsDigits radix s) :=
  decidable_of_iff (s ≠ [] ∧ s.all fun c => digit c < radix) (by simp [IsDigits])

/-- The integer that a text writes. Decimal texts alone may have a minus sign. -/
inductive Writes (radix : Nat) : List Char → Int → Prop
  | digits {s : List Char} : IsDigits radix s → Writes radix s (numberOf radix s)
  | minus {s : List Char} : radix = 10 → IsDigits radix s → Writes radix ('-' :: s) (-numberOf radix s)

variable {radix : Nat} {c : Char} {s : List Char} {n : Int}

/-! ## Digits -/

theorem toNat_le_toLower (c : Char) : c.toNat ≤ c.toLower.toNat := by
  unfold Char.toLower
  split
  · rename_i h
    have hc : c.toNat ≤ 'Z'.toNat := h.2
    have hshift : ('a'.val - 'A'.val).toNat = 32 := rfl
    change c.val.toNat ≤ 90 at hc
    simp only [Char.toNat, UInt32.toNat_add, hshift]
    omega
  · exact Nat.le_refl _

/-- The digits of a radix up to sixteen are read by their places in the table. -/
theorem digitIn?_eq (hr : radix ≤ 16) (hc : digit c < radix) : digitIn? radix c = some (digit c) := by
  have htable : ∀ k < 128, digit (Char.ofNat k) < 16 →
      digitValue? (Char.ofNat k) = some (digit (Char.ofNat k)) := by
    decide +kernel
  have hmem : c.toLower ∈ digitTable := List.idxOf_lt_length_iff.1 (Nat.lt_of_lt_of_le hc hr)
  have hlower : digitTable.all fun d => decide (d.toNat < 128) := by decide
  have hsmall : c.toLower.toNat < 128 := of_decide_eq_true (List.all_eq_true.1 hlower _ hmem)
  have hvalue := htable c.toNat (Nat.lt_of_le_of_lt (toNat_le_toLower c) hsmall)
  rw [Char.ofNat_toNat] at hvalue
  simp [digitIn?, hvalue (Nat.lt_of_lt_of_le hc hr), hc]

theorem numberOf_cons (radix : Nat) (c : Char) (s : List Char) :
    numberOf radix (c :: s) = digit c * radix ^ s.length + numberOf radix s := by
  simp only [numberOf, List.reverse_cons, List.map_append, List.map_cons, List.map_nil, Nat.ofDigits_append,
    List.length_map, List.length_reverse, Nat.ofDigits_singleton]
  rw [Nat.mul_comm, Nat.add_comm]

/-- Reading digits from the first on: those that have been read count for the places of the rest. -/
theorem digitsFrom?_eq (hr : radix ≤ 16) (hs : ∀ c ∈ s, digit c < radix) (acc : Nat) :
    digitsFrom? radix acc s = some (acc * radix ^ s.length + numberOf radix s) := by
  induction s generalizing acc with
  | nil => simp [digitsFrom?, numberOf]
  | cons c s ih =>
    have hc := digitIn?_eq hr (hs c List.mem_cons_self)
    rw [digitsFrom?, hc, Option.bind_some, ih (fun d hd => hs d (List.mem_cons_of_mem _ hd)), numberOf_cons,
      List.length_cons, Nat.pow_succ]
    congr 1
    ring

theorem natural?_eq (hr : radix ≤ 16) (hs : IsDigits radix s) : natural? radix s = some (numberOf radix s) := by
  have hempty : ¬s.isEmpty := by simp [hs.1]
  rw [natural?, if_neg hempty, digitsFrom?_eq hr hs.2, Nat.zero_mul, Nat.zero_add]

/-! ## Integers -/

/-- **The integer that a text writes is read**, whatever its size. -/
theorem Writes.integer? (hr : radix ≤ 16) (h : Writes radix s n) : integer? radix s = some n := by
  cases h with
  | minus _ hs =>
    rw [Number.integer?, natural?_eq hr hs]
    rfl
  | digits hs =>
    have hsign : ∀ d ∈ ['-', '+'], ∀ u, s ≠ d :: u := by
      rintro d hd u rfl
      have hdigit : digit d < 16 := Nat.lt_of_lt_of_le (hs.2 d List.mem_cons_self) hr
      simp only [List.mem_cons, List.not_mem_nil, or_false] at hd
      rcases hd with rfl | rfl <;> exact absurd hdigit (by decide)
    unfold Number.integer?
    split
    · exact absurd rfl (hsign '-' (by decide) _)
    · exact absurd rfl (hsign '+' (by decide) _)
    · rw [natural?_eq hr hs]
      rfl

/-- A text writes one integer at most. -/
theorem Writes.unique {m : Int} (hr : radix ≤ 16) (hn : Writes radix s n) (hm : Writes radix s m) : n = m :=
  Option.some.inj ((hn.integer? hr).symm.trans (hm.integer? hr))

/-- **A 64-bit integer is read from its text, and nothing from the text of any other integer.** -/
theorem Writes.readInt64? {text : String} (hr : radix ≤ 16) (h : Writes radix text.toList n) :
    (-2 ^ 63 ≤ n ∧ n ≤ 2 ^ 63 - 1 → ∃ i : Int64, i.toInt = n ∧ readInt64? radix text = some i) ∧
      (¬(-2 ^ 63 ≤ n ∧ n ≤ 2 ^ 63 - 1) → readInt64? radix text = none) := by
  have hmin : Int64.minValue.toInt = -2 ^ 63 := rfl
  have hmax : Int64.maxValue.toInt = 2 ^ 63 - 1 := rfl
  rw [Number.readInt64?, h.integer? hr, Option.bind_some, int64?, hmin, hmax]
  constructor
  · intro hrange
    refine ⟨Int64.ofInt n, ?_, if_pos hrange⟩
    exact Int64.toInt_ofInt_of_le hrange.1 (by omega)
  · exact fun hrange => if_neg hrange

end Zygo.Number
