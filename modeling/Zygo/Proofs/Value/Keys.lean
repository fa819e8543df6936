import Zygo.Proofs.Value.Equality
import Zygo.Value.Key

/-!
# Equal keys

A key holds no cells, so equality with it is likeness of content (`equal_iff_alike`): floats included, it is symmetric
and transitive, and a NaN is the one key that does not equal itself. Equal keys have one hash, except for the two zeros,
which are equal and differ in their bits (`hash?_eq_iff`). A record looks for a key in the bucket of its hash only: it
takes two values for one key where they are equal and have one hash (`sameKey`).
-/

namespace Zygo

namespace Double

variable {x y : Double}

theorem bits_of_isZero (h : x.isZero = true) : x.bits = 0 ∨ x.bits = 0x8000000000000000 := by
  have hlt := x.bits.toNat_lt
  rw [isZero, magnitude, beq_iff_eq, Nat.pow_eq] at h
  have hfirst : (0 : UInt64).toNat = 0 := rfl
  have hlast : (0x8000000000000000 : UInt64).toNat = 2 ^ 63 := rfl
  rw [← UInt64.toNat_inj, ← UInt64.toNat_inj, hfirst, hlast]
  omega

/-- Equal numbers have the same bits, unless they are the two zeros. -/
theorem eq_of_equal (h : x.equal y = true) : x = y ∨ x.isZero = true ∧ y.isZero = true := by
  simp only [equal, Bool.and_eq_true, Bool.or_eq_true, beq_iff_eq] at h
  exact h.2

end Double

namespace Value

variable {k l m : Value}

/-! ## Equality with keys -/

/-- Whether a value is a NaN. -/
def isNaN : Value → Bool
  | float x => x.isNaN
  | _ => false

/-- Whether two values are the two zeros, in either order. -/
def oppositeZeros : Value → Value → Bool
  | float x, float y => x.isZero && y.isZero && x != y
  | _, _ => false

/-- Whether a record takes two values for one key. -/
def sameKey (k l : Value) : Bool :=
  k.equal l && k.hash? == l.hash?

theorem not_holds_pair (hk : k.isKey = true) (cell : Nat) (head tail : Value) : ¬k.Holds (pair cell head tail) := by
  intro h
  cases h <;> cases hk

/-- **Equality with a key is likeness of content**: there are no cells to share. -/
theorem equal_iff_alike (hk : k.isKey = true) (l : Value) : k.equal l = true ↔ Alike k l := by
  have hshare : ShareNoNaN k l := fun cell head tail h _ => absurd h (not_holds_pair hk cell head tail)
  rw [equal_eq_of_shareNoNaN hshare, equalThroughout_iff_alike]

theorem equal_comm (hk : k.isKey = true) (l : Value) : k.equal l = l.equal k := by
  have hshare : ShareNoNaN l k := fun cell head tail _ h => absurd h (not_holds_pair hk cell head tail)
  rw [Bool.eq_iff_iff, equal_iff_alike hk, equal_eq_of_shareNoNaN hshare, equalThroughout_iff_alike]
  exact ⟨Alike.symm, Alike.symm⟩

/-- What equals a key is a key. -/
theorem isKey_of_equal (hk : k.isKey = true) (h : k.equal l = true) : l.isKey = true := by
  cases (equal_iff_alike hk l).1 h <;> first | rfl | cases hk

/-- Equal keys equal the same values. -/
theorem equal_congr (hk : k.isKey = true) (h : k.equal l = true) (m : Value) : k.equal m = l.equal m := by
  have hl := isKey_of_equal hk h
  have hkl := (equal_iff_alike hk l).1 h
  rw [Bool.eq_iff_iff, equal_iff_alike hk, equal_iff_alike hl]
  exact ⟨hkl.symm.trans, hkl.trans⟩

/-- Only a NaN does not equal itself. -/
theorem equal_self (hk : k.isKey = true) (h : k.isNaN = false) : k.equal k = true := by
  refine (equal_iff_alike hk k).2 (alike_self fun x hx => ?_)
  cases hx with
  | self => exact h
  | head | tail | item => cases hk

/-- A NaN equals nothing. -/
theorem not_equal_of_isNaN (h : k.isNaN = true) (l : Value) : k.equal l = false := by
  cases k with
  | float x =>
    have hx : x.isNaN = true := h
    cases l <;> simp [equal, Double.equal, hx]
  | _ => cases h

/-- Equal values are of one variant. -/
theorem variant_of_equal (h : k.equal l = true) : k.variant = l.variant := by
  cases k <;> cases l <;> first | rfl | simp [equal] at h

/-! ## Hashes of equal keys -/

/-- A key, and not a float. -/
def IsExact (k : Value) : Prop :=
  k.isKey = true ∧ k.variant ≠ .float

theorem IsExact.isNaN (h : k.IsExact) : k.isNaN = false := by
  cases k with
  | float => exact absurd rfl h.2
  | _ => rfl

/-- A value without what equality does not look at: the spelling of a text, and all of a symbol but its number. -/
def plain : Value → Value
  | text s _ => text s false
  | symbol s => symbol ⟨s.id, "", false⟩
  | v => v

theorem hash?_plain (k : Value) : k.plain.hash? = k.hash? := by
  cases k <;> rfl

/-- Equality with a key, unless that is a float, is equality of what it looks at. -/
theorem equal_iff_plain (h : k.IsExact) (l : Value) : k.equal l = true ↔ k.plain = l.plain := by
  obtain ⟨hkey, hfloat⟩ := h
  cases k with
  | int | bool | char | symbol | sentinel | text => cases l <;> simp [equal, plain, Symbol.same]
  | float => exact absurd rfl hfloat
  | bytes | pair | array | function | record | package | error | host | type => cases hkey

/-- Equal keys have one hash, if they are no floats. -/
theorem hash?_of_equal (hk : k.IsExact) (h : k.equal l = true) : k.hash? = l.hash? := by
  rw [← hash?_plain k, ← hash?_plain l, (equal_iff_plain hk l).1 h]

/-- The two zeros have different hashes. -/
theorem hash?_ne_of_oppositeZeros (h : k.oppositeZeros l = true) : k.hash? ≠ l.hash? := by
  cases k with
  | float x =>
    cases l with
    | float y =>
      simp only [oppositeZeros, Bool.and_eq_true, bne_iff_ne] at h
      obtain ⟨⟨hx, hy⟩, hne⟩ := h
      have hbits : x.bits ≠ y.bits := fun h => hne (congrArg Double.mk h)
      simp only [hash?, hashWords?, Option.map_some]
      rcases Double.bits_of_isZero hx with hx | hx <;> rcases Double.bits_of_isZero hy with hy | hy
      · exact absurd (hx.trans hy.symm) hbits
      · rw [hx, hy]
        decide
      · rw [hx, hy]
        decide
      · exact absurd (hx.trans hy.symm) hbits
    | _ => cases h
  | _ => cases h

/-- **Equal keys have one hash, unless they are the two zeros.** -/
theorem hash?_eq_iff (hk : k.isKey = true) (h : k.equal l = true) : k.hash? = l.hash? ↔ k.oppositeZeros l = false := by
  refine ⟨fun hhash => Bool.eq_false_iff.2 fun hzeros => hash?_ne_of_oppositeZeros hzeros hhash, fun hzeros => ?_⟩
  by_cases hfloat : k.variant = .float
  · cases (equal_iff_alike hk l).1 h with
    | @float x y hxy =>
      rcases Double.eq_of_equal hxy with rfl | ⟨hx, hy⟩
      · rfl
      · have heq : x = y := by simpa [oppositeZeros, hx, hy] using hzeros
        rw [heq]
    | _ => cases hfloat
  · exact hash?_of_equal ⟨hk, hfloat⟩ h

theorem sameKey_iff (hk : k.isKey = true) : k.sameKey l = true ↔ k.equal l = true ∧ k.oppositeZeros l = false := by
  simp only [sameKey, Bool.and_eq_true, beq_iff_eq]
  exact ⟨fun h => ⟨h.1, (hash?_eq_iff hk h.1).1 h.2⟩, fun h => ⟨h.1, (hash?_eq_iff hk h.1).2 h.2⟩⟩

theorem sameKey_comm (hk : k.isKey = true) (l : Value) : k.sameKey l = l.sameKey k := by
  rw [sameKey, sameKey, equal_comm hk, Bool.beq_comm]

/-- Every key but a NaN is one with itself. -/
theorem sameKey_self (hk : k.isKey = true) : k.sameKey k = !k.isNaN := by
  cases h : k.isNaN with
  | true => rw [sameKey, not_equal_of_isNaN h, Bool.false_and, Bool.not_true]
  | false => rw [sameKey, equal_self hk h, beq_self_eq_true, Bool.and_true, Bool.not_false]

end Value

end Zygo
