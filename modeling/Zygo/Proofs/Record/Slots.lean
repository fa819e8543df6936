import Zygo.Proofs.Value.Keys
import Zygo.Record

/-!
# Slots and buckets

`Record.put` sets a key in one list of slots. A record is such a list kept twice over: its order is the order of the
keys, and its slots are spread over the buckets, each to the one of its hash (`Lists`). Setting a key of the record sets
it in the list (`Lists.set`): this needs no more of hashes than that equal keys have the same one, so keys that share a
hash without being equal change nothing.
-/

namespace Zygo.Record

variable {r : Record} {L : List (Value × Value)} {k l v : Value} {hash : UInt64}

/-! ## One list of slots -/

/-- Whether a list of slots has one for a key. -/
def holds (L : List (Value × Value)) (k : Value) : Bool :=
  L.any fun slot => slot.1.equal k

/-- The value in the first slot for a key. -/
def valueIn (L : List (Value × Value)) (k : Value) : Option Value :=
  (L.find? fun slot => slot.1.equal k).map Prod.snd

/-- Sets a key in a list of slots: in place, or behind all others. -/
def put (k v : Value) (L : List (Value × Value)) : List (Value × Value) :=
  if holds L k then replace k v L else L ++ [(k, v)]

/-- All keys are exact. -/
def Exact (L : List (Value × Value)) : Prop :=
  ∀ slot ∈ L, slot.1.IsExact

theorem keys_replace (k v : Value) (L : List (Value × Value)) : (replace k v L).map Prod.fst = L.map Prod.fst := by
  induction L with
  | nil => rfl
  | cons slot L ih =>
    rw [replace]
    split
    · rfl
    · rw [List.map_cons, List.map_cons, ih]

theorem keys_put (k v : Value) (L : List (Value × Value)) :
    (put k v L).map Prod.fst = if holds L k then L.map Prod.fst else L.map Prod.fst ++ [k] := by
  rw [put]
  split
  · exact keys_replace k v L
  · simp

theorem Exact.put (hL : Exact L) (hk : k.IsExact) (v : Value) : Exact (put k v L) := by
  intro slot hslot
  have hmem : slot.1 ∈ (Record.put k v L).map Prod.fst := List.mem_map_of_mem hslot
  have hold : slot.1 ∈ L.map Prod.fst → slot.1.IsExact := by
    intro h
    obtain ⟨other, hother, heq⟩ := List.mem_map.1 h
    rw [← heq]
    exact hL other hother
  rw [keys_put] at hmem
  split at hmem
  · exact hold hmem
  · rcases List.mem_append.1 hmem with h | h
    · exact hold h
    · rw [List.mem_singleton.1 h]
      exact hk

/-- What equals a value equals the keys that equal this value. -/
theorem equal_of_equal {m : Value} (hk : k.isKey = true) (hkl : k.equal l = true) (hml : m.equal l = true) :
    m.equal k = true := by
  have hl := Value.isKey_of_equal hk hkl
  rw [← Value.equal_comm hk, Value.equal_congr hk hkl, Value.equal_comm hl]
  exact hml

theorem valueIn_replace (hk : k.isKey = true) (hmem : holds L k = true) (v l : Value) :
    valueIn (replace k v L) l = if k.equal l then some v else valueIn L l := by
  induction L with
  | nil => cases hmem
  | cons slot L ih =>
    rw [replace]
    split
    · -- This is the slot, and for other keys it was never the one to find.
      rename_i heq
      rw [← Value.equal_comm hk] at heq
      have hcongr := Value.equal_congr hk heq l
      by_cases hkl : k.equal l
      · simp [valueIn, ← hcongr, hkl]
      · simp [valueIn, ← hcongr, hkl]
    · rename_i hne
      have hrest : holds L k = true := by
        simpa [holds, hne] using hmem
      have htail := ih hrest
      by_cases hsl : slot.1.equal l
      · have hkl : k.equal l = false := by
          rw [Bool.eq_false_iff]
          intro hkl
          exact hne (equal_of_equal hk hkl hsl)
        simp [valueIn, hsl, hkl]
      · simpa [valueIn, hsl] using htail

/-- Setting a key sets all keys that equal it, and no others. -/
theorem valueIn_put (hk : k.isKey = true) (v l : Value) :
    valueIn (put k v L) l = if k.equal l then some v else valueIn L l := by
  rw [put]
  split
  · rename_i hmem
    exact valueIn_replace hk hmem v l
  · rename_i hmem
    rw [valueIn, List.find?_append]
    by_cases hkl : k.equal l
    · have hnone : (L.find? fun slot => slot.1.equal l) = none := by
        rw [List.find?_eq_none]
        intro slot hslot hsl
        apply hmem
        exact List.any_eq_true.2 ⟨slot, hslot, equal_of_equal hk hkl hsl⟩
      simp [hnone, hkl]
    · simp [valueIn, hkl]

/-! ## The slots of one hash -/

/-- The slots of a hash. -/
def ofHash (L : List (Value × Value)) (hash : UInt64) : List (Value × Value) :=
  L.filter fun slot => slot.1.hash? == some hash

/-- A key is looked for among the slots of its hash. -/
theorem valueIn_ofHash (hL : Exact L) (hhash : k.hash? = some hash) : valueIn (ofHash L hash) k = valueIn L k := by
  induction L with
  | nil => rfl
  | cons slot L ih =>
    have htail := ih fun s hs => hL s (List.mem_cons_of_mem _ hs)
    by_cases heq : slot.1.equal k
    · have hsame := Value.hash?_of_equal (hL slot List.mem_cons_self) heq
      simp [valueIn, ofHash, hsame, hhash, heq]
    · by_cases hslot : slot.1.hash? = some hash
      · simpa [valueIn, ofHash, hslot, heq] using htail
      · simpa [valueIn, ofHash, hslot, heq] using htail

theorem holds_eq_isSome (L : List (Value × Value)) (k : Value) : holds L k = (valueIn L k).isSome := by
  rw [holds, valueIn, Option.isSome_map, Bool.eq_iff_iff, List.any_eq_true, List.find?_isSome]

theorem holds_ofHash (hL : Exact L) (hhash : k.hash? = some hash) : holds (ofHash L hash) k = holds L k := by
  rw [holds_eq_isSome, holds_eq_isSome, valueIn_ofHash hL hhash]

theorem ofHash_replace (hL : Exact L) (k v : Value) (hash : UInt64) :
    ofHash (replace k v L) hash = if k.hash? = some hash then replace k v (ofHash L hash) else ofHash L hash := by
  induction L with
  | nil => simp [ofHash, replace]
  | cons slot L ih =>
    have htail := ih fun s hs => hL s (List.mem_cons_of_mem _ hs)
    rw [replace]
    split
    · rename_i heq
      have hsame := Value.hash?_of_equal (hL slot List.mem_cons_self) heq
      by_cases hhash : k.hash? = some hash
      · simp [ofHash, hsame, hhash, replace, heq]
      · simp [ofHash, hsame, hhash]
    · rename_i hne
      simp only [ofHash] at htail
      by_cases hslot : slot.1.hash? = some hash
      · by_cases hhash : k.hash? = some hash
        · simpa [ofHash, hslot, hhash, replace, hne] using htail
        · simpa [ofHash, hslot, hhash] using htail
      · simpa [ofHash, hslot] using htail

/-- Setting a key changes the slots of its hash, as it would change them on their own, and no others. -/
theorem ofHash_put (hL : Exact L) (hk : k.hash? = some hash) (v : Value) (h : UInt64) :
    ofHash (put k v L) h = if h = hash then put k v (ofHash L hash) else ofHash L h := by
  have hiff : k.hash? = some h ↔ h = hash := by simp [hk, eq_comm]
  rw [put]
  split
  · rename_i hmem
    rw [ofHash_replace hL]
    by_cases hh : h = hash
    · subst hh
      rw [if_pos hk, if_pos rfl, put, holds_ofHash hL hk, if_pos hmem]
    · rw [if_neg fun h' => hh (hiff.1 h'), if_neg hh]
  · rename_i hmem
    by_cases hh : h = hash
    · subst hh
      rw [if_pos rfl, put, holds_ofHash hL hk, if_neg hmem]
      simp [ofHash, hk]
    · have hne : ¬k.hash? = some h := fun h' => hh (hiff.1 h')
      simp [ofHash, hh, hne]

/-! ## Records -/

theorem lookup_withBucket (hash : UInt64) (slots : List (Value × Value)) (bs : List (UInt64 × List (Value × Value)))
    (h : UInt64) : (withBucket hash slots bs).lookup h = if h = hash then some slots else bs.lookup h := by
  induction bs with
  | nil =>
    rw [withBucket, List.lookup_cons]
    by_cases hh : h = hash
    · simp [hh]
    · simp [hh, beq_false_of_ne hh]
  | cons b bs ih =>
    rw [withBucket, List.lookup_cons]
    split
    · rename_i hb
      obtain rfl : b.1 = hash := eq_of_beq hb
      rw [List.lookup_cons]
      by_cases hh : h = b.1
      · simp [hh]
      · simp [hh, beq_false_of_ne hh]
    · rename_i hb
      have hne : b.1 ≠ hash := fun h' => hb (beq_iff_eq.2 h')
      rw [List.lookup_cons, ih]
      by_cases hh : h = b.1
      · simp [hh, hne]
      · simp [beq_false_of_ne hh]

/-- A record holds a list of slots: in the order of its keys, and in its buckets. -/
structure Lists (r : Record) (L : List (Value × Value)) : Prop where
  keys : r.keys = L.map Prod.fst
  bucket : ∀ hash, r.bucket hash = ofHash L hash

theorem hashKey_of_hash? (h : k.hash? = some hash) : hashKey k = .ok hash := by
  rw [hashKey, h]

theorem hashKey_of_not_isKey (h : ¬k.isKey) : hashKey k = .error (.unhashableKey k.variant) := by
  have hnone : k.hash? = none := by simpa [Value.isKey, Value.hash?] using h
  rw [hashKey, hnone]

theorem exists_hash? (h : k.isKey = true) : ∃ hash, k.hash? = some hash := by
  obtain ⟨words, hwords⟩ := Option.isSome_iff_exists.1 h
  exact ⟨Hash.ofWords words, by rw [Value.hash?, hwords]; rfl⟩

/-- A key is read from the bucket of its hash. -/
theorem read_eq (r : Record) (hhash : k.hash? = some hash) : r.read k = .ok (valueIn (r.bucket hash) k) := by
  rw [Record.read, hashKey_of_hash? hhash]
  rfl

/-- Reading finds what the list holds, wherever the key is hashed to. -/
theorem Lists.read (h : Lists r L) (hL : Exact L) (hk : k.isKey = true) : r.read k = .ok (valueIn L k) := by
  obtain ⟨hash, hhash⟩ := exists_hash? hk
  rw [r.read_eq hhash, h.bucket, valueIn_ofHash hL hhash]

theorem read_of_not_isKey (r : Record) (hk : ¬k.isKey) : r.read k = .error (.unhashableKey k.variant) := by
  rw [Record.read, hashKey_of_not_isKey hk]
  rfl

/-- A key is set in the bucket of its hash, and stands behind all other keys if the bucket did not hold it. -/
theorem set_eq (r : Record) (hhash : k.hash? = some hash) (v : Value) :
    r.set k v = .ok { r with
      buckets := withBucket hash (put k v (r.bucket hash)) r.buckets
      keys := if holds (r.bucket hash) k then r.keys else r.keys ++ [k] } := by
  rw [Record.set, hashKey_of_hash? hhash, put]
  show Except.ok (if holds (r.bucket hash) k then _ else _) = _
  split <;> rfl

/-- **Setting a key of a record sets it in its list.** -/
theorem Lists.set (h : Lists r L) (hL : Exact L) (hk : k.isKey = true) (v : Value) :
    ∃ r', r.set k v = .ok r' ∧ Lists r' (put k v L) ∧ r'.typeName = r.typeName ∧ r'.methods = r.methods := by
  obtain ⟨hash, hhash⟩ := exists_hash? hk
  have hholds : holds (r.bucket hash) k = holds L k := by
    rw [h.bucket, holds_ofHash hL hhash]
  refine ⟨_, r.set_eq hhash v, ⟨?_, fun other => ?_⟩, rfl, rfl⟩
  · rw [keys_put, ← h.keys]
    simp only [hholds]
  · rw [Record.bucket, lookup_withBucket, ofHash_put hL hhash, h.bucket]
    split
    · rfl
    · exact h.bucket other

theorem set_of_not_isKey (r : Record) (hk : ¬k.isKey) (v : Value) :
    r.set k v = .error (.unhashableKey k.variant) := by
  rw [Record.set, hashKey_of_not_isKey hk]
  rfl

/-- A new record holds no slots. -/
theorem lists_new (typeName : String) : Lists { typeName } [] := by
  constructor
  · rfl
  · intro hash
    rfl

end Zygo.Record
