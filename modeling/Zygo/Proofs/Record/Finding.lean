import Mathlib.Data.List.Basic
import Zygo.Proofs.Record.Log

/-!
# Keys that are found

What a call of `set` does can be told without regard to what the buckets hold: it is seen by the keys that records take
for one with the key that was set, and by no others (`set_spec`). Two floats apart, that makes equal keys one key, and
lets every key be found. The zeros are equal and have different hashes, so they are two keys. A NaN does not equal
itself, so a record takes one more key for every NaN that is set, and never finds one.

* `one_key_of_equal`: what setting one of two equal keys does to the other, in every record.
* `found_after_set`: what is found of a key that was set, and which keys have entries, after any calls.
-/

namespace Zygo.Record

variable {r r' : Record} {a b k l v w : Value}

/-! ## One call -/

/-- **What setting a key does.** The key stands behind the others if it was not found before, and those keys that are one
with it have the value. -/
theorem set_spec (r : Record) (hk : k.isKey = true) (v : Value) :
    ∃ r', r.set k v = .ok r' ∧ r'.keys = (if (r.find? k).isSome then r.keys else r.keys ++ [k]) ∧
      ∀ l, r'.read l = if k.sameKey l then .ok (some v) else r.read l := by
  obtain ⟨hash, hhash⟩ := exists_hash? hk
  refine ⟨_, r.set_eq hhash v, ?_, fun l => ?_⟩
  · simp only [holds_eq_isSome, find?_of_read (r.read_eq hhash)]
  · cases hl : l.hash? with
    | none =>
      have hnot : k.sameKey l = false := by simp [Value.sameKey, hhash, hl]
      rw [hnot, if_neg Bool.false_ne_true, Record.read, Record.read, hashKey, hl]
      rfl
    | some other =>
      rw [read_eq _ hl, read_eq _ hl, Record.bucket, lookup_withBucket]
      by_cases hsame : other = hash
      · -- The keys of the bucket are told apart by equality.
        subst hsame
        have hiff : k.sameKey l = k.equal l := by simp [Value.sameKey, hhash, hl]
        rw [if_pos rfl, hiff, Option.getD_some, valueIn_put hk]
        split <;> rfl
      · have hnot : k.sameKey l = false := by simp [Value.sameKey, hhash, hl, Ne.symm hsame]
        rw [if_neg hsame, hnot, if_neg Bool.false_ne_true]
        rfl

theorem isKey_of_set (h : r.set k v = .ok r') : k.isKey = true := by
  refine Decidable.by_contra fun hk => ?_
  rw [set_of_not_isKey r hk] at h
  cases h

theorem keys_set (h : r.set k v = .ok r') : r'.keys = if (r.find? k).isSome then r.keys else r.keys ++ [k] := by
  obtain ⟨_, hset, hkeys, -⟩ := r.set_spec (isKey_of_set h) v
  cases h.symm.trans hset
  exact hkeys

theorem read_set (h : r.set k v = .ok r') (l : Value) : r'.read l = if k.sameKey l then .ok (some v) else r.read l := by
  obtain ⟨_, hset, -, hread⟩ := r.set_spec (isKey_of_set h) v
  cases h.symm.trans hset
  exact hread l

theorem find?_set (h : r.set k v = .ok r') (l : Value) : r'.find? l = if k.sameKey l then some v else r.find? l := by
  rw [find?, read_set h]
  split <;> rfl

/-- A key that was set is found, under every key that is one with it. -/
theorem finds_of_set (h : r.set k v = .ok r') (hl : k.sameKey l = true) :
    r'.get l = .ok v ∧ r'.contains l = .ok true ∧ r'.find? l = some v := by
  have hread : r'.read l = .ok (some v) := by rw [read_set h, if_pos hl]
  obtain ⟨hget, -, hcontains⟩ := reads_of_some hread v
  exact ⟨hget, hcontains, find?_of_read hread⟩

/-- Other keys do not notice. -/
theorem get_set_of_not_sameKey (h : r.set k v = .ok r') (hl : k.sameKey l = false) : r'.get l = r.get l := by
  rw [get, get, read_set h, hl, if_neg Bool.false_ne_true]

/-! ## Equal keys -/

/-- A key that equals a key is no NaN. -/
theorem not_isNaN_of_equal (ha : a.isKey = true) (h : a.equal b = true) : a.isNaN = false ∧ b.isNaN = false := by
  have hba : b.equal a = true := Value.equal_comm ha b ▸ h
  constructor <;> refine Bool.eq_false_iff.2 fun hnan => ?_
  · rw [Value.not_equal_of_isNaN hnan] at h
    cases h
  · rw [Value.not_equal_of_isNaN hnan] at hba
    cases hba

/-- **Equal keys are one key, unless they are the two zeros.** In every record, setting a key sets each key that equals it:
they have one hash, both give the value, setting the other one then adds no key, and the first gives the new value. Of
the zeros each is set on its own: their hashes differ, setting one changes nothing for the other, the other is added
unless it was there before, and the first keeps its value. -/
theorem one_key_of_equal (r : Record) (ha : a.isKey = true) (h : a.equal b = true) (v w : Value) :
    ∃ r' r'', r.set a v = .ok r' ∧ r'.set b w = .ok r'' ∧ r'.get a = .ok v ∧
      (a.oppositeZeros b = false → (∃ hash, hashKey a = .ok hash ∧ hashKey b = .ok hash) ∧ r'.get b = .ok v ∧
        r''.size = r'.size ∧ r''.get a = .ok w) ∧
      (a.oppositeZeros b = true → hashKey a ≠ hashKey b ∧ r'.get b = r.get b ∧
        r''.size = (if (r.find? b).isSome then r'.size else r'.size + 1) ∧ r''.get a = .ok v) := by
  have hb : b.isKey = true := Value.isKey_of_equal ha h
  have haa : a.sameKey a = true := by rw [Value.sameKey_self ha, (not_isNaN_of_equal ha h).1, Bool.not_false]
  obtain ⟨r', hset, -⟩ := r.set_spec ha v
  obtain ⟨r'', hset', -⟩ := r'.set_spec hb w
  obtain ⟨hasha, hhasha⟩ := exists_hash? ha
  obtain ⟨hashb, hhashb⟩ := exists_hash? hb
  have hget : r'.get a = .ok v := (finds_of_set hset haa).1
  refine ⟨r', r'', hset, hset', hget, fun hzeros => ?_, fun hzeros => ?_⟩
  · have hone : a.hash? = b.hash? := (Value.hash?_eq_iff ha h).2 hzeros
    have hab : a.sameKey b = true := (Value.sameKey_iff ha).2 ⟨h, hzeros⟩
    have hba : b.sameKey a = true := Value.sameKey_comm ha b ▸ hab
    obtain ⟨hgetb, -, hfindb⟩ := finds_of_set hset hab
    refine ⟨⟨hasha, hashKey_of_hash? hhasha, hashKey_of_hash? (hone ▸ hhasha)⟩, hgetb, ?_, (finds_of_set hset' hba).1⟩
    rw [size, size, keys_set hset', hfindb, Option.isSome_some, if_pos rfl]
  · have hne : a.hash? ≠ b.hash? := Value.hash?_ne_of_oppositeZeros hzeros
    have hab : a.sameKey b = false := by simp [Value.sameKey, hne]
    have hba : b.sameKey a = false := Value.sameKey_comm ha b ▸ hab
    refine ⟨fun hhash => hne ?_, get_set_of_not_sameKey hset hab, ?_, (get_set_of_not_sameKey hset' hba).trans hget⟩
    · rw [hashKey_of_hash? hhasha, hashKey_of_hash? hhashb] at hhash
      rw [hhasha, hhashb, Except.ok.inj hhash]
    · rw [size, size, keys_set hset', find?_set hset, hab, if_neg Bool.false_ne_true]
      split
      · rfl
      · exact List.length_append

/-- Two spellings of a text, and the two zeros. -/
theorem one_key_of_equal_texts_zeros :
    let r : Record := { typeName := "T" }
    (Value.text "k" true).equal (.text "k" false) = true ∧
      (∃ r' r'', r.set (.text "k" true) (.int 1) = .ok r' ∧ r'.set (.text "k" false) (.int 2) = .ok r'' ∧
        r''.size = r'.size ∧ r''.get (.text "k" true) = .ok (.int 2)) ∧
      (Value.float ⟨0⟩).equal (.float ⟨0x8000000000000000⟩) = true ∧
      ∃ r' r'', r.set (.float ⟨0⟩) (.int 1) = .ok r' ∧ r'.set (.float ⟨0x8000000000000000⟩) (.int 2) = .ok r'' ∧
        r''.size = r'.size + 1 ∧ r''.get (.float ⟨0⟩) = .ok (.int 1) := by
  intro r
  have htexts : (Value.text "k" true).equal (.text "k" false) = true := by decide
  have hzeros : (Value.float ⟨0⟩).equal (.float ⟨0x8000000000000000⟩) = true := by decide
  obtain ⟨r', r'', hset, hset', -, htext, -⟩ := r.one_key_of_equal rfl htexts (.int 1) (.int 2)
  obtain ⟨t', t'', hset₀, hset₁, -, -, hzero⟩ := r.one_key_of_equal rfl hzeros (.int 1) (.int 2)
  obtain ⟨-, -, hsize, hget⟩ := htext rfl
  obtain ⟨-, -, hsize', hget'⟩ := hzero (by decide)
  exact ⟨htexts, ⟨r', r'', hset, hset', hsize, hget⟩, hzeros, t', t'', hset₀, hset₁, hsize', hget'⟩

/-- Equal keys that are two: what was set for one zero is not found under the other. -/
theorem not_one_key_of_zeros :
    (Value.float ⟨0⟩).equal (.float ⟨0x8000000000000000⟩) = true ∧
      hashKey (.float ⟨0⟩) ≠ hashKey (.float ⟨0x8000000000000000⟩) ∧
      ∃ r', ({ typeName := "T" } : Record).set (.float ⟨0⟩) (.int 1) = .ok r' ∧
        r'.get (.float ⟨0x8000000000000000⟩) = .error (.keyNotFound "-0.0") := by
  refine ⟨by decide, ?_, _, rfl, rfl⟩
  simp only [hashKey, Value.hash?, Value.hashWords?, Option.map_some]
  intro h
  exact absurd (Except.ok.inj h) (by decide)

/-! ## Keys of a record -/

/-- A record never finds a NaN. -/
theorem read_of_isNaN (r : Record) (h : k.isNaN = true) : r.read k = .ok none := by
  have hk : k.isKey = true := by cases k <;> first | rfl | cases h
  obtain ⟨hash, hhash⟩ := exists_hash? hk
  have hnone : ((r.bucket hash).find? fun slot => slot.1.equal k) = none := by
    rw [List.find?_eq_none]
    intro slot _
    rw [← Value.equal_comm hk, Value.not_equal_of_isNaN h]
    exact Bool.false_ne_true
  rw [r.read_eq hhash, valueIn, hnone, Option.map_none]

theorem find?_of_isNaN (r : Record) (h : k.isNaN = true) : r.find? k = none :=
  find?_of_read (r.read_of_isNaN h)

/-- A record finds all its keys but NaNs. -/
def Findable (r : Record) : Prop :=
  ∀ k ∈ r.keys, k.isNaN = false → ∃ v, r.find? k = some v

/-- Setting a key keeps the other keys found, and lets the key be found that is set. -/
theorem Findable.set (h : r.Findable) (hset : r.set k v = .ok r') : r'.Findable := by
  intro l hl hnan
  rw [find?_set hset]
  by_cases hsame : k.sameKey l
  · exact ⟨v, if_pos hsame⟩
  · rw [if_neg hsame]
    refine h l ?_ hnan
    rw [keys_set hset] at hl
    split at hl
    · exact hl
    · rcases List.mem_append.1 hl with hl | hl
      · exact hl
      · -- The key itself is one with what was set, being no NaN.
        obtain rfl := List.mem_singleton.1 hl
        rw [Value.sameKey_self (isKey_of_set hset), hnan] at hsame
        exact absurd rfl hsame

theorem findable_apply (h : r.Findable) (call : Call) : (r.apply call).Findable := by
  cases hslot : call.slot? with
  | none =>
    cases call with
    | addMethod s f => exact h
    | set | bind | setParent | setSuper | setMain => cases hslot
  | some e =>
    rw [apply_of_slot? hslot]
    cases hset : r.set e.1 e.2 with
    | error => exact h
    | ok r' => exact h.set hset

/-- **All keys but NaNs are found**, after any calls. -/
theorem findable_applyAll (typeName : String) (calls : List Call) :
    (({ typeName } : Record).applyAll calls).Findable := by
  induction calls using List.reverseRecOn with
  | nil => exact fun _ hk => absurd hk List.not_mem_nil
  | append_singleton calls call ih =>
    rw [applyAll, List.foldl_append]
    exact findable_apply ih call

/-- The keys with entries are those that are no NaNs. -/
theorem Findable.keys_entries (h : r.Findable) : r.entries.map Prod.fst = r.keys.filter fun k => !k.isNaN := by
  rw [entries, List.map_filterMap, ← List.filterMap_eq_filter]
  refine List.filterMap_congr fun k hk => ?_
  cases hnan : k.isNaN with
  | true => simp [r.find?_of_isNaN hnan, Option.guard, hnan]
  | false =>
    obtain ⟨v, hv⟩ := h k hk hnan
    simp [hv, hnan]

theorem get_of_find? (h : r.find? k = some v) : r.get k = .ok v := by
  cases hread : r.read k with
  | error e =>
    rw [find?, hread] at h
    cases h
  | ok v? =>
    obtain rfl := (find?_of_read hread).symm.trans h
    rw [get, hread]

/-- **What was set is found, unless its key is a NaN.** After any calls on a new record:

* Every key can be set. If it is no NaN, the record then contains it and gives the value, and setting it again changes
  neither the keys nor their number. If it is a NaN, the record does not contain it, and setting it again adds one more
  key.
* The entries are those keys that are no NaNs, in order, each with the value that the record gives for it. So there are as
  many of them as keys just when no key is a NaN. -/
theorem found_after_set (typeName : String) (calls : List Call) :
    let r := ({ typeName } : Record).applyAll calls
    (∀ k v w, k.isKey = true → ∃ r' r'', r.set k v = .ok r' ∧ r'.set k w = .ok r'' ∧
      (k.isNaN = false → r'.contains k = .ok true ∧ r'.get k = .ok v ∧ r''.keys = r'.keys ∧ r''.size = r'.size) ∧
      (k.isNaN = true → r'.contains k = .ok false ∧ r'.get k = .error (.keyNotFound (k.spell?.getD "")) ∧
        r''.keys = r'.keys ++ [k] ∧ r''.size = r'.size + 1)) ∧
    r.entries.map Prod.fst = r.keys.filter (fun k => !k.isNaN) ∧ (∀ e ∈ r.entries, r.get e.1 = .ok e.2) ∧
      (r.entries.length = r.size ↔ ∀ k ∈ r.keys, k.isNaN = false) := by
  intro r
  have hfindable : r.Findable := findable_applyAll typeName calls
  refine ⟨fun k v w hk => ?_, hfindable.keys_entries, fun e he => ?_, ?_⟩
  · obtain ⟨r', hset, -⟩ := r.set_spec hk v
    obtain ⟨r'', hset', -⟩ := r'.set_spec hk w
    refine ⟨r', r'', hset, hset', fun hnan => ?_, fun hnan => ?_⟩
    · have hsame : k.sameKey k = true := by rw [Value.sameKey_self hk, hnan, Bool.not_false]
      obtain ⟨hget, hcontains, hfind⟩ := finds_of_set hset hsame
      have hkeys : r''.keys = r'.keys := by rw [keys_set hset', hfind, Option.isSome_some, if_pos rfl]
      exact ⟨hcontains, hget, hkeys, congrArg List.length hkeys⟩
    · have hkeys : r''.keys = r'.keys ++ [k] := by
        rw [keys_set hset', find?_of_isNaN r' hnan, Option.isSome_none, if_neg Bool.false_ne_true]
      obtain ⟨hget, -, hcontains⟩ := reads_of_none (read_of_isNaN r' hnan) v
      refine ⟨hcontains, hget, hkeys, ?_⟩
      rw [size, size, hkeys, List.length_append, List.length_singleton]
  · obtain ⟨k, -, hk⟩ := List.mem_filterMap.1 he
    obtain ⟨v, hv, rfl⟩ := Option.map_eq_some_iff.1 hk
    exact get_of_find? hv
  · rw [← List.length_map Prod.fst, hfindable.keys_entries, size, List.length_filter_eq_length_iff]
    simp

/-- A record that a NaN and a text have been set in, and a text and a NaN that are set after them. -/
theorem found_after_set_text_nan :
    let nan := Value.float (.nan false)
    let r := ({ typeName := "T" } : Record).applyAll [.set nan (.int 1), .set (.text "a" true) (.int 2)]
    (∃ r' r'', r.set (.text "a" false) (.int 3) = .ok r' ∧ r'.set (.text "a" false) (.int 4) = .ok r'' ∧
        r'.get (.text "a" false) = .ok (.int 3) ∧ r''.size = r'.size) ∧
      (∃ r' r'', r.set nan (.int 3) = .ok r' ∧ r'.set nan (.int 4) = .ok r'' ∧ r'.contains nan = .ok false ∧
        r''.size = r'.size + 1) ∧
      r.keys = [nan, .text "a" true] ∧ r.entries.map Prod.fst = [.text "a" true] := by
  intro nan r
  obtain ⟨hsets, hentries, -⟩ := found_after_set "T" [.set nan (.int 1), .set (.text "a" true) (.int 2)]
  obtain ⟨r', r'', hset, hset', htext, -⟩ := hsets (.text "a" false) (.int 3) (.int 4) rfl
  obtain ⟨t', t'', hset₁, hset₂, -, hnan⟩ := hsets nan (.int 3) (.int 4) rfl
  obtain ⟨-, hget, -, hsize⟩ := htext rfl
  obtain ⟨hcontains, -, -, hsize'⟩ := hnan (by decide)
  exact ⟨⟨r', r'', hset, hset', hget, hsize⟩, ⟨t', t'', hset₁, hset₂, hcontains, hsize'⟩, rfl, hentries.trans rfl⟩

/-- A key that was set and is not found: the record has one key and no entry. -/
theorem not_found_after_set_nan :
    let nan := Value.float (.nan false)
    ∃ r, ({ typeName := "T" } : Record).set nan (.int 1) = .ok r ∧ r.contains nan = .ok false ∧
      r.get nan = .error (.keyNotFound "NaN") ∧ r.size = 1 ∧ r.entries = [] :=
  ⟨_, rfl, rfl, rfl, rfl, rfl⟩

end Zygo.Record
