import Mathlib.Data.List.Induction
import Zygo.Proofs.Record.Slots
import Zygo.Proofs.Symbol

/-!
# Records as ordered maps

What a record holds is told by the log of its calls: the entries that were set, in order, without those whose keys can be
none (`Record.log`). The keys are the first of each kind in the log, and the value of a key is the last one that was set
for a key equal to it (`Record.lastOf`).

* `ordered_of_calls`: what a record shows after any calls, read off their log. Floats are left out as keys.
-/

namespace Zygo.Record

variable {r : Record} {L es : List (Value × Value)} {k l v : Value}

/-! ## Logs -/

/-- What a client does to a record. -/
inductive Call where
  | set (key value : Value)
  | bind (s : Symbol) (value : Value)
  | setParent (parent : RecordId)
  | setSuper (super : RecordId)
  | setMain (main : FunctionId)
  | addMethod (s : Symbol) (f : FunctionId)

/-- The key that a call sets, and its value. -/
def Call.slot? : Call → Option (Value × Value)
  | set key value => some (key, value)
  | bind s value => some (.symbol s, value)
  | setParent parent => some (.symbol Symbol.parentKey, .record parent)
  | setSuper super => some (.symbol Symbol.superKey, .record super)
  | setMain main => some (.symbol Symbol.mainKey, .function main)
  | addMethod .. => none

/-- The record after a call. A set that fails changes nothing. -/
def apply (r : Record) : Call → Record
  | .set key value =>
    match r.set key value with
    | .ok r => r
    | .error _ => r
  | .bind s value => r.bind s value
  | .setParent parent => r.setParent parent
  | .setSuper super => r.setSuper super
  | .setMain main => r.setMain main
  | .addMethod s f => r.addMethod s f

/-- The record after calls made in order. -/
def applyAll (r : Record) (calls : List Call) : Record :=
  calls.foldl apply r

/-- What calls have set, in order. -/
def log (calls : List Call) : List (Value × Value) :=
  (calls.filterMap Call.slot?).filter fun e => e.1.isKey

/-- The value that was last set for a key equal to this one. -/
def lastOf (es : List (Value × Value)) (k : Value) : Option Value :=
  (es.findRev? fun e => e.1.equal k).map Prod.snd

/-- No call sets a float as a key. -/
def NoFloats (calls : List Call) : Prop :=
  ∀ call ∈ calls, ∀ e, call.slot? = some e → e.1.variant ≠ .float

/-- The slots that a log leads to, in one list. -/
def slotsOf (es : List (Value × Value)) : List (Value × Value) :=
  es.foldl (fun L e => put e.1 e.2 L) []

theorem slotsOf_concat (es : List (Value × Value)) (e : Value × Value) :
    slotsOf (es ++ [e]) = put e.1 e.2 (slotsOf es) := by
  rw [slotsOf, List.foldl_append]
  rfl

theorem log_concat (calls : List Call) (call : Call) :
    log (calls ++ [call]) = log calls ++ call.slot?.toList.filter fun e => e.1.isKey := by
  rw [log, List.filterMap_append, List.filter_append]
  cases h : call.slot? <;> simp [log, h]

theorem lastOf_concat (es : List (Value × Value)) (e : Value × Value) (k : Value) :
    lastOf (es ++ [e]) k = if e.1.equal k then some e.2 else lastOf es k := by
  by_cases h : e.1.equal k
  · simp [lastOf, List.findRev?_eq_find?_reverse, h]
  · simp [lastOf, List.findRev?_eq_find?_reverse, h]

variable {calls : List Call}

theorem exact_log (h : NoFloats calls) : Exact (log calls) := by
  intro e he
  obtain ⟨hmem, hkey⟩ := List.mem_filter.1 he
  obtain ⟨call, hcall, hslot⟩ := List.mem_filterMap.1 hmem
  exact ⟨hkey, h call hcall e hslot⟩

/-! ## Lists of slots and their logs -/

theorem Exact.of_concat {e : Value × Value} (h : Exact (es ++ [e])) : Exact es ∧ e.1.IsExact := by
  constructor
  · intro other hother
    exact h other (List.mem_append_left _ hother)
  · exact h e (List.mem_append_right _ List.mem_cons_self)

theorem exact_slotsOf (h : Exact es) : Exact (slotsOf es) := by
  induction es using List.reverseRecOn with
  | nil =>
    intro slot hslot
    cases hslot
  | append_singleton es e ih =>
    obtain ⟨hes, he⟩ := h.of_concat
    rw [slotsOf_concat]
    exact (ih hes).put he e.2

/-- The value of a key is the last one that was set. -/
theorem valueIn_slotsOf (h : Exact es) (k : Value) : valueIn (slotsOf es) k = lastOf es k := by
  induction es using List.reverseRecOn with
  | nil => rfl
  | append_singleton es e ih =>
    obtain ⟨hes, he⟩ := h.of_concat
    rw [slotsOf_concat, valueIn_put he.1, ih hes, lastOf_concat]

theorem eraseDupsBy_loop_concat {α : Type} (same : α → α → Bool) (as : List α) (a : α) (kept : List α) :
    List.eraseDupsBy.loop same (as ++ [a]) kept =
      if (List.eraseDupsBy.loop same as kept).any (same a) then List.eraseDupsBy.loop same as kept
      else List.eraseDupsBy.loop same as kept ++ [a] := by
  induction as generalizing kept with
  | nil => cases h : kept.any (same a) <;> simp [List.eraseDupsBy.loop, h]
  | cons b as ih => cases h : kept.any (same b) <;> simp [List.eraseDupsBy.loop, h, ih]

/-- One more item is kept if none that is kept already is the same. -/
theorem eraseDupsBy_concat {α : Type} (same : α → α → Bool) (as : List α) (a : α) :
    (as ++ [a]).eraseDupsBy same =
      if (as.eraseDupsBy same).any (same a) then as.eraseDupsBy same else as.eraseDupsBy same ++ [a] :=
  eraseDupsBy_loop_concat same as a []

theorem holds_iff_keys (hL : Exact L) (k : Value) : holds L k = (L.map Prod.fst).any (k.equal ·) := by
  rw [holds, List.any_map]
  induction L with
  | nil => rfl
  | cons slot L ih =>
    rw [List.any_cons, List.any_cons, ih fun s hs => hL s (List.mem_cons_of_mem _ hs),
      Value.equal_comm (hL slot List.mem_cons_self).1]
    rfl

/-- The keys are the first of each kind. -/
theorem keys_slotsOf (h : Exact es) : (slotsOf es).map Prod.fst = (es.map Prod.fst).eraseDupsBy Value.equal := by
  induction es using List.reverseRecOn with
  | nil => rfl
  | append_singleton es e ih =>
    obtain ⟨hes, he⟩ := h.of_concat
    rw [slotsOf_concat, keys_put, holds_iff_keys (exact_slotsOf hes), ih hes, List.map_append, List.map_singleton,
      eraseDupsBy_concat]

/-- No two keys are equal. -/
theorem pairwise_slotsOf (h : Exact es) : ((slotsOf es).map Prod.fst).Pairwise fun k l => k.equal l = false := by
  induction es using List.reverseRecOn with
  | nil => exact List.Pairwise.nil
  | append_singleton es e ih =>
    obtain ⟨hes, he⟩ := h.of_concat
    rw [slotsOf_concat, keys_put]
    split
    · exact ih hes
    · rename_i hmem
      rw [List.pairwise_append]
      refine ⟨ih hes, List.pairwise_singleton _ _, ?_⟩
      intro k hk l hl
      obtain rfl := List.mem_singleton.1 hl
      obtain ⟨slot, hslot, rfl⟩ := List.mem_map.1 hk
      rw [Bool.eq_false_iff]
      intro heq
      exact hmem (List.any_eq_true.2 ⟨slot, hslot, heq⟩)

/-! ## Records and their logs -/

theorem isKey_symbol (s : Symbol) : (Value.symbol s).isKey = true := rfl

/-- A call that sets a key does so if it can be one. -/
theorem apply_of_slot? {call : Call} {e : Value × Value} (h : call.slot? = some e) (r : Record) :
    r.apply call = (r.set e.1 e.2).toOption.getD r := by
  cases call with
  | set key value =>
    obtain rfl := Option.some.inj h
    simp only [apply]
    cases r.set key value <;> rfl
  | bind | setParent | setSuper | setMain =>
    obtain rfl := Option.some.inj h
    rfl
  | addMethod => cases h

/-- Every call keeps a record in step with its log. -/
theorem lists_apply (h : Lists r (slotsOf (log calls))) (hcalls : NoFloats calls) (call : Call) :
    Lists (r.apply call) (slotsOf (log (calls ++ [call]))) := by
  rw [log_concat]
  cases hslot : call.slot? with
  | none =>
    cases call with
    | addMethod s f => simpa using ⟨h.keys, h.bucket⟩
    | set | bind | setParent | setSuper | setMain => cases hslot
  | some e =>
    rw [apply_of_slot? hslot]
    by_cases hkey : e.1.isKey
    · obtain ⟨r', hset, hlists, -⟩ := h.set (exact_slotsOf (exact_log hcalls)) hkey e.2
      have hfilter : (some e).toList.filter (fun e => e.1.isKey) = [e] := by simp [hkey]
      rw [hset, hfilter, slotsOf_concat]
      exact hlists
    · have hfilter : (some e).toList.filter (fun e => e.1.isKey) = [] := by simp [hkey]
      rw [set_of_not_isKey r hkey, hfilter, List.append_nil]
      exact h

/-- **A record holds what its log says**, after any calls. -/
theorem lists_applyAll (typeName : String) (hcalls : NoFloats calls) :
    Lists (({ typeName } : Record).applyAll calls) (slotsOf (log calls)) := by
  induction calls using List.reverseRecOn with
  | nil => exact lists_new typeName
  | append_singleton calls call ih =>
    have hbefore : NoFloats calls := fun c hc => hcalls c (List.mem_append_left _ hc)
    rw [applyAll, List.foldl_append]
    exact lists_apply (ih hbefore) hbefore call

/-! ## What a record shows -/

theorem reads_of_some (h : r.read k = .ok (some v)) (default : Value) :
    r.get k = .ok v ∧ r.getOr k default = .ok v ∧ r.contains k = .ok true := by
  simp [get, getOr, contains, h, Except.map]

theorem reads_of_none (h : r.read k = .ok none) (default : Value) :
    r.get k = .error (.keyNotFound (k.spell?.getD "")) ∧ r.getOr k default = .ok default ∧
      r.contains k = .ok false := by
  simp [get, getOr, contains, h, Except.map]

theorem reads_of_error {e : RuntimeError} (h : r.read k = .error e) (default : Value) :
    r.get k = .error e ∧ r.getOr k default = .error e ∧ r.contains k = .error e := by
  simp [get, getOr, contains, h, Except.map]

theorem find?_of_read {v? : Option Value} (h : r.read k = .ok v?) : r.find? k = v? := by
  rw [find?, h]
  cases v? <;> rfl

theorem keys_filterMap_find? {ks : List Value} (h : ∀ k ∈ ks, ∃ v, r.find? k = some v) :
    (ks.filterMap fun k => (r.find? k).map fun v => (k, v)).map Prod.fst = ks := by
  induction ks with
  | nil => rfl
  | cons k ks ih =>
    obtain ⟨v, hv⟩ := h k List.mem_cons_self
    have htail := ih fun l hl => h l (List.mem_cons_of_mem _ hl)
    simpa [hv] using htail

/-- The entries are the keys in order, each with its value, if all keys are found. -/
theorem entries_of_find? (h : ∀ k ∈ r.keys, ∃ v, r.find? k = some v) :
    r.entries.map Prod.fst = r.keys ∧ ∀ e ∈ r.entries, r.find? e.1 = some e.2 := by
  constructor
  · exact keys_filterMap_find? h
  · intro e he
    obtain ⟨k, -, hk⟩ := List.mem_filterMap.1 he
    obtain ⟨v, hv, rfl⟩ := Option.map_eq_some_iff.1 hk
    exact hv

/-- All keys are found. -/
theorem exists_valueIn (hL : Exact L) (hk : k ∈ L.map Prod.fst) : ∃ v, valueIn L k = some v := by
  obtain ⟨slot, hslot, rfl⟩ := List.mem_map.1 hk
  have hexact := hL slot hslot
  have hholds : holds L slot.1 = true := List.any_eq_true.2 ⟨slot, hslot, Value.equal_self hexact.1 hexact.isNaN⟩
  rw [holds_eq_isSome] at hholds
  exact Option.isSome_iff_exists.1 hholds

theorem bind_asRecord?_iff {v? : Option Value} {id : RecordId} :
    v?.bind Value.asRecord? = some id ↔ v? = some (.record id) := by
  rcases v? with _ | v
  · simp
  · cases v <;> simp [Value.asRecord?]

theorem bind_asFunction?_iff {v? : Option Value} {id : FunctionId} :
    v?.bind Value.asFunction? = some id ↔ v? = some (.function id) := by
  rcases v? with _ | v
  · simp
  · cases v <;> simp [Value.asFunction?]

/-- A reserved text leads to its reserved symbol in every table that has grown from the first one. -/
theorem equal_reserved {t : SymbolTable} {id : Fin 4} (h : t.Issued (Symbol.reserved id)) (dotted : Bool) :
    (Value.symbol (t.makeSymbol dotted (Symbol.reserved id).name).1).equal (.symbol (Symbol.reserved id)) = true := by
  rw [h.makeSymbol dotted]
  exact beq_self_eq_true _

/-- **A record is a map that keeps the order of its keys.** After any calls on a new record that set no floats as keys:

* The keys are the first of each kind in the log of the calls, in the spelling that they were first set in, and no two of
  them are equal. Equal keys are of one variant, and texts are equal however they are written.
* The entries are the keys in order, each with the value that was last set for it.
* Every key that can be one has the value that was last set for a key equal to it, and is not found if there is none.
* Values that can be no key are refused, and leave the record as it is.
* The links are the last values of their keys, if these are of the right variant. To set the symbol of a reserved text is
  to set the link. -/
theorem ordered_of_calls (typeName : String) (calls : List Call) (hcalls : NoFloats calls) :
    let r := ({ typeName } : Record).applyAll calls
    let es := log calls
    (r.keys = (es.map Prod.fst).eraseDupsBy Value.equal ∧ (r.keys.Pairwise fun k l => k.equal l = false) ∧
      r.size = ((es.map Prod.fst).eraseDupsBy Value.equal).length) ∧
    ((∀ k l : Value, k.equal l = true → k.variant = l.variant) ∧
      ∀ s raw raw', (Value.text s raw).equal (.text s raw') = true) ∧
    (r.entries.map Prod.fst = r.keys ∧ ∀ e ∈ r.entries, lastOf es e.1 = some e.2) ∧
    (∀ k default, k.isKey = true →
      match lastOf es k with
      | some v => r.get k = .ok v ∧ r.getOr k default = .ok v ∧ r.contains k = .ok true
      | none => r.get k = .error (.keyNotFound (k.spell?.getD "")) ∧ r.getOr k default = .ok default ∧
          r.contains k = .ok false) ∧
    (∀ k v, k.isKey = true → ∃ r', r.set k v = .ok r') ∧
    (∀ k v, k.isKey = false → r.set k v = .error (.unhashableKey k.variant) ∧ r.apply (.set k v) = r ∧
      ∀ default, r.get k = .error (.unhashableKey k.variant) ∧
        r.getOr k default = .error (.unhashableKey k.variant) ∧ r.contains k = .error (.unhashableKey k.variant)) ∧
    ((∀ id, r.super? = some id ↔ lastOf es (.symbol Symbol.superKey) = some (.record id)) ∧
      (∀ id, r.parent? = some id ↔ lastOf es (.symbol Symbol.parentKey) = some (.record id)) ∧
      (∀ id, r.main? = some id ↔ lastOf es (.symbol Symbol.mainKey) = some (.function id)) ∧
      ∀ (t : SymbolTable) (id : Fin 4) (dotted : Bool), t.Issued (Symbol.reserved id) →
        (Value.symbol (t.makeSymbol dotted (Symbol.reserved id).name).1).equal (.symbol (Symbol.reserved id)) = true) := by
  intro r es
  have hes : Exact es := exact_log hcalls
  have hlists : Lists r (slotsOf es) := lists_applyAll typeName hcalls
  have hexact : Exact (slotsOf es) := exact_slotsOf hes
  have hread : ∀ k, k.isKey = true → r.read k = .ok (lastOf es k) := by
    intro k hk
    rw [hlists.read hexact hk, valueIn_slotsOf hes]
  have hfind : ∀ k, k.isKey = true → r.find? k = lastOf es k := fun k hk => find?_of_read (hread k hk)
  have hkeys : r.keys = (es.map Prod.fst).eraseDupsBy Value.equal := hlists.keys.trans (keys_slotsOf hes)
  have hfound : ∀ k ∈ r.keys, k.isKey = true ∧ ∃ v, r.find? k = some v := by
    intro k hk
    rw [hlists.keys] at hk
    obtain ⟨slot, hslot, rfl⟩ := List.mem_map.1 hk
    have hkey : slot.1.isKey = true := (hexact slot hslot).1
    refine ⟨hkey, ?_⟩
    rw [hfind _ hkey, ← valueIn_slotsOf hes]
    exact exists_valueIn hexact hk
  obtain ⟨hentriesKeys, hentriesValues⟩ := entries_of_find? fun k hk => (hfound k hk).2
  refine ⟨⟨hkeys, ?_, congrArg List.length hkeys⟩, ⟨fun k l => Value.variant_of_equal, ?_⟩, ⟨hentriesKeys, ?_⟩, ?_, ?_, ?_,
    ?_, ?_, ?_, fun t id dotted h => equal_reserved h dotted⟩
  · rw [hlists.keys]
    exact pairwise_slotsOf hes
  · intro s raw raw'
    exact beq_self_eq_true s
  · intro e he
    have hmem : e.1 ∈ r.keys := hentriesKeys ▸ List.mem_map_of_mem he
    rw [← hfind _ (hfound e.1 hmem).1]
    exact hentriesValues e he
  · intro k default hk
    have hvalue := hread k hk
    cases hlast : lastOf es k with
    | some v => exact reads_of_some (hlast ▸ hvalue) default
    | none => exact reads_of_none (hlast ▸ hvalue) default
  · intro k v hk
    obtain ⟨r', hset, -⟩ := hlists.set hexact hk v
    exact ⟨r', hset⟩
  · intro k v hk
    have hnot : ¬k.isKey = true := by simp [hk]
    refine ⟨set_of_not_isKey r hnot v, ?_, fun default => reads_of_error (read_of_not_isKey r hnot) default⟩
    simp only [apply, set_of_not_isKey r hnot v]
  · intro id
    rw [super?, hfind _ (isKey_symbol _)]
    exact bind_asRecord?_iff
  · intro id
    rw [parent?, hfind _ (isKey_symbol _)]
    exact bind_asRecord?_iff
  · intro id
    rw [main?, hfind _ (isKey_symbol _)]
    exact bind_asFunction?_iff

/-- A text that is set again, written otherwise, is the same key: it keeps its place and its first spelling. -/
theorem ordered_of_calls_spellings :
    let calls := [Call.set (.text "a" true) (.int 1), .setSuper ⟨7⟩, .set (.text "a" false) (.int 2),
      .set (.array []) (.int 3)]
    let r := ({ typeName := "T" } : Record).applyAll calls
    NoFloats calls ∧ r.keys = [.text "a" true, .symbol Symbol.superKey] ∧ r.get (.text "a" true) = .ok (.int 2) ∧
      r.super? = some ⟨7⟩ := by
  intro calls r
  have hcalls : NoFloats calls := by
    intro call hcall e he
    simp only [calls, List.mem_cons, List.not_mem_nil, or_false] at hcall
    rcases hcall with rfl | rfl | rfl | rfl <;> cases he <;> decide
  obtain ⟨⟨hkeys, -⟩, -, -, hreads, -, -, hsuper, -⟩ := ordered_of_calls "T" calls hcalls
  refine ⟨hcalls, ?_, ?_, (hsuper ⟨7⟩).2 ?_⟩
  · rw [hkeys]
    rfl
  · exact (hreads (.text "a" true) .null rfl).1
  · rfl

end Zygo.Record
