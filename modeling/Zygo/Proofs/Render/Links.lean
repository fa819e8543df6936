import Zygo.Proofs.Record.Finding
import Zygo.Proofs.Render.Loops
import Zygo.Proofs.Session.Dispatch

/-!
# Links are never shown

The entries of a record under the reserved keys share its buckets and the order of its keys with all others, but its
text leaves them out. Two records are shown alike if they differ in these entries at most (`Record.ShowsLike`). A call
that sets a link leads to a record that is shown like the one before, and any other call on both keeps two records shown
alike. So records that have gone through the same calls, but for the links, are shown alike in the end
(`Store.ShowsLike.callRecords`).

Functions and packages have no such links: what they show is all shown, and among themselves they may have no end.

* `links_never_show`: which records have a text, and that links change neither the texts nor what objects show.
* `not_rendered_without_record_loops`: that no record reaches itself is not enough for a text.
-/

namespace Zygo

namespace Value

variable {k l : Value}

/-- Keys of links equal none but keys of links. -/
theorem isShownKey_of_equal (h : k.equal l = true) (hk : k.isShownKey = false) : l.isShownKey = false := by
  cases k with
  | symbol x =>
    cases l with
    | symbol y =>
      have hid : x.id = y.id := eq_of_beq h
      rw [isShownKey, Symbol.isReserved] at hk ⊢
      rwa [← hid]
    | _ => cases h
  | _ => cases hk

theorem sameKey_of_isShownKey (hk : k.isShownKey = false) (hl : l.isShownKey = true) : k.sameKey l = false := by
  cases heq : k.equal l with
  | true => rw [isShownKey_of_equal heq hk] at hl; cases hl
  | false => rw [sameKey, heq, Bool.false_and]

end Value

/-! ## Records -/

namespace Record

variable {r r' : Record} {k v : Value} {call : Call}

/-- Whether a call does not set a link. -/
def Call.isOrdinary (call : Call) : Bool :=
  match call.slot? with
  | some e => e.1.isShownKey
  | none => true

/-- Two records that are shown alike: but for the links, they have the same keys in the same order, and the same values. -/
structure ShowsLike (r r' : Record) : Prop where
  typeName : r.typeName = r'.typeName
  keys : r.keys.filter Value.isShownKey = r'.keys.filter Value.isShownKey
  read : ∀ k, k.isShownKey = true → r.read k = r'.read k

theorem ShowsLike.refl (r : Record) : r.ShowsLike r :=
  ⟨rfl, rfl, fun _ _ => rfl⟩

theorem ShowsLike.trans {r'' : Record} (h : r.ShowsLike r') (h' : r'.ShowsLike r'') : r.ShowsLike r'' where
  typeName := h.typeName.trans h'.typeName
  keys := h.keys.trans h'.keys
  read k hk := (h.read k hk).trans (h'.read k hk)

/-- The entries that are shown are those of the keys that are shown. -/
theorem shownEntries_eq (r : Record) :
    r.shownEntries = (r.keys.filter Value.isShownKey).filterMap fun k => (r.find? k).map fun v => (k, v) := by
  rw [shownEntries, entries]
  induction r.keys with
  | nil => rfl
  | cons k ks ih =>
    rw [List.filterMap_cons, List.filter_cons]
    cases hk : k.isShownKey <;> cases hfind : r.find? k <;> simp [hk, hfind, ih]

theorem ShowsLike.find? (h : r.ShowsLike r') (hk : k.isShownKey = true) : r.find? k = r'.find? k := by
  rw [Record.find?, Record.find?, h.read k hk]

theorem ShowsLike.shownEntries (h : r.ShowsLike r') : r.shownEntries = r'.shownEntries := by
  rw [shownEntries_eq, shownEntries_eq, h.keys]
  refine List.filterMap_congr fun k hk => ?_
  rw [h.find? (List.mem_filter.1 hk).2]

theorem typeName_set (h : r.set k v = .ok r') : r'.typeName = r.typeName := by
  obtain ⟨hash, hhash⟩ := exists_hash? (isKey_of_set h)
  rw [r.set_eq hhash] at h
  obtain rfl := Except.ok.inj h
  rfl

/-- Records that are shown alike stay so when a key is set that is shown. -/
theorem ShowsLike.set (h : r.ShowsLike r') (hk : k.isShownKey = true) (v : Value) :
    ((r.set k v).toOption.getD r).ShowsLike ((r'.set k v).toOption.getD r') := by
  by_cases hkey : k.isKey
  · obtain ⟨t, hset, hkeys, hread⟩ := r.set_spec hkey v
    obtain ⟨t', hset', hkeys', hread'⟩ := r'.set_spec hkey v
    rw [hset, hset']
    constructor
    · exact (typeName_set hset).trans (h.typeName.trans (typeName_set hset').symm)
    · show t.keys.filter _ = t'.keys.filter _
      rw [hkeys, hkeys', h.find? hk]
      split
      · exact h.keys
      · rw [List.filter_append, List.filter_append, h.keys]
    · intro l hl
      show t.read l = t'.read l
      rw [hread, hread', h.read l hl]
  · rw [set_of_not_isKey r hkey, set_of_not_isKey r' hkey]
    exact h

/-- A link that is set changes nothing that is shown. -/
theorem showsLike_link (r : Record) (hk : k.isShownKey = false) (v : Value) :
    ((r.set k v).toOption.getD r).ShowsLike r := by
  by_cases hkey : k.isKey
  · obtain ⟨t, hset, hkeys, hread⟩ := r.set_spec hkey v
    rw [hset]
    constructor
    · exact typeName_set hset
    · show t.keys.filter _ = _
      rw [hkeys]
      split
      · rfl
      · simp [hk]
    · intro l hl
      show t.read l = _
      rw [hread, Value.sameKey_of_isShownKey hk hl, if_neg Bool.false_ne_true]
  · rw [set_of_not_isKey r hkey]
    exact .refl r

/-- Records that are shown alike stay so by calls that set no links. -/
theorem ShowsLike.apply (h : r.ShowsLike r') (hcall : call.isOrdinary = true) :
    (r.apply call).ShowsLike (r'.apply call) := by
  cases hslot : call.slot? with
  | none =>
    cases call with
    | addMethod x f => exact ⟨h.typeName, h.keys, h.read⟩
    | set | bind | setParent | setSuper | setMain => cases hslot
  | some e =>
    rw [Call.isOrdinary, hslot] at hcall
    rw [apply_of_slot? hslot, apply_of_slot? hslot]
    exact h.set hcall e.2

/-- A call that sets a link changes nothing that is shown. -/
theorem showsLike_apply (r : Record) (hcall : call.isOrdinary = false) : (r.apply call).ShowsLike r := by
  cases hslot : call.slot? with
  | none =>
    rw [Call.isOrdinary, hslot] at hcall
    cases hcall
  | some e =>
    rw [Call.isOrdinary, hslot] at hcall
    rw [apply_of_slot? hslot]
    exact r.showsLike_link hcall e.2

end Record

/-! ## Stores -/

namespace Store

open Relation (TransGen ReflTransGen)

variable {s t : Store}

/-- Something is done to a record, if the store holds it. -/
def callRecord (s : Store) (call : RecordId × Record.Call) : Store :=
  s.setRecord call.1 ((s.record call.1).apply call.2)

/-- Things are done to records in order. -/
def callRecords (s : Store) (calls : List (RecordId × Record.Call)) : Store :=
  calls.foldl callRecord s

/-- Two stores that are shown alike: they hold the same objects, but for the links of their records. -/
structure ShowsLike (s t : Store) : Prop where
  functions : s.functions = t.functions
  packages : s.packages = t.packages
  size : s.records.size = t.records.size
  record : ∀ r, (s.record r).ShowsLike (t.record r)

theorem ShowsLike.refl (s : Store) : s.ShowsLike s :=
  ⟨rfl, rfl, rfl, fun r => .refl (s.record r)⟩

theorem ShowsLike.trans {u : Store} (h : s.ShowsLike t) (h' : t.ShowsLike u) : s.ShowsLike u where
  functions := h.functions.trans h'.functions
  packages := h.packages.trans h'.packages
  size := h.size.trans h'.size
  record r := (h.record r).trans (h'.record r)

theorem ShowsLike.function (h : s.ShowsLike t) (id : FunctionId) : s.function id = t.function id := by
  rw [Store.function, Store.function, h.functions]

theorem ShowsLike.package (h : s.ShowsLike t) (id : PackageId) : s.package id = t.package id := by
  rw [Store.package, Store.package, h.packages]

theorem ShowsLike.shownBy (h : s.ShowsLike t) (o : Shown) : s.shownBy o = t.shownBy o := by
  cases o with
  | function id => rw [Store.shownBy, Store.shownBy, h.function]
  | record id => rw [Store.shownBy, Store.shownBy, (h.record id).shownEntries]
  | package id => rw [Store.shownBy, Store.shownBy, h.package]

theorem ShowsLike.renderObject (h : s.ShowsLike t) (object : Shown → Option String) (o : Shown) :
    s.renderObject object o = t.renderObject object o := by
  cases o with
  | function id => rw [Store.renderObject, Store.renderObject, h.function]
  | record id =>
    have hentries := (h.record id).shownEntries
    rw [Record.shownEntries, Record.shownEntries] at hentries
    simp only [Store.renderObject, hentries, (h.record id).typeName]
  | package id => simp only [Store.renderObject, h.package]

/-- Texts that are put together alike are the same. -/
theorem textOf?_congr (h : ∀ object o, s.renderObject object o = t.renderObject object o) {o : Shown} {text : String}
    (ho : s.textOf? o = some text) : t.textOf? o = some text := by
  refine textOf?.partial_correctness s (fun o text => t.textOf? o = some text) ?_ o text ho
  intro known hknown o text hobject
  rw [h] at hobject
  rw [textOf?]
  exact renderObject_mono hknown hobject

/-- Stores that are shown alike have the same texts. -/
theorem ShowsLike.textOf? (h : s.ShowsLike t) (o : Shown) : s.textOf? o = t.textOf? o := by
  refine Option.ext fun text => ⟨textOf?_congr h.renderObject, textOf?_congr fun object o => ?_⟩
  exact (h.renderObject object o).symm

theorem ShowsLike.render? (h : s.ShowsLike t) (v : Value) : s.render? v = t.render? v := by
  rw [Store.render?, Store.render?, funext h.textOf?]

/-! ### Calls on records -/

theorem callRecord_of_not_lt {call : RecordId × Record.Call} (h : ¬call.1.index < s.records.size) :
    s.callRecord call = s := by
  rw [callRecord, setRecord, Array.setIfInBounds_eq_of_size_le (Nat.not_lt.1 h)]

theorem size_callRecord (s : Store) (call : RecordId × Record.Call) :
    (s.callRecord call).records.size = s.records.size :=
  Array.size_setIfInBounds

theorem record_callRecord {call : RecordId × Record.Call} (h : call.1.index < s.records.size) (r : RecordId) :
    (s.callRecord call).record r = if r = call.1 then (s.record call.1).apply call.2 else s.record r :=
  record_setRecord h _ r

/-- Stores that are shown alike stay so by a call on both that sets no link. -/
theorem ShowsLike.callRecord {call : RecordId × Record.Call} (h : s.ShowsLike t) (hcall : call.2.isOrdinary = true) :
    (s.callRecord call).ShowsLike (t.callRecord call) := by
  by_cases hlt : call.1.index < s.records.size
  · refine ⟨h.functions, h.packages, ?_, fun r => ?_⟩
    · rw [size_callRecord, size_callRecord, h.size]
    · rw [record_callRecord hlt, record_callRecord (h.size ▸ hlt)]
      split
      · exact (h.record call.1).apply hcall
      · exact h.record r
  · rw [callRecord_of_not_lt hlt, callRecord_of_not_lt (h.size ▸ hlt)]
    exact h

/-- A call that sets a link changes nothing that is shown. -/
theorem showsLike_callRecord (s : Store) {call : RecordId × Record.Call} (hcall : call.2.isOrdinary = false) :
    (s.callRecord call).ShowsLike s := by
  by_cases hlt : call.1.index < s.records.size
  · refine ⟨rfl, rfl, s.size_callRecord call, fun r => ?_⟩
    rw [record_callRecord hlt]
    split
    · rename_i heq
      subst heq
      exact (s.record call.1).showsLike_apply hcall
    · exact .refl (s.record r)
  · rw [callRecord_of_not_lt hlt]
    exact .refl s

/-- Calls lead to a store that is shown like the one that the ordinary ones among them lead to. -/
theorem ShowsLike.callRecords (h : s.ShowsLike t) (calls : List (RecordId × Record.Call)) :
    (s.callRecords calls).ShowsLike (t.callRecords (calls.filter fun call => call.2.isOrdinary)) := by
  induction calls generalizing s t with
  | nil => exact h
  | cons call calls ih =>
    cases hcall : call.2.isOrdinary with
    | true =>
      rw [List.filter_cons, if_pos hcall]
      exact ih (h.callRecord hcall)
    | false =>
      rw [List.filter_cons, hcall, if_neg Bool.false_ne_true]
      exact ih ((s.showsLike_callRecord hcall).trans h)

/-- **Links never show.** For records whose links may lead anywhere:

* Every record has a text, if no record reaches itself by what is shown, and no function or package does so without a
  record in between.
* More exactly, a record has a text just if neither it nor anything that it reaches reaches itself.
* Of calls on records, in any number and order, the ordinary ones alone lead to the same texts of all values, or to none
  of both; to the same shown entries of every record, in the same order; and to the same objects being shown by each
  object. -/
theorem links_never_show (s : Store) :
    ((∀ r, ¬s.Reaches (.record r) (.record r)) → (∀ o, ¬TransGen s.ShowsNoRecord o o) →
      ∀ r, ∃ text, s.render? (.record r) = some text) ∧
    (∀ r, (∃ text, s.render? (.record r) = some text) ↔
      ∀ o, ReflTransGen s.Shows (.record r) o → ¬s.Reaches o o) ∧
    ∀ calls : List (RecordId × Record.Call),
      let linked := s.callRecords calls
      let ordinary := s.callRecords (calls.filter fun call => call.2.isOrdinary)
      (∀ v, linked.render? v = ordinary.render? v) ∧
        (∀ r, (linked.record r).shownEntries = (ordinary.record r).shownEntries) ∧
        ∀ o, linked.shownBy o = ordinary.shownBy o := by
  have hexact : ∀ r, (∃ text, s.render? (.record r) = some text) ↔
      ∀ o, ReflTransGen s.Shows (.record r) o → ¬s.Reaches o o := by
    intro r
    simp only [exists_render?_iff, shownIn_record]
  refine ⟨fun hrecords hothers r => ?_, hexact, fun calls => ?_⟩
  · exact (hexact r).2 fun o _ => not_reaches_self hrecords hothers o
  · have halike := (ShowsLike.refl s).callRecords calls
    exact ⟨halike.render?, fun r => (halike.record r).shownEntries, halike.shownBy⟩

/-- Two records, the first of which holds the other in an array. The first is its own parent and has a main function that
was made from the record itself; each is the other's super record. More links are set, and an ordinary key among them. -/
theorem links_never_show_cyclic :
    let main := { Function.ofHost "main" 0 true .nothing with source? := some (.record ⟨0⟩) }
    let first := ({ typeName := "A" } : Record).applyAll
      [.setMain ⟨0⟩, .set (.text "k" false) (.array [.record ⟨1⟩]), .setParent ⟨0⟩, .setSuper ⟨1⟩]
    let second := ({ typeName := "B" } : Record).applyAll [.setSuper ⟨0⟩]
    let s : Store := { functions := #[main], records := #[first, second] }
    let key := Value.text "l" false
    let linked := s.callRecords
      [(⟨1⟩, .setParent ⟨1⟩), (⟨0⟩, .setParent ⟨1⟩), (⟨1⟩, .set key (.int 1)), (⟨1⟩, .setMain ⟨0⟩), (⟨1⟩, .setSuper ⟨1⟩)]
    let ordinary := s.callRecords [(⟨1⟩, .set key (.int 1))]
    (∀ r, ¬s.Reaches (.record r) (.record r)) ∧ (∀ o, ¬TransGen s.ShowsNoRecord o o) ∧
      (∃ text, s.render? (.record ⟨0⟩) = some text) ∧ s.render? (.record ⟨0⟩) = some "(A \"k\":[(B)])" ∧
      linked.render? (.record ⟨1⟩) = ordinary.render? (.record ⟨1⟩) ∧
      (linked.record ⟨1⟩).shownEntries = (ordinary.record ⟨1⟩).shownEntries := by
  intro main first second s key linked ordinary
  have hsecond : s.textOf? (.record ⟨1⟩) = some "(B)" := by
    rw [textOf?]
    rfl
  have hfirst : s.textOf? (.record ⟨0⟩) = some "(A \"k\":[(B)])" := by
    rw [textOf?]
    refine @renderObject_mono s (fun o => if o = .record ⟨1⟩ then some "(B)" else none) s.textOf? (fun o text ho => ?_)
      (.record ⟨0⟩) _ rfl
    split at ho <;> cases ho
    simpa only [‹o = _›] using hsecond
  have hmain : (s.textOf? (.function ⟨0⟩)).isSome := by
    refine (s.isSome_textOf? _).2 fun o ho => ?_
    obtain rfl := List.mem_singleton.1 (show o ∈ [.record ⟨0⟩] from ho)
    rw [hfirst, Option.isSome_some]
  -- All three objects have texts, so that none of them reaches itself.
  have hloops : ∀ o, ¬s.Reaches o o := by
    intro o ho
    obtain ⟨p, hop, -⟩ := TransGen.head'_iff.1 ho
    have htext : ∀ p ∈ [Shown.function ⟨0⟩, .record ⟨0⟩, .record ⟨1⟩], (s.textOf? p).isSome := by
      simp [hmain, hfirst, hsecond]
    exact isSome_textOf?_iff.1 (htext o hop.mem_objects) o .refl ho
  have hothers : ∀ o, ¬TransGen s.ShowsNoRecord o o := fun o h => hloops o (TransGen.mono (fun _ _ hop => hop.1) _ _ h)
  obtain ⟨hends, -, hcalls⟩ := links_never_show s
  obtain ⟨hlinked, hentries, -⟩ := hcalls
    [(⟨1⟩, .setParent ⟨1⟩), (⟨0⟩, .setParent ⟨1⟩), (⟨1⟩, .set key (.int 1)), (⟨1⟩, .setMain ⟨0⟩), (⟨1⟩, .setSuper ⟨1⟩)]
  refine ⟨fun r => hloops (.record r), hothers, hends (fun r => hloops (.record r)) hothers ⟨0⟩, ?_, hlinked _, hentries _⟩
  simp [Store.render?, Value.renderWith, Value.writeWith, hfirst, Value.writeText, Value.openTail, Value.closeTail]

/-- A record may have no text though no record reaches itself: this one holds a package that exports a function whose form
is the package. -/
theorem not_rendered_without_record_loops :
    ¬∀ s : Store, (∀ r, ¬s.Reaches (.record r) (.record r)) → ∀ r, ∃ text, s.render? (.record r) = some text := by
  intro h
  let f := { Function.ofHost "f" 0 true .nothing with source? := some (.package ⟨0⟩) }
  let r := ({ typeName := "T" } : Record).applyAll [.set (.text "a" false) (.package ⟨0⟩)]
  let s : Store := { functions := #[f], records := #[r], packages := #[({ name := "p" } : Package).add "f" ⟨0⟩] }
  have hrecord : s.Shows (.record ⟨0⟩) (.package ⟨0⟩) := List.mem_singleton.2 rfl
  have hfunction : s.Shows (.function ⟨0⟩) (.package ⟨0⟩) := List.mem_singleton.2 rfl
  have hpackage : s.Shows (.package ⟨0⟩) (.function ⟨0⟩) :=
    List.mem_map.2 ⟨("f", ⟨0⟩), (List.mergeSort_perm _ _).mem_iff.2 (List.mem_singleton.2 rfl), rfl⟩
  have hnone : ∀ o r, ¬s.Shows o (.record r) := by
    intro o r hor
    have ho : o ∈ [Shown.function ⟨0⟩, .record ⟨0⟩, .package ⟨0⟩] := hor.mem_objects
    simp only [List.mem_cons, List.not_mem_nil, or_false] at ho
    obtain rfl | rfl | rfl := ho
    · cases List.mem_singleton.1 (show Shown.record r ∈ [.package ⟨0⟩] from hor)
    · cases List.mem_singleton.1 (show Shown.record r ∈ [.package ⟨0⟩] from hor)
    · obtain ⟨_, -, he⟩ := List.mem_map.1 hor
      cases he
  have hrecords : ∀ r, ¬s.Reaches (.record r) (.record r) := by
    intro r hr
    obtain ⟨o, -, hor⟩ := TransGen.tail'_iff.1 hr
    exact hnone o r hor
  exact exists_render?_iff.1 (h s hrecords ⟨0⟩) (.package ⟨0⟩) (shownIn_record.2 (.single hrecord))
    ((TransGen.single hpackage).tail hfunction)

end Store

end Zygo
