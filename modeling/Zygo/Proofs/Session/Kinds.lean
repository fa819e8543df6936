import Zygo.Proofs.Session.Types

/-!
# Kinds of types

Scalar types, types of arrays and types of records share one name space, and the first to come by a name keeps it. So the
kind of a type does not follow from the value that has it: it follows from the call that took the name. Every entry of a
registry without a bridge has an origin in the calls (`Session.Origin`), and a record type is found under a name just when
it was declared while the name was free (`Session.Declared`).

Types may also come from elsewhere, as what bytes or types as values bring along. A type of the registry is the only one
of its name there, so as long as no others are brought (`Session.Domestic`), the elements of a slice type are told by its
name.

* `types_sound`: the kinds of the types of arrays and of records, after any calls.
-/

namespace Zygo

/-- What a type describes. -/
inductive TypeKind where
  | builtin
  | slice (elem : TypeHandle)
  | record
  | native
  deriving DecidableEq, Repr

/-- What a type describes. -/
def TypeHandle.kind : TypeHandle → TypeKind
  | builtin .. => .builtin
  | slice _ elem _ => .slice elem
  | record .. => .record
  | native .. => .native

/-- The type that a value brings along: that of bytes, and a type as a value. An array has it from its first element. -/
def Value.broughtType? : Value → Option TypeHandle
  | bytes _ type? => type?
  | type t => some t
  | array (first :: _) => first.broughtType?
  | _ => none

/-! ## What is added to a registry -/

namespace TypeRegistry

variable {r r' r'' : TypeRegistry} {name : String} {t type elem : TypeHandle}

theorem sliceName_inj {elem elem' : TypeHandle} (h : sliceName elem = sliceName elem') : elem.name = elem'.name := by
  simpa [sliceName] using h

/-- Registering adds one entry at most, under a name that was free. -/
theorem get?_register_cases {n : String} (h : (r.register name type).2.get? n = some t) :
    r.get? n = some t ∨ r.get? name = none ∧ n = name ∧ t = type.numbered r.size := by
  cases hname : r.get? name with
  | some found =>
    rw [register_of_get? hname] at h
    exact .inl h
  | none =>
    simp only [register, hname] at h
    rw [get?, List.lookup_append, Option.or_eq_some_iff, List.lookup_cons] at h
    rcases h with h | ⟨-, h⟩
    · exact .inl h
    · split at h
      · rename_i hn
        exact .inr ⟨rfl, eq_of_beq hn, (Option.some.inj h).symm⟩
      · cases h

theorem bridge?_register (r : TypeRegistry) (name : String) (type : TypeHandle) :
    (r.register name type).2.bridge? = r.bridge? := by
  rw [register]
  split <;> rfl

/-- All that is new are types of slices, each under its name. -/
def AddsSlices (r r' : TypeRegistry) : Prop :=
  r'.bridge? = r.bridge? ∧ ∀ name t, r'.get? name = some t →
    r.get? name = some t ∨ ∃ elem number, name = sliceName elem ∧ t = .slice name elem number

theorem AddsSlices.refl (r : TypeRegistry) : r.AddsSlices r :=
  ⟨rfl, fun _ _ h => .inl h⟩

theorem AddsSlices.trans (h : r.AddsSlices r') (h' : r'.AddsSlices r'') : r.AddsSlices r'' := by
  refine ⟨h'.1.trans h.1, fun name t ht => ?_⟩
  rcases h'.2 name t ht with ht | hslice
  · exact h.2 name t ht
  · exact .inr hslice

theorem addsSlices_sliceOf (r : TypeRegistry) (elem : TypeHandle) : r.AddsSlices (r.sliceOf elem).2 := by
  refine ⟨r.bridge?_register _ _, fun name t ht => ?_⟩
  rcases get?_register_cases ht with ht | ⟨-, rfl, rfl⟩
  · exact .inl ht
  · exact .inr ⟨elem, r.size, rfl, rfl⟩

/-- Without a bridge, resolving a name registers nothing. -/
theorem resolveNative_of_no_bridge (h : r.bridge? = none) (name : String) :
    r.resolveNative name = (r.get? name, r) := by
  cases hname : r.get? name <;> simp [resolveNative, hname, h]

/-- A type of the registry: the one that it has under the type's name. -/
def Has (r : TypeRegistry) (t : TypeHandle) : Prop :=
  r.get? t.name = some t

/-- Types are registered under their names, and the elements of slices are types of the registry. -/
structure Closed (r : TypeRegistry) : Prop where
  named : ∀ name t, r.get? name = some t → t.name = name
  elem : ∀ name t elem, r.get? name = some t → t.kind = .slice elem → r.Has elem

theorem Closed.has (h : r.Closed) (ht : r.get? name = some t) : r.Has t := by
  rw [Has, h.named name t ht]
  exact ht

@[simp] theorem name_numbered (number : Nat) (t : TypeHandle) : (t.numbered number).name = t.name := by
  cases t <;> rfl

@[simp] theorem kind_numbered (number : Nat) (t : TypeHandle) : (t.numbered number).kind = t.kind := by
  cases t <;> rfl

theorem Closed.register (h : r.Closed) (type : TypeHandle) (helem : ∀ elem, type.kind = .slice elem → r.Has elem) :
    (r.register type.name type).2.Closed := by
  have hext := r.extends_register type.name type
  constructor
  · intro name t ht
    rcases get?_register_cases ht with ht | ⟨-, rfl, rfl⟩
    · exact h.named name t ht
    · simp
  · intro name t elem ht hkind
    rcases get?_register_cases ht with ht | ⟨-, rfl, rfl⟩
    · exact hext _ _ (h.elem name t elem ht hkind)
    · exact hext _ _ (helem elem (by simpa using hkind))

theorem Closed.sliceOf (h : r.Closed) (helem : r.Has elem) : (r.sliceOf elem).2.Closed := by
  refine h.register (.slice (sliceName elem) elem) fun elem' hkind => ?_
  cases hkind
  exact helem

end TypeRegistry

namespace Store

open TypeRegistry

variable {s : Store} {types : TypeRegistry} {v first : Value} {t elem : TypeHandle}

/-- Asking for a type adds types of slices only. -/
theorem addsSlices_typeOf (s : Store) (h : types.bridge? = none) (v : Value) :
    types.AddsSlices (s.typeOf types v).2.2 := by
  fun_induction Store.typeOf s types v with
  | case8 first rest _ elem s' types' hfirst type types'' hslice ih =>
    have hadds := types'.addsSlices_sliceOf elem
    rw [hfirst] at ih
    rw [hslice] at hadds
    exact ih.trans hadds
  | case9 first rest _ s' types' hfirst ih => rwa [hfirst] at ih
  | case11 object type? types' hresolve =>
    rw [resolveNative_of_no_bridge h] at hresolve
    cases hresolve
    exact .refl types
  | _ => exact .refl types

/-- An array has the type that is registered, then if not before, for slices of its first element's type. -/
theorem typeOf_array (h : s.Coherent types) (hfirst : (s.typeOf types first).1 = some elem) (rest : List Value) :
    ∃ t, (s.typeOf types (.array (first :: rest))).1 = some t ∧
      s.knownType (s.typeOf types (.array (first :: rest))).2.2 first = some elem ∧
      (s.typeOf types (.array (first :: rest))).2.2.get? (sliceName elem) = some t := by
  cases hremembered : s.remembered? (.array (first :: rest)) with
  | some t =>
    obtain ⟨elem', helem, ht⟩ := Option.bind_eq_some_iff.1 (h.knownType_of_remembered? hremembered)
    obtain rfl : elem = elem' := Option.some.inj (hfirst.symm.trans (typeOf_of_knownType h helem))
    simp only [typeOf, hremembered]
    exact ⟨t, rfl, helem, ht⟩
  | none =>
    have hknown := (typeOf_spec h first).2.2 elem hfirst
    generalize hasked : s.typeOf types first = asked at hfirst hknown
    obtain ⟨elem?, s', types'⟩ := asked
    obtain rfl : elem? = some elem := hfirst
    have hext := types'.extends_register (sliceName elem) (.slice (sliceName elem) elem)
    have hget := types'.get?_register (sliceName elem) (.slice (sliceName elem) elem)
    simp only [typeOf, hremembered, hasked]
    exact ⟨_, rfl, knownType_mono hext hknown, hget⟩

/-- In a closed registry, the known type of a value is a type of the registry, if the value brings along none but such. -/
theorem has_of_knownType (h : types.Closed) (hv : ∀ t, v.broughtType? = some t → types.Has t)
    (ht : s.knownType types v = some t) : types.Has t := by
  cases v with
  | bytes | type => exact hv t ht
  | array items =>
    cases items with
    | nil => cases ht
    | cons first rest =>
      obtain ⟨elem, -, ht⟩ := Option.bind_eq_some_iff.1 ht
      exact h.has ht
  | symbol | sentinel | pair | function | package | error => cases ht
  | int | float | bool | char | text | record | host => exact h.has ht

/-- A registry stays closed when it is asked for the type of a value that brings along types of the registry only. -/
theorem closed_typeOf (hbridge : types.bridge? = none) (hs : s.Coherent types) (h : types.Closed)
    (hv : ∀ t, v.broughtType? = some t → types.Has t) : (s.typeOf types v).2.2.Closed := by
  fun_induction Store.typeOf s types v with
  | case8 first rest _ elem s' types' hfirst type types'' hslice ih =>
    have hclosed := ih hv
    obtain ⟨hext, -, hknown⟩ := typeOf_spec hs first
    rw [hfirst] at hclosed hext hknown
    have helem := has_of_knownType (v := first) hclosed (fun t ht => hext _ _ (hv t ht)) (hknown elem rfl)
    have hclosed' := hclosed.sliceOf helem
    rwa [hslice] at hclosed'
  | case9 first rest _ s' types' hfirst ih =>
    have hclosed := ih hv
    rwa [hfirst] at hclosed
  | case11 object type? types' hresolve =>
    rw [resolveNative_of_no_bridge hbridge] at hresolve
    cases hresolve
    exact h
  | _ => exact h

end Store

/-! ## Calls -/

namespace Session

open TypeRegistry

/-- Calls that bring in the types of records and of arrays only. -/
def TypeCall.isPlain : TypeCall → Bool
  | .register .. | .setBridge _ => false
  | _ => true

/-- The types that a call is given, by themselves or with a value. -/
def TypeCall.given : TypeCall → List TypeHandle
  | .sliceOf elem => [elem]
  | .typeOf v => v.broughtType?.toList
  | _ => []

/-- Whether calls are given no types but those that the registry has by then. -/
def Domestic (s : Session) : List TypeCall → Prop
  | [] => True
  | call :: past => Domestic s past ∧ ∀ t ∈ call.given, (afterTypes s past).types.Has t

/-- Whether a record type was declared under a name while the name was free. -/
def Declared (s : Session) : List TypeCall → String → Prop
  | [], _ => False
  | .registerRecord n :: past, name => Declared s past name ∨ n = name ∧ (afterTypes s past).types.get? name = none
  | _ :: past, name => Declared s past name

/-- How a name can have come by a type. -/
inductive Origin (s : Session) (history : List TypeCall) : String → TypeHandle → Prop
  | builtin {name : String} (number : Nat) : name ∈ builtinNames → Origin s history name (.builtin name number)
  | slice (elem : TypeHandle) (number : Nat) : Origin s history (sliceName elem) (.slice (sliceName elem) elem number)
  | record {name : String} (number : Nat) : Declared s history name → Origin s history name (.record name number)

variable {s : Session} {history : List TypeCall} {name : String} {t : TypeHandle}

theorem Declared.of_past (h : Declared s history name) (call : TypeCall) : Declared s (call :: history) name := by
  cases call with
  | registerRecord => exact .inl h
  | _ => exact h

theorem Origin.of_past (h : Origin s history name t) (call : TypeCall) : Origin s (call :: history) name t := by
  cases h with
  | builtin number hname => exact .builtin number hname
  | slice elem number => exact .slice elem number
  | record number hname => exact .record number (hname.of_past call)

/-- Without a bridge, every type has its origin in the calls. -/
structure Accounted (s : Session) (history : List TypeCall) : Prop where
  bridge : (afterTypes s history).types.bridge? = none
  origin : ∀ name t, (afterTypes s history).types.get? name = some t → Origin s history name t

theorem Accounted.of_addsSlices (h : Accounted s history) {call : TypeCall}
    (hadds : (afterTypes s history).types.AddsSlices (afterTypes s (call :: history)).types) :
    Accounted s (call :: history) := by
  refine ⟨hadds.1.trans h.bridge, fun name t ht => ?_⟩
  rcases hadds.2 name t ht with ht | ⟨elem, number, rfl, rfl⟩
  · exact (h.origin name t ht).of_past call
  · exact .slice elem number

theorem accounted_call (h : Accounted s history) {call : TypeCall} (hcall : call.isPlain = true) :
    Accounted s (call :: history) := by
  cases call with
  | register | setBridge => cases hcall
  | registerRecord n =>
    refine ⟨(bridge?_register _ _ _).trans h.bridge, fun name t ht => ?_⟩
    rcases get?_register_cases ht with ht | ⟨hfree, rfl, rfl⟩
    · exact (h.origin name t ht).of_past _
    · exact .record _ (.inr ⟨rfl, hfree⟩)
  | sliceOf elem => exact h.of_addsSlices (addsSlices_sliceOf _ elem)
  | resolveNative n =>
    refine h.of_addsSlices ?_
    rw [afterTypes, callTypes, resolveNative_of_no_bridge h.bridge]
    exact .refl _
  | typeOf v => exact h.of_addsSlices (Store.addsSlices_typeOf _ h.bridge v)
  | restore => exact h.of_addsSlices (.refl _)

/-- Calls on the types of a new session that bring in the types of records and of arrays only. -/
structure Plain (s : Session) (history : List TypeCall) : Prop where
  types : s.types = .initial
  arrayTypes : s.store.arrayTypes = []
  calls : ∀ call ∈ history, call.isPlain = true
  recalls : Recalls s history

theorem Plain.past {call : TypeCall} (h : Plain s (call :: history)) : Plain s history :=
  ⟨h.types, h.arrayTypes, fun c hc => h.calls c (List.mem_cons_of_mem _ hc), h.recalls.past⟩

theorem Plain.coherent (h : Plain s history) :
    (afterTypes s history).store.Coherent (afterTypes s history).types := by
  refine (settled_afterTypes (fun e he => ?_) h.recalls).coherent
  rw [h.arrayTypes] at he
  cases he

theorem mem_entries_initial {e : String × TypeHandle} (h : e ∈ TypeRegistry.initial.entries) :
    e.1 ∈ builtinNames ∧ ∃ number, e.2 = .builtin e.1 number := by
  obtain ⟨⟨name, number⟩, hname, rfl⟩ := List.mem_map.1 h
  exact ⟨(List.mem_zipIdx' hname).2 ▸ List.getElem_mem _, number, rfl⟩

theorem get?_initial (h : TypeRegistry.initial.get? name = some t) :
    name ∈ builtinNames ∧ ∃ number, t = .builtin name number := by
  obtain ⟨before, behind, hentries, -⟩ := List.lookup_eq_some_iff.1 h
  exact mem_entries_initial (e := (name, t)) (by simp [hentries])

/-- **Every type has its origin in the calls.** -/
theorem Plain.accounted (h : Plain s history) : Accounted s history := by
  induction history with
  | nil =>
    refine ⟨?_, fun name t ht => ?_⟩
    · rw [afterTypes, h.types]
      rfl
    · rw [afterTypes, h.types] at ht
      obtain ⟨hname, number, rfl⟩ := get?_initial ht
      exact .builtin number hname
  | cons call past ih => exact accounted_call (ih h.past) (h.calls call List.mem_cons_self)

/-- A record type is found ever after under a name that it was declared under while the name was free. -/
theorem Plain.get?_of_declared (h : Plain s history) (hname : Declared s history name) :
    ∃ number, (afterTypes s history).types.get? name = some (.record name number) := by
  induction history with
  | nil => cases hname
  | cons call past ih =>
    have hext := extends_callTypes h.past.coherent call
    have hold : Declared s past name →
        ∃ number, (afterTypes s (call :: past)).types.get? name = some (.record name number) := by
      intro hname
      obtain ⟨number, ht⟩ := ih h.past hname
      exact ⟨number, hext _ _ ht⟩
    cases call with
    | registerRecord n =>
      rcases hname with hname | ⟨rfl, hfree⟩
      · exact hold hname
      · have hget := (afterTypes s past).types.get?_register n (.record n)
        rw [register, hfree] at hget
        exact ⟨_, by rw [afterTypes, callTypes, registerRecord, register, hfree]; exact hget⟩
    | _ => exact hold hname

theorem Plain.closed (h : Plain s history) (hd : Domestic s history) : (afterTypes s history).types.Closed := by
  induction history with
  | nil =>
    rw [afterTypes, h.types]
    constructor
    · intro name t ht
      obtain ⟨-, number, rfl⟩ := get?_initial ht
      rfl
    · intro name t elem ht hkind
      obtain ⟨-, number, rfl⟩ := get?_initial ht
      cases hkind
  | cons call past ih =>
    have hclosed := ih h.past hd.1
    have hbridge := h.past.accounted.bridge
    cases call with
    | register | setBridge => cases h.calls _ List.mem_cons_self
    | registerRecord n =>
      refine hclosed.register (.record n) fun elem hkind => ?_
      cases hkind
    | sliceOf elem => exact hclosed.sliceOf (hd.2 elem List.mem_cons_self)
    | resolveNative n =>
      rw [afterTypes, callTypes, resolveNative_of_no_bridge hbridge]
      exact hclosed
    | typeOf v =>
      exact Store.closed_typeOf hbridge h.past.coherent hclosed fun t ht => hd.2 t (Option.mem_toList.2 ht)
    | restore => exact hclosed

/-! ## Kinds -/

theorem Origin.name_eq (h : Origin s history name t) : t.name = name := by
  cases h <;> rfl

theorem Origin.of_not_declared (h : Origin s history name t) (hname : ¬Declared s history name) :
    name ∈ builtinNames ∧ t.kind = .builtin ∨ ∃ elem, name = sliceName elem ∧ t.kind = .slice elem := by
  cases h with
  | builtin number hb => exact .inl ⟨hb, rfl⟩
  | slice elem number => exact .inr ⟨elem, rfl, rfl⟩
  | record number hd => exact absurd hd hname

theorem Plain.kind_eq_record_iff (h : Plain s history) (ht : (afterTypes s history).types.get? name = some t) :
    t.kind = .record ↔ Declared s history name := by
  constructor
  · intro hkind
    cases h.accounted.origin name t ht with
    | builtin | slice => cases hkind
    | record number hname => exact hname
  · intro hname
    obtain ⟨number, hrecord⟩ := h.get?_of_declared hname
    obtain rfl := Option.some.inj (ht.symm.trans hrecord)
    rfl

theorem sliceName_not_mem_builtinNames (elem : TypeHandle) : sliceName elem ∉ builtinNames := by
  intro h
  have hbrackets : builtinNames.all (fun name => name.toList.head? != some '[') = true := by decide
  have hhead := List.all_eq_true.1 hbrackets _ h
  simp [sliceName] at hhead

/-- **The kind of a type is that of the first to come by its name.** Take any calls on the types of a new session that bring
in the types of records and of arrays only, with whatever names and types they are given.

* An array whose first element has the type `elem` has the type that the registry has under the name of slices of `elem`
  once it has been asked. This is a record type just when a record type was declared under that name while the name was
  free. Otherwise it is the type of slices of a type with the name of `elem`, and of `elem` itself if no call, the last one
  included, was given a type that the registry did not have.
* A record that has a type has the one that the registry has under its type name. This is a record type just when a record
  type was declared under that name while it was free. Otherwise it is the scalar type or the slice type that the name
  belongs to. -/
theorem types_sound (h : Plain s history) :
    let u := afterTypes s history
    (∀ first rest elem, (u.typeOf first).1 = some elem →
      ∃ t, (u.typeOf (.array (first :: rest))).1 = some t ∧
        (u.typeOf (.array (first :: rest))).2.types.get? (sliceName elem) = some t ∧ t.name = sliceName elem ∧
        (t.kind = .record ↔ Declared s history (sliceName elem)) ∧
        (¬Declared s history (sliceName elem) → ∃ elem', t.kind = .slice elem' ∧ elem'.name = elem.name ∧
          (Domestic s (.typeOf (.array (first :: rest)) :: history) → elem' = elem))) ∧
    ∀ id t, (u.typeOf (.record id)).1 = some t →
      u.types.get? (s.store.record id).typeName = some t ∧ t.name = (s.store.record id).typeName ∧
      (t.kind = .record ↔ Declared s history t.name) ∧
      (¬Declared s history t.name → t.name ∈ builtinNames ∧ t.kind = .builtin ∨
        ∃ elem, t.name = sliceName elem ∧ t.kind = .slice elem) := by
  intro u
  refine ⟨fun first rest elem hfirst => ?_, fun id t ht => ?_⟩
  · obtain ⟨t, ht, hknown, hget⟩ := Store.typeOf_array h.coherent hfirst rest
    have hasked : Plain s (.typeOf (.array (first :: rest)) :: history) :=
      ⟨h.types, h.arrayTypes, List.forall_mem_cons.2 ⟨rfl, h.calls⟩, h.recalls⟩
    have horigin := hasked.accounted.origin _ _ hget
    refine ⟨t, ht, hget, horigin.name_eq, hasked.kind_eq_record_iff hget, fun hname => ?_⟩
    rcases horigin.of_not_declared hname with ⟨hbuiltin, -⟩ | ⟨elem', hslice, hkind⟩
    · exact absurd hbuiltin (sliceName_not_mem_builtinNames elem)
    · have hsame : elem'.name = elem.name := (sliceName_inj hslice).symm
      refine ⟨elem', hkind, hsame, fun hd => ?_⟩
      -- Both are types of the registry, which has one of that name.
      have hclosed := hasked.closed hd
      have hext := extends_callTypes h.coherent (.typeOf (.array (first :: rest)))
      have helem' : (afterTypes s (.typeOf (.array (first :: rest)) :: history)).types.Has elem' :=
        hclosed.elem _ t elem' hget hkind
      have helem : (afterTypes s (.typeOf (.array (first :: rest)) :: history)).types.Has elem :=
        Store.has_of_knownType (v := first) hclosed (fun t ht => hext _ _ (hd.2 t (Option.mem_toList.2 ht))) hknown
      rw [Has, hsame] at helem'
      exact Option.some.inj (helem'.symm.trans helem)
  · have hget : u.types.get? (s.store.record id).typeName = some t := by
      have hknown := s.knownType_afterTypes history u.types (.record id)
      rw [Store.knownType, Store.knownType] at hknown
      rw [← hknown]
      exact ht
    have horigin := h.accounted.origin _ _ hget
    rw [horigin.name_eq]
    exact ⟨hget, rfl, h.kind_eq_record_iff hget, horigin.of_not_declared⟩

/-- The name of one slice type is free and that of another has been declared as a record type. -/
theorem types_sound_taken :
    let s : Session := { initial with store := (initial.store.addRecord { typeName := "[]P" }).2 }
    let history : List TypeCall := [.registerRecord "[]P", .registerRecord "P"]
    let u := afterTypes s history
    Plain s history ∧ (u.typeOf (.int 1)).1 = some (.builtin "int64" 0) ∧
      (∃ t, (u.typeOf (.array [.int 1])).1 = some t ∧ t.kind = .slice (.builtin "int64" 0)) ∧
      (u.typeOf (.type (.record "P" 5))).1 = some (.record "P" 5) ∧
      (∃ t, (u.typeOf (.array [.type (.record "P" 5)])).1 = some t ∧ t.kind = .record) ∧
      ∃ t, (u.typeOf (.record ⟨0⟩)).1 = some t ∧ t.kind = .record := by
  intro s history u
  have hplain : Plain s history := ⟨rfl, rfl, by simp [history, TypeCall.isPlain], trivial⟩
  obtain ⟨harrays, hrecords⟩ := types_sound hplain
  have hint : (u.typeOf (.int 1)).1 = some (.builtin "int64" 0) := rfl
  have htype : (u.typeOf (.type (.record "P" 5))).1 = some (.record "P" 5) := rfl
  have hrecord : (u.typeOf (.record ⟨0⟩)).1 = some (.record "[]P" 6) := rfl
  obtain ⟨t, ht, -, -, -, hslice⟩ := harrays (.int 1) [] _ hint
  obtain ⟨t', ht', -, -, htaken, -⟩ := harrays (.type (.record "P" 5)) [] _ htype
  have hfree : ¬Declared s history "[]int64" := by simp [history, Declared]
  have hdeclared : Declared s history "[]P" := .inr ⟨rfl, rfl⟩
  obtain ⟨elem, hkind, -, helem⟩ := hslice hfree
  have hdomestic : Domestic s (.typeOf (.array [.int 1]) :: history) := by
    simp [history, Domestic, TypeCall.given, Value.broughtType?]
  rw [helem hdomestic] at hkind
  exact ⟨hplain, hint, ⟨t, ht, hkind⟩, htype, ⟨t', ht', htaken.2 hdeclared⟩, _, hrecord,
    (hrecords ⟨0⟩ _ hrecord).2.2.1.2 hdeclared⟩

/-- Types that are not of the kind of the values that have them. The name of a slice type is declared as a record type,
and a record has the name of a scalar type; and a type from elsewhere takes a slice name before the one of the registry. -/
theorem not_types_sound_all :
    let s : Session := { initial with store := (initial.store.addRecord { typeName := "int64" }).2 }
    let u := afterTypes s [.sliceOf (.native "int32"), .registerRecord "[]int64"]
    Plain s [.sliceOf (.native "int32"), .registerRecord "[]int64"] ∧
      (∃ h t, (u.typeOf (.int 1)).1 = some h ∧ (u.typeOf (.array [.int 1])).1 = some t ∧ t.kind = .record) ∧
      (∃ t, (u.typeOf (.record ⟨0⟩)).1 = some t ∧ t.kind = .builtin) ∧
      ∃ h t elem, (u.typeOf (.char 'a')).1 = some h ∧ (u.typeOf (.array [.char 'a'])).1 = some t ∧
        t.kind = .slice elem ∧ elem ≠ h := by
  intro s u
  exact ⟨⟨rfl, rfl, by simp [TypeCall.isPlain], trivial⟩, ⟨_, _, rfl, rfl, rfl⟩, ⟨_, rfl, rfl⟩,
    _, _, _, rfl, rfl, rfl, by decide⟩

end Session

end Zygo
