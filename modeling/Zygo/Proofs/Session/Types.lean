import Zygo.Session.Basic

/-!
# Types of values

A registry only grows (`TypeRegistry.Extends`), and what arrays remember is what can be read off the registry
(`Store.Coherent`). So the type of a value, once it is known (`Store.knownType`), stays the same, though asking for it may
register types, and though it may have been unknown before.

Arrays with the same items are one array here, but outside each remembers for itself. `TypeCall.restore` stands for this: it
puts in place what other arrays, equal to the ones at hand, have remembered at some time.

* `types_settled`: names and values keep their types, over all calls on a registry.
-/

namespace Zygo

/-! ## Registries grow -/

namespace TypeRegistry

variable {r r' r'' : TypeRegistry} {name : String} {t : TypeHandle}

/-- All names keep their types. -/
def Extends (r r' : TypeRegistry) : Prop :=
  ∀ name t, r.get? name = some t → r'.get? name = some t

theorem Extends.refl (r : TypeRegistry) : r.Extends r :=
  fun _ _ h => h

theorem Extends.trans (h : r.Extends r') (h' : r'.Extends r'') : r.Extends r'' :=
  fun name t ht => h' name t (h name t ht)

/-- One more entry behind the others. -/
theorem extends_append (r : TypeRegistry) (entry : String × TypeHandle) (bridge? : Option Bridge) (asked : List String) :
    r.Extends ⟨r.entries ++ [entry], bridge?, asked⟩ := by
  intro name t h
  have h : r.entries.lookup name = some t := h
  rw [get?, List.lookup_append, h, Option.some_or]

theorem register_of_get? (h : r.get? name = some t) (type : TypeHandle) : r.register name type = (t, r) := by
  rw [register, h]

/-- Registering a name gives the type that the name has from then on. -/
theorem get?_register (r : TypeRegistry) (name : String) (type : TypeHandle) :
    (r.register name type).2.get? name = some (r.register name type).1 := by
  cases h : r.get? name with
  | some t =>
    rw [register_of_get? h]
    exact h
  | none =>
    have hnone : r.entries.lookup name = none := h
    simp only [register, h]
    simp [get?, List.lookup_append, hnone]

theorem extends_register (r : TypeRegistry) (name : String) (type : TypeHandle) :
    r.Extends (r.register name type).2 := by
  cases h : r.get? name with
  | some t =>
    rw [register_of_get? h]
    exact .refl r
  | none =>
    simp only [register, h]
    exact r.extends_append _ _ _

theorem resolveNative_of_get? (h : r.get? name = some t) : r.resolveNative name = (some t, r) := by
  rw [resolveNative, h]

/-- What is resolved is registered. -/
theorem get?_resolveNative (h : (r.resolveNative name).1 = some t) : (r.resolveNative name).2.get? name = some t := by
  cases hget : r.get? name with
  | some found =>
    rw [resolveNative_of_get? hget] at h ⊢
    exact hget.trans h
  | none =>
    have hnone : r.entries.lookup name = none := hget
    cases hbridge : r.bridge? with
    | none => simp [resolveNative, hget, hbridge] at h
    | some bridge =>
      cases hanswer : bridge name with
      | none => simp [resolveNative, hget, hbridge, hanswer] at h
      | some found =>
        simp only [resolveNative, hget, hbridge, hanswer] at h ⊢
        simpa [get?, List.lookup_append, hnone] using h

theorem extends_resolveNative (r : TypeRegistry) (name : String) : r.Extends (r.resolveNative name).2 := by
  unfold resolveNative
  split
  · exact .refl r
  · exact .refl r
  · split
    · exact .refl r
    · exact r.extends_append _ _ _

end TypeRegistry

/-! ## Known types -/

namespace Store

open TypeRegistry

variable {s : Store} {types types' : TypeRegistry} {v : Value} {t : TypeHandle}

/-- The type of a value as far as the registry has it, without registering anything. -/
def knownType (s : Store) (types : TypeRegistry) : Value → Option TypeHandle
  | .int _ => types.get? "int64"
  | .float _ => types.get? "float64"
  | .bool _ => types.get? "bool"
  | .char _ => types.get? "int32"
  | .text .. => types.get? "string"
  | .bytes _ type? => type?
  | .array (first :: _) => (s.knownType types first).bind fun elem => types.get? (sliceName elem)
  | .record id => types.get? (s.record id).typeName
  | .host object => types.get? object.typeName
  | .type t => some t
  | .symbol _ | .sentinel _ | .pair .. | .array [] | .function _ | .package _ | .error _ => none

/-- A type that is known stays known. -/
theorem knownType_mono (h : types.Extends types') (hv : s.knownType types v = some t) :
    s.knownType types' v = some t := by
  fun_induction knownType s types v generalizing t with
  | case7 first rest ih =>
    obtain ⟨elem, helem, ht⟩ := Option.bind_eq_some_iff.1 hv
    rw [knownType, ih helem, Option.bind_some]
    exact h _ _ ht
  | case6 | case10 => exact hv
  | case11 | case12 | case13 | case14 | case15 | case16 | case17 => cases hv
  | _ => exact h _ _ hv

/-- What arrays remember does not matter to what the registry has. -/
theorem knownType_withArrayTypes (s : Store) (arrayTypes : List (Value × TypeHandle)) (types : TypeRegistry) (v : Value) :
    knownType { s with arrayTypes } types v = s.knownType types v := by
  fun_induction knownType s types v with
  | case7 first rest ih => rw [knownType, ih]
  | _ => rfl

/-- What arrays remember is known. -/
def Coherent (s : Store) (types : TypeRegistry) : Prop :=
  ∀ e ∈ s.arrayTypes, s.knownType types e.1 = some e.2

theorem Coherent.mono (h : s.Coherent types) (hext : types.Extends types') : s.Coherent types' :=
  fun e he => knownType_mono hext (h e he)

theorem Coherent.knownType_of_remembered? (h : s.Coherent types) (hv : s.remembered? v = some t) :
    s.knownType types v = some t := by
  obtain ⟨before, behind, hmem, -⟩ := List.lookup_eq_some_iff.1 hv
  exact h (v, t) (by simp [hmem])

theorem Coherent.remember (h : s.Coherent types) (hv : s.knownType types v = some t) :
    (s.remember v t).Coherent types := by
  intro e he
  rw [Store.remember, knownType_withArrayTypes]
  rcases List.mem_cons.1 he with rfl | he
  · exact hv
  · exact h e he

/-- Asking for a type changes nothing in the store but what arrays remember. -/
theorem store_typeOf (s : Store) (types : TypeRegistry) (v : Value) :
    ∃ arrayTypes, (s.typeOf types v).2.1 = { s with arrayTypes } := by
  fun_induction Store.typeOf s types v with
  | case8 first rest _ elem s' types' hfirst type types'' _ ih =>
    obtain ⟨arrayTypes, ih⟩ := ih
    rw [hfirst] at ih
    obtain rfl : s' = { s with arrayTypes } := ih
    exact ⟨_, rfl⟩
  | case9 first rest _ s' types' hfirst ih =>
    rwa [hfirst] at ih
  | _ => exact ⟨_, rfl⟩

/-- Asking for a type only adds types. A type that is given is known from then on, and arrays go on remembering what is
known. -/
theorem typeOf_spec (h : s.Coherent types) (v : Value) :
    types.Extends (s.typeOf types v).2.2 ∧ (s.typeOf types v).2.1.Coherent (s.typeOf types v).2.2 ∧
      ∀ t, (s.typeOf types v).1 = some t → s.knownType (s.typeOf types v).2.2 v = some t := by
  fun_induction Store.typeOf s types v with
  | case7 first rest type hremembered =>
    refine ⟨.refl types, h, ?_⟩
    rintro t ⟨⟩
    exact h.knownType_of_remembered? hremembered
  | case8 first rest _ elem s' types' hfirst type types'' hslice ih =>
    obtain ⟨hext, hcoherent, hknown⟩ := ih
    obtain ⟨arrayTypes, hstore⟩ := s.store_typeOf types first
    rw [hfirst] at hext hcoherent hknown hstore
    obtain rfl : s' = { s with arrayTypes } := hstore
    have hextslice := types'.extends_register (sliceName elem) (.slice (sliceName elem) elem)
    have hget := types'.get?_register (sliceName elem) (.slice (sliceName elem) elem)
    rw [← sliceOf, hslice] at hextslice hget
    have hknown' : s.knownType types'' (.array (first :: rest)) = some type := by
      rw [knownType, knownType_mono hextslice (hknown elem rfl), Option.bind_some, hget]
    refine ⟨hext.trans hextslice, (hcoherent.mono hextslice).remember ?_, ?_⟩
    · rw [knownType_withArrayTypes, hknown']
    · rintro t ⟨⟩
      exact hknown'
  | case9 first rest _ s' types' hfirst ih =>
    obtain ⟨hext, hcoherent, -⟩ := ih
    rw [hfirst] at hext hcoherent
    refine ⟨hext, hcoherent, ?_⟩
    rintro t ⟨⟩
  | case11 object type? types' hresolve =>
    have hext := types.extends_resolveNative object.typeName
    rw [hresolve] at hext
    refine ⟨hext, h.mono hext, ?_⟩
    intro t ht
    have hgiven : (types.resolveNative object.typeName).1 = some t := by
      rw [hresolve]
      exact ht
    have hget := get?_resolveNative hgiven
    rwa [hresolve] at hget
  | case13 =>
    refine ⟨.refl types, h, ?_⟩
    rintro t ⟨⟩
  | _ => exact ⟨.refl types, h, fun t ht => ht⟩

/-- A type that is known is given. -/
theorem typeOf_of_knownType (h : s.Coherent types) (hv : s.knownType types v = some t) :
    (s.typeOf types v).1 = some t := by
  fun_induction knownType s types v generalizing t with
  | case7 first rest ih =>
    cases hremembered : s.remembered? (.array (first :: rest)) with
    | some type =>
      have hknown : s.knownType types (.array (first :: rest)) = some type :=
        h.knownType_of_remembered? hremembered
      simp only [typeOf, hremembered]
      rw [← hknown]
      exact hv
    | none =>
      obtain ⟨elem, helem, ht⟩ := Option.bind_eq_some_iff.1 hv
      have hfirst := ih helem
      have hext := (typeOf_spec h first).1
      generalize hasked : s.typeOf types first = asked at hfirst hext
      obtain ⟨elem?, s', types'⟩ := asked
      obtain rfl : elem? = some elem := hfirst
      have hslice : types'.sliceOf elem = (t, types') := register_of_get? (hext _ _ ht) _
      simp only [typeOf, hremembered, hasked, hslice]
  | case9 object =>
    simp only [typeOf, resolveNative_of_get? hv]
  | case11 | case12 | case13 | case14 | case15 | case16 | case17 => cases hv
  | _ => exact hv

end Store

/-! ## Calls -/

namespace Session

open TypeRegistry

/-- What is done with the types of a session. -/
inductive TypeCall where
  | register (name : String) (type : TypeHandle)
  | registerRecord (name : String)
  | sliceOf (elem : TypeHandle)
  | resolveNative (name : String)
  | setBridge (bridge : Bridge)
  | typeOf (v : Value)
  /-- Goes on with other arrays, equal to the ones at hand, and what they remember. -/
  | restore (arrayTypes : List (Value × TypeHandle))

/-- The session after a call. -/
def callTypes (s : Session) : TypeCall → Session
  | .register name type => { s with types := (s.types.register name type).2 }
  | .registerRecord name => { s with types := (s.types.registerRecord name).2 }
  | .sliceOf elem => { s with types := (s.types.sliceOf elem).2 }
  | .resolveNative name => { s with types := (s.types.resolveNative name).2 }
  | .setBridge bridge => { s with types := s.types.setBridge bridge }
  | .typeOf v => (s.typeOf v).2
  | .restore arrayTypes => { s with store := { s.store with arrayTypes } }

/-- The session after calls. The latest call comes first. -/
def afterTypes (s : Session) : List TypeCall → Session
  | [] => s
  | call :: past => (afterTypes s past).callTypes call

/-- All that arrays have remembered at some time. -/
def remembered (s : Session) : List TypeCall → List (Value × TypeHandle)
  | [] => s.store.arrayTypes
  | call :: past => (afterTypes s (call :: past)).store.arrayTypes ++ remembered s past

/-- Whether arrays remember only what arrays equal to them have remembered before. -/
def Recalls (s : Session) : List TypeCall → Prop
  | [] => True
  | .restore arrayTypes :: past => Recalls s past ∧ ∀ e ∈ arrayTypes, e ∈ remembered s past
  | _ :: past => Recalls s past

variable {s : Session} {history : List TypeCall}

theorem Recalls.past {call : TypeCall} (h : Recalls s (call :: history)) : Recalls s history := by
  cases call with
  | restore arrayTypes => exact h.1
  | _ => exact h

theorem Recalls.of_append {later : List TypeCall} (h : Recalls s (later ++ history)) : Recalls s history := by
  induction later with
  | nil => exact h
  | cons call later ih => exact ih h.past

/-- Calls change nothing in the store but what arrays remember. -/
theorem store_callTypes (s : Session) (call : TypeCall) :
    ∃ arrayTypes, (s.callTypes call).store = { s.store with arrayTypes } := by
  cases call with
  | typeOf v => exact s.store.store_typeOf s.types v
  | restore arrayTypes => exact ⟨arrayTypes, rfl⟩
  | _ => exact ⟨s.store.arrayTypes, rfl⟩

theorem knownType_callTypes (s : Session) (call : TypeCall) (types : TypeRegistry) (v : Value) :
    (s.callTypes call).store.knownType types v = s.store.knownType types v := by
  obtain ⟨arrayTypes, hstore⟩ := s.store_callTypes call
  rw [hstore, Store.knownType_withArrayTypes]

theorem knownType_afterTypes (s : Session) (history : List TypeCall) (types : TypeRegistry) (v : Value) :
    (afterTypes s history).store.knownType types v = s.store.knownType types v := by
  induction history with
  | nil => rfl
  | cons call past ih => rw [afterTypes, knownType_callTypes, ih]

/-- Calls only add types. -/
theorem extends_callTypes (h : s.store.Coherent s.types) (call : TypeCall) :
    s.types.Extends (s.callTypes call).types := by
  cases call with
  | register name type => exact s.types.extends_register name type
  | registerRecord name => exact s.types.extends_register name _
  | sliceOf elem => exact s.types.extends_register _ _
  | resolveNative name => exact s.types.extends_resolveNative name
  | setBridge bridge => exact .refl _
  | typeOf v => exact (Store.typeOf_spec h v).1
  | restore arrayTypes => exact .refl _

/-- What arrays have remembered at some time is known. -/
def Settled (s : Session) (history : List TypeCall) : Prop :=
  ∀ e ∈ remembered s history, s.store.knownType (afterTypes s history).types e.1 = some e.2

theorem Settled.coherent (h : Settled s history) : (afterTypes s history).store.Coherent (afterTypes s history).types := by
  intro e he
  rw [knownType_afterTypes]
  apply h
  cases history with
  | nil => exact he
  | cons call past => exact List.mem_append_left _ he

/-- Every call keeps it so. -/
theorem settled_call {call : TypeCall} (h : Settled s history) (hr : Recalls s (call :: history)) :
    Settled s (call :: history) := by
  have hext := extends_callTypes h.coherent call
  have hold : ∀ e ∈ remembered s history, s.store.knownType (afterTypes s (call :: history)).types e.1 = some e.2 :=
    fun e he => Store.knownType_mono hext (h e he)
  intro e he
  rcases List.mem_append.1 he with he | he
  · cases call with
    | restore arrayTypes => exact hold e (hr.2 e he)
    | typeOf v =>
      have hcoherent := (Store.typeOf_spec h.coherent v).2.1 e he
      obtain ⟨arrayTypes, hstore⟩ := Store.store_typeOf (afterTypes s history).store (afterTypes s history).types v
      rwa [hstore, Store.knownType_withArrayTypes, knownType_afterTypes] at hcoherent
    | register | registerRecord | sliceOf | resolveNative | setBridge =>
      have hcoherent := h.coherent.mono hext e he
      rwa [knownType_afterTypes] at hcoherent
  · exact hold e he

/-- **What arrays remember is known**, after all calls. -/
theorem settled_afterTypes (h : s.store.Coherent s.types) (hr : Recalls s history) : Settled s history := by
  induction history with
  | nil => exact h
  | cons call past ih => exact settled_call (ih hr.past) hr

theorem extends_afterTypes (h : s.store.Coherent s.types) {later : List TypeCall} (hr : Recalls s (later ++ history)) :
    (afterTypes s history).types.Extends (afterTypes s (later ++ history)).types := by
  induction later with
  | nil => exact .refl _
  | cons call later ih => exact (ih hr.past).trans (extends_callTypes (settled_afterTypes h hr.past).coherent call)

/-- A type that is given once is given ever after. -/
theorem typeOf_again (h : s.store.Coherent s.types) {v : Value} {t : TypeHandle} {later : List TypeCall}
    (hr : Recalls s (later ++ .typeOf v :: history)) (ht : ((afterTypes s history).typeOf v).1 = some t) :
    ((afterTypes s (later ++ .typeOf v :: history)).typeOf v).1 = some t := by
  have hcoherent := (settled_afterTypes h hr.of_append.past).coherent
  have hknown := (Store.typeOf_spec hcoherent v).2.2 t ht
  rw [knownType_afterTypes] at hknown
  apply Store.typeOf_of_knownType (settled_afterTypes h hr).coherent
  rw [knownType_afterTypes]
  exact Store.knownType_mono (extends_afterTypes h hr) hknown

/-- An array has a type just when its first element has one: that there was none before is not remembered. -/
theorem isSome_typeOf_array (h : s.store.Coherent s.types) (first : Value) (rest : List Value) :
    (s.typeOf (.array (first :: rest))).1.isSome = (s.typeOf first).1.isSome := by
  cases hremembered : s.store.remembered? (.array (first :: rest)) with
  | some type =>
    have hknown := h.knownType_of_remembered? hremembered
    obtain ⟨elem, helem, -⟩ := Option.bind_eq_some_iff.1 hknown
    have hfirst := Store.typeOf_of_knownType h helem
    simp [typeOf, hfirst, Store.typeOf, hremembered]
  | none =>
    simp only [typeOf, Store.typeOf, hremembered]
    rcases s.store.typeOf s.types first with ⟨_ | elem, store, types⟩ <;> rfl

/-- **Types never change.** Take any calls on the types of a session in which arrays remember nothing yet, and any calls
after them.

A name that has a type keeps it: looking it up, registering it as whatever and resolving it give this type ever after. A
value that was given a type is given this type ever after. And a value without a type may be given one later: an array has
a type as soon as its first element has one. -/
theorem types_settled (s : Session) (hm : s.store.arrayTypes = []) (history later : List TypeCall) :
    (Recalls s (later ++ history) →
      let t := afterTypes s history
      let u := afterTypes s (later ++ history)
      (∀ name type, t.types.get? name = some type →
        u.types.get? name = some type ∧ (∀ other, (u.types.register name other).1 = type) ∧
          (u.types.resolveNative name).1 = some type) ∧
      ∀ first rest, (u.typeOf (.array (first :: rest))).1.isSome = (u.typeOf first).1.isSome) ∧
    ∀ v type, Recalls s (later ++ .typeOf v :: history) → ((afterTypes s history).typeOf v).1 = some type →
      ((afterTypes s (later ++ .typeOf v :: history)).typeOf v).1 = some type := by
  have hcoherent : s.store.Coherent s.types := by
    intro e he
    rw [hm] at he
    cases he
  refine ⟨fun hr => ⟨fun name type hname => ?_, fun first rest => ?_⟩, fun v type hr ht => typeOf_again hcoherent hr ht⟩
  · have hlater := extends_afterTypes hcoherent hr name type hname
    refine ⟨hlater, fun other => ?_, ?_⟩
    · rw [register_of_get? hlater]
    · rw [resolveNative_of_get? hlater]
  · exact isSome_typeOf_array (settled_afterTypes hcoherent hr).coherent first rest

/-- An array of an array of a record is asked for its type before and after the type of the record is declared. Later another
declaration, a bridge and other arrays change nothing. -/
theorem types_settled_late :
    let s : Session := { initial with store := (initial.store.addRecord { typeName := "P" }).2 }
    let v : Value := .array [.array [.record ⟨0⟩], .null]
    let type : TypeHandle := .slice "[][]P" (.slice "[]P" (.record "P" 5) 6) 7
    let history : List TypeCall := [.registerRecord "P", .typeOf v]
    let later : List TypeCall := [.register "[][]P" (.native "P"), .restore [], .setBridge fun _ => none]
    s.store.arrayTypes = [] ∧ (s.typeOf v).1 = none ∧ Recalls s (later ++ .typeOf v :: history) ∧
      ((afterTypes s history).typeOf v).1 = some type ∧
      ((afterTypes s (later ++ .typeOf v :: history)).typeOf v).1 = some type := by
  intro s v type history later
  have hnone : (s.typeOf v).1 = none := by rfl
  have hrecalls : Recalls s (later ++ .typeOf v :: history) := by
    simp [later, history, Recalls]
  have hsome : ((afterTypes s history).typeOf v).1 = some type := by rfl
  exact ⟨rfl, hnone, hrecalls, hsome, (types_settled s rfl history later).2 v type hrecalls hsome⟩

end Session

end Zygo
