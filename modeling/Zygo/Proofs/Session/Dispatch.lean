import Zygo.Proofs.Record.Log
import Zygo.Proofs.Session.Builtins

/-!
# Dispatch of methods

A session can be reached with a log of what has been done to its records (`Session.Logged`), the latest first. The log
tells which function was last registered as a method of a record under a text (`Session.lastMethod?`), and in every session
the tables of methods say the same, number by number (`Session.Dispatches`): changes of anything but records, calls and
evaluations spare the tables, and texts keep their numbers.

* `dispatch_own_method`: to call a method by its text, by a symbol and by the function registered last is all one, and a
  method that the record itself has not got is not found.
-/

namespace Zygo

/-! ## Methods of a record -/

namespace Record

variable {r : Record}

theorem lookup_filter_ne (methods : List (Nat × FunctionId)) (n m : Nat) :
    (methods.filter fun e => e.1 != n).lookup m = if m = n then none else methods.lookup m := by
  induction methods with
  | nil => simp
  | cons e methods ih =>
    rw [List.filter_cons, List.lookup_cons]
    by_cases hn : e.1 = n
    · rw [if_neg (by simp [hn]), ih]
      by_cases hm : m = n
      · simp [hm]
      · rw [hn, beq_eq_false_iff_ne.2 hm]
    · rw [if_pos (by simpa using hn), List.lookup_cons, ih]
      by_cases hm : m = e.1
      · simp [hm, hn]
      · rw [beq_eq_false_iff_ne.2 hm]

theorem lookup_addMethod (r : Record) (x : Symbol) (f : FunctionId) (n : Nat) :
    (r.addMethod x f).methods.lookup n = if n = x.id then some f else r.methods.lookup n := by
  rw [addMethod, List.lookup_append, lookup_filter_ne]
  split
  · rename_i h
    simp [h]
  · rename_i h
    rw [List.lookup_cons, beq_eq_false_iff_ne.2 h, List.lookup_nil, Option.or_none]

theorem methods_set {r' : Record} {k v : Value} (h : r.set k v = .ok r') : r'.methods = r.methods := by
  unfold set at h
  cases hk : hashKey k with
  | error e =>
    rw [hk] at h
    cases h
  | ok hash =>
    rw [hk] at h
    obtain rfl := Except.ok.inj h
    dsimp only
    split <;> rfl

theorem methods_bind (r : Record) (x : Symbol) (v : Value) : (r.bind x v).methods = r.methods := by
  rw [bind]
  cases h : r.set (.symbol x) v with
  | error e => rfl
  | ok r' => exact methods_set h

/-- Only the registration of a method changes the methods. -/
theorem methods_apply {call : Call} (h : ∀ x f, call ≠ .addMethod x f) : (r.apply call).methods = r.methods := by
  cases call with
  | set k v =>
    rw [apply]
    split
    · exact methods_set ‹_›
    · rfl
  | bind x v => exact r.methods_bind x v
  | setParent parent => exact r.methods_bind _ _
  | setSuper super => exact r.methods_bind _ _
  | setMain main => exact r.methods_bind _ _
  | addMethod x f => exact absurd rfl (h x f)

/-- Whether a symbol that names a method belongs to the table. -/
def Call.Fits (t : SymbolTable) : Call → Prop
  | addMethod x _ => t.Numbers x.name x.id
  | _ => True

end Record

/-! ## Records of a store -/

namespace Store

theorem record_addRecord (s : Store) (new : Record) (r : RecordId) :
    (s.addRecord new).2.record r = if r.index = s.records.size then new else s.record r := by
  simp only [addRecord, record, Array.getElem?_push]
  split <;> rfl

theorem record_setRecord {s : Store} {id : RecordId} (h : id.index < s.records.size) (new : Record) (r : RecordId) :
    (s.setRecord id new).record r = if r = id then new else s.record r := by
  obtain ⟨i⟩ := id
  obtain ⟨j⟩ := r
  simp only [setRecord, record, Array.getElem?_setIfInBounds, RecordId.mk.injEq]
  by_cases hij : i = j
  · subst hij
    simp [h]
  · simp [hij, Ne.symm hij]

end Store

namespace Session

variable {s t : Session} {c : Change} {log : List (RecordId × Record.Call)} {r : RecordId} {text : String}
  {f : FunctionId} {n : Nat} {α : Type}

/-! ## Logs -/

/-- Whether a change is about something else than records. -/
def Change.SparesRecords : Change → Prop
  | .addRecord _ | .setRecord .. => False
  | _ => True

/-- Something is done to a record. -/
def callRecord (s : Session) (r : RecordId) (call : Record.Call) : Session :=
  s.apply (.setRecord r ((s.store.record r).apply call))

/-- A session that can be reached, with a log of what has been done to the records, the latest first. Records are made
empty; one that was filled before it was added counts as filled afterwards. Methods are registered under symbols of the
session. -/
inductive Logged : Session → List (RecordId × Record.Call) → Prop
  | start (symbols : SymbolTable) : Logged (start symbols) []
  | addRecord {s : Session} {log : List (RecordId × Record.Call)} (typeName : String) :
      Logged s log → Logged (s.apply (.addRecord { typeName })) log
  | onRecord {s : Session} {log : List (RecordId × Record.Call)} {r : RecordId} {call : Record.Call} :
      Logged s log → r.index < s.store.records.size → call.Fits s.symbols →
        Logged (s.callRecord r call) ((r, call) :: log)
  | change {s : Session} {log : List (RecordId × Record.Call)} {c : Change} :
      Logged s log → c.CopiesBuiltins s → c.SparesRecords → Logged (s.apply c) log
  | registerBuiltins {s : Session} {log : List (RecordId × Record.Call)} : Logged s log → Logged s.registerBuiltins log
  | call {s : Session} {log : List (RecordId × Record.Call)} (id : FunctionId) (args : List Value) :
      Logged s log → Logged ((call id args).run.run s).2 log
  | eval {s : Session} {log : List (RecordId × Record.Call)} (frame : FrameId) (form : Value) :
      Logged s log → Logged ((eval frame form).run.run s).2 log

theorem Logged.reached (h : Logged s log) : Reached s := by
  induction h with
  | start symbols => exact .start symbols
  | addRecord typeName _ ih => exact .change ih trivial
  | onRecord _ _ _ ih => exact .change ih trivial
  | change _ hc _ ih => exact .change ih hc
  | registerBuiltins _ ih => exact .registerBuiltins ih
  | call id args _ ih => exact .call id args ih
  | eval frame form _ ih => exact .eval frame form ih

/-- The function that was last registered as a method of the record itself, under a symbol of the text. -/
def lastMethod? : List (RecordId × Record.Call) → RecordId → String → Option FunctionId
  | [], _, _ => none
  | (id, .addMethod x f) :: log, r, text => if r = id ∧ text = x.name then some f else lastMethod? log r text
  | _ :: log, r, text => lastMethod? log r text

/-! ## What spares the records -/

theorem numbers_apply (h : s.symbols.Numbers text n) (c : Change) : (s.apply c).symbols.Numbers text n := by
  cases c with
  | intern other => exact h.intern other
  | assign i x v =>
    obtain ⟨frames, happly⟩ := s.exists_apply_assign i x v
    rw [happly]
    exact h
  | register p =>
    obtain ⟨packages, happly⟩ := s.exists_apply_register p
    rw [happly]
    exact h
  | _ => exact h

theorem numbers_of_leads (h : s.symbols.Numbers text n) (hleads : Leads s t) : t.symbols.Numbers text n :=
  hleads.invariant (p := fun s => s.symbols.Numbers text n) (fun _ c _ hs => numbers_apply hs c) h

theorem records_apply (h : c.SparesRecords) : (s.apply c).store.records = s.store.records := by
  cases c with
  | addRecord new => cases h
  | setRecord id new => cases h
  | assign i x v =>
    obtain ⟨frames, happly⟩ := s.exists_apply_assign i x v
    rw [happly]
  | register p =>
    obtain ⟨packages, happly⟩ := s.exists_apply_register p
    rw [happly]
  | _ => rfl

theorem records_registerBuiltins (s : Session) : s.registerBuiltins.store.records = s.store.records := by
  rw [registerBuiltins]
  generalize builtins = l
  induction l generalizing s with
  | nil => rfl
  | cons f l ih => exact ih _

/-- No step of a call changes a record. -/
theorem records_step {a : Action α} (h : Step a) : Keeps (fun s t => t.store.records = s.store.records) a := by
  intro s
  cases h with
  | packageOf name =>
    change (s.packageOf name).2.store.records = _
    unfold packageOf
    split <;> rfl
  | importPackage name =>
    change (s.importPackage name).2.store.records = _
    unfold importPackage
    split
    · rfl
    · rw [s.bindExports_frame]
  | _ => rfl

theorem stepwise_records : Stepwise fun a _ => Keeps (fun s t => t.store.records = s.store.records) a :=
  stepwise_keeps (fun h h' => h'.trans h) records_step

/-! ## Tables of methods -/

/-- The tables of methods say what the log says. What the log says is about records that exist and texts that have
numbers. -/
structure Dispatches (s : Session) (log : List (RecordId × Record.Call)) : Prop where
  known {r : RecordId} {text : String} {f : FunctionId} : lastMethod? log r text = some f →
    r.index < s.store.records.size ∧ ∃ n, s.symbols.Numbers text n
  lookup_iff {r : RecordId} {n : Nat} {f : FunctionId} : (s.store.record r).methods.lookup n = some f ↔
    ∃ text, s.symbols.Numbers text n ∧ lastMethod? log r text = some f

/-- What spares the records and lets texts keep their numbers. New numbers mean no methods. -/
theorem Dispatches.of_records (h : Dispatches s log) (hrecords : t.store.records = s.store.records)
    (hnumbers : ∀ {text n}, s.symbols.Numbers text n → t.symbols.Numbers text n) : Dispatches t log where
  known := by
    intro r text f hf
    obtain ⟨hr, n, hn⟩ := h.known hf
    exact ⟨hrecords ▸ hr, n, hnumbers hn⟩
  lookup_iff := by
    intro r n f
    rw [show t.store.record r = s.store.record r by rw [Store.record, hrecords, Store.record], h.lookup_iff]
    constructor
    · rintro ⟨text, hn, hf⟩
      exact ⟨text, hnumbers hn, hf⟩
    · rintro ⟨text, hn, hf⟩
      obtain ⟨-, m, hm⟩ := h.known hf
      obtain rfl := hn.unique (hnumbers hm)
      exact ⟨text, hm, hf⟩

theorem Dispatches.addRecord (h : Dispatches s log) (typeName : String) :
    Dispatches (s.apply (.addRecord { typeName })) log where
  known := by
    intro r text f hf
    obtain ⟨hr, hn⟩ := h.known hf
    refine ⟨?_, hn⟩
    simp only [apply, Store.addRecord, Array.size_push]
    exact Nat.lt_succ_of_lt hr
  lookup_iff := by
    intro r n f
    simp only [apply, Store.record_addRecord]
    split
    · -- nothing has been done yet to the new record
      rename_i hr
      simp only [List.lookup_nil, reduceCtorEq, false_iff, not_exists, not_and]
      intro text _ hf
      exact absurd hr (Nat.ne_of_lt (h.known hf).1)
    · exact h.lookup_iff

theorem lastMethod?_cons_of_ne {call : Record.Call} (hcall : ∀ x f, call ≠ .addMethod x f) (id r : RecordId)
    (text : String) : lastMethod? ((id, call) :: log) r text = lastMethod? log r text := by
  cases call with
  | addMethod x f => exact absurd rfl (hcall x f)
  | _ => rfl

theorem record_callRecord (hr : r.index < s.store.records.size) (call : Record.Call) (r' : RecordId) :
    (s.callRecord r call).store.record r' = if r' = r then (s.store.record r).apply call else s.store.record r' :=
  Store.record_setRecord hr _ r'

@[simp] theorem symbols_callRecord (s : Session) (r : RecordId) (call : Record.Call) :
    (s.callRecord r call).symbols = s.symbols :=
  rfl

@[simp] theorem size_callRecord (s : Session) (r : RecordId) (call : Record.Call) :
    (s.callRecord r call).store.records.size = s.store.records.size :=
  Array.size_setIfInBounds

/-- What else is done to a record spares its methods. -/
theorem Dispatches.onRecord_of_ne {call : Record.Call} (h : Dispatches s log) (hr : r.index < s.store.records.size)
    (hcall : ∀ x f, call ≠ .addMethod x f) :
    Dispatches (s.callRecord r call) ((r, call) :: log) where
  known := by
    intro r' text f hf
    rw [lastMethod?_cons_of_ne hcall] at hf
    rw [size_callRecord]
    exact h.known hf
  lookup_iff := by
    intro r' n f
    rw [record_callRecord hr]
    simp only [lastMethod?_cons_of_ne hcall]
    split
    · rename_i heq
      rw [Record.methods_apply hcall, heq]
      exact h.lookup_iff
    · exact h.lookup_iff

/-- A method that is registered takes the place of the one under the same text, on its record alone. -/
theorem Dispatches.addMethod {x : Symbol} (h : Dispatches s log) (hr : r.index < s.store.records.size)
    (hx : s.symbols.Numbers x.name x.id) (g : FunctionId) :
    Dispatches (s.callRecord r (.addMethod x g)) ((r, .addMethod x g) :: log) where
  known := by
    intro r' text f hf
    rw [size_callRecord]
    rw [lastMethod?] at hf
    split at hf
    · rename_i heq
      rw [heq.1, heq.2]
      exact ⟨hr, x.id, hx⟩
    · exact h.known hf
  lookup_iff := by
    intro r' n f
    rw [record_callRecord hr]
    simp only [lastMethod?]
    by_cases hr' : r' = r
    · subst hr'
      rw [if_pos rfl, Record.apply, Record.lookup_addMethod]
      constructor
      · intro hf
        split at hf
        · rename_i hn
          exact ⟨x.name, hn ▸ hx, by rw [if_pos ⟨rfl, rfl⟩, hf]⟩
        · rename_i hn
          obtain ⟨text, htext, hf⟩ := h.lookup_iff.1 hf
          refine ⟨text, htext, ?_⟩
          rwa [if_neg]
          rintro ⟨-, rfl⟩
          exact hn (htext.unique hx)
      · rintro ⟨text, htext, hf⟩
        split at hf
        · rename_i heq
          rw [heq.2] at htext
          rw [if_pos (htext.unique hx), hf]
        · rename_i hne
          rw [if_neg, h.lookup_iff]
          · exact ⟨text, htext, hf⟩
          · rintro rfl
            exact hne ⟨rfl, htext.text_eq hx⟩
    · simp only [hr', if_false, false_and]
      exact h.lookup_iff

/-- **Tables of methods say what the log says**, in every session that can be reached. -/
theorem dispatches_of_logged (h : Logged s log) : Dispatches s log := by
  induction h with
  | start symbols =>
    constructor
    · intro r text f hf
      cases hf
    · intro r n f
      constructor
      · intro hf
        cases hf
      · rintro ⟨text, -, hf⟩
        cases hf
  | addRecord typeName _ ih => exact ih.addRecord typeName
  | @onRecord s log r call _ hr hcall ih =>
    cases call with
    | addMethod x g => exact ih.addMethod hr hcall g
    | _ => exact ih.onRecord_of_ne hr nofun
  | @change s log c _ _ hc ih => exact ih.of_records (records_apply hc) fun hn => numbers_apply hn c
  | @registerBuiltins s log _ ih =>
    exact ih.of_records s.records_registerBuiltins fun hn => numbers_of_leads hn s.leads_registerBuiltins
  | @call s log id args _ ih =>
    exact ih.of_records (stepwise_records.call id args s) fun hn => numbers_of_leads hn (s.leads_call id args)
  | @eval s log frame form _ ih =>
    exact ih.of_records (stepwise_records.eval frame form s) fun hn => numbers_of_leads hn (s.leads_eval frame form)

/-! ## Calls of methods -/

/-- A record dispatches by the text of the symbol alone: to the function registered last, or to nothing. -/
theorem Dispatches.run_callMethod {call : FunctionId → List Value → Action Value} {x : Symbol} (h : Dispatches s log)
    (hx : s.symbols.Numbers x.name x.id) (r : RecordId) (args : List Value) :
    (callMethod call r x args).run.run s =
      match lastMethod? log r x.name with
      | some f => (call f args).run.run s
      | none => (.error (.methodNotFound x.name (s.store.record r).typeName), s) := by
  cases hlast : lastMethod? log r x.name with
  | some f =>
    have hmethod : (s.store.record r).method? x = some f := h.lookup_iff.2 ⟨x.name, hx, hlast⟩
    rw [callMethod, run_bind, run_get]
    dsimp only
    rw [hmethod]
  | none =>
    have hmethod : (s.store.record r).method? x = none := by
      rw [Record.method?, Option.eq_none_iff_forall_ne_some]
      intro f hf
      obtain ⟨text, htext, hf⟩ := h.lookup_iff.1 hf
      rw [htext.text_eq hx, hlast] at hf
      cases hf
    exact run_callMethod_missing hmethod

/-- The built-in function that calls methods takes two arguments and more, so it comes to do its action. -/
theorem Declares.run_call_callMethod {id : FunctionId} (h : Declares s)
    (hbody : (s.store.function id).body = .host .callMethod) (v w : Value) (rest : List Value) :
    (call id (v :: w :: rest)).run.run s =
      (perform (callUpTo (callDepth - 1)) (s.store.function id) .callMethod (v :: w :: rest)).run.run s := by
  obtain ⟨harity, hvariadic⟩ := h id "_call" 2 true .callMethod (by decide) hbody
  exact run_call_host hbody (by simp [Function.accepts, harity, hvariadic])

/-- **Methods are dispatched by text as by symbol, on the record's own table.** Take any session that can be reached, with
the log of its records, any record, any text, raw or not, and any further arguments.

To call the built-in function `_call` with the text is to make a symbol of the text, plain or dotted, and to call it with
the symbol: the results are the same and so are the sessions afterwards. If the text has a symbol already, nothing is made.

It is also to call the function that was last registered as a method of this very record under a symbol of the text, one
level deeper, which shows only if calls are nested too deeply. If there is none, no method is found, whatever has been
registered for the records that this one delegates to, and nothing is done but make the symbol. -/
theorem dispatch_own_method (h : Logged s log) {id : FunctionId}
    (hbody : (s.store.function id).body = .host .callMethod) (r : RecordId) (text : String) (raw dotted : Bool)
    (rest : List Value) :
    let byText := (call id (.record r :: .text text raw :: rest)).run.run s
    let interned : Session := { s with symbols := (s.symbols.intern text).2 }
    byText = (call id (.record r :: .symbol (s.intern text dotted).1 :: rest)).run.run interned ∧
      (∀ x : Symbol, x.name = text → s.symbols.Numbers text x.id →
        byText = (call id (.record r :: .symbol x :: rest)).run.run s) ∧
      match lastMethod? log r text with
      | some f =>
        byText = (callUpTo (callDepth - 1) f rest).run.run interned ∧
          (¬TooDeep byText.1 → byText = (call f rest).run.run interned)
      | none => byText = (.error (.methodNotFound text (s.store.record r).typeName), interned) := by
  intro byText interned
  have hdeclares := declares_of_reached h.reached
  have hdispatches := dispatches_of_logged h
  have hinterned : Dispatches interned log := hdispatches.of_records rfl fun hn => hn.intern text
  -- every way to call leads to the dispatch of a symbol of the text
  have hname (dotted : Bool) : (s.intern text dotted).1.name = text := (s.symbols.numbers_intern text).lookup
  have hnumbers : interned.symbols.Numbers text (s.symbols.intern text).1 := s.symbols.numbers_intern text
  have hdispatch (x : Symbol) (hx : x.name = text) (hid : interned.symbols.Numbers text x.id) :
      (callMethod (callUpTo (callDepth - 1)) r x rest).run.run interned =
        match lastMethod? log r text with
        | some f => (callUpTo (callDepth - 1) f rest).run.run interned
        | none => (.error (.methodNotFound text (s.store.record r).typeName), interned) := by
    subst hx
    exact hinterned.run_callMethod hid r rest
  have hbyText : byText = _ :=
    (hdeclares.run_call_callMethod hbody (.record r) (.text text raw) rest).trans
      (hdispatch (s.intern text false).1 (hname false) hnumbers)
  refine ⟨?_, ?_, ?_⟩
  · have hbody' : (interned.store.function id).body = .host .callMethod := hbody
    have hdeclares' : Declares interned := hdeclares
    rw [hbyText, hdeclares'.run_call_callMethod hbody']
    exact (hdispatch (s.intern text dotted).1 (hname dotted) hnumbers).symm
  · intro x hx hid
    have hsame : interned = s := by
      simp only [interned, hid.intern_eq]
    rw [hbyText, hdeclares.run_call_callMethod hbody, ← hdispatch x hx (hid.intern text), hsame]
    rfl
  · cases hlast : lastMethod? log r text with
    | some f =>
      rw [hlast] at hbyText
      refine ⟨hbyText, fun hdeep => ?_⟩
      rw [hbyText] at hdeep ⊢
      exact (run_call_of_nested hdeep).symm
    | none =>
      rw [hlast] at hbyText
      exact hbyText

/-- A method that has been replaced, and a record that delegates to the one that has it but has none itself. -/
theorem dispatch_own_method_delegating :
    let x : Symbol := ⟨12, "greet", true⟩
    let s := (start .initial).registerBuiltins.apply (.addFunction (.ofHost "greet" 1 true .first))
    let s := (s.apply (.intern "greet")).apply (.addRecord { typeName := "Host" })
    let s := s.apply (.addRecord { typeName := "Guest" })
    let s := ((s.callRecord ⟨0⟩ (.addMethod x ⟨4⟩)).callRecord ⟨0⟩ (.addMethod x ⟨8⟩)).callRecord ⟨1⟩ (.setSuper ⟨0⟩)
    let log := [(⟨1⟩, .setSuper ⟨0⟩), (⟨0⟩, .addMethod x ⟨8⟩), (⟨0⟩, .addMethod x ⟨4⟩)]
    Logged s log ∧ (s.store.function ⟨3⟩).body = .host .callMethod ∧
      (lastMethod? log ⟨0⟩ "greet" = some ⟨8⟩ ∧
        (call ⟨3⟩ [.record ⟨0⟩, .text "greet" false, .int 5]).run.run s = (.ok (.int 5), s) ∧
        (call ⟨3⟩ [.record ⟨0⟩, .symbol x, .int 5]).run.run s = (.ok (.int 5), s)) ∧
      ((s.store.record ⟨1⟩).super? = some ⟨0⟩ ∧ lastMethod? log ⟨1⟩ "greet" = none ∧
        (call ⟨3⟩ [.record ⟨1⟩, .text "greet" true, .int 5]).run.run s =
          (.error (.methodNotFound "greet" "Guest"), s)) := by
  intro x s₁ s₂ s₃ s log
  have hcopies : Change.CopiesBuiltins (start .initial).registerBuiltins
      (.addFunction (.ofHost "greet" 1 true .first)) := by
    rintro name arity variadic action hmem ⟨⟩
    simp [builtins] at hmem
  have hs₁ : Logged s₁ [] := .change (.registerBuiltins (.start .initial)) hcopies trivial
  have hs₂ : Logged s₂ [] := .addRecord "Host" (.change hs₁ trivial trivial)
  have hs₃ : Logged s₃ [] := .addRecord "Guest" hs₂
  have hsize : s₃.store.records.size = 2 := rfl
  have hnumbers : s₃.symbols.Numbers "greet" 12 := rfl
  have hfirst : Logged (s₃.callRecord ⟨0⟩ (.addMethod x ⟨4⟩)) _ := .onRecord hs₃ (by rw [hsize]; decide) hnumbers
  have hsecond : Logged ((s₃.callRecord ⟨0⟩ (.addMethod x ⟨4⟩)).callRecord ⟨0⟩ (.addMethod x ⟨8⟩)) _ :=
    .onRecord hfirst (by rw [size_callRecord, hsize]; decide) (by rw [symbols_callRecord]; exact hnumbers)
  have hs : Logged s log := .onRecord hsecond (by rw [size_callRecord, size_callRecord, hsize]; decide) trivial
  have hnumbers : s.symbols.Numbers "greet" 12 := by
    rw [symbols_callRecord, symbols_callRecord, symbols_callRecord]
    exact hnumbers
  have hbody : (s.store.function ⟨3⟩).body = .host .callMethod := rfl
  have hsuper : (s.store.record ⟨1⟩).super? = some ⟨0⟩ := by decide
  have hhost : lastMethod? log ⟨0⟩ "greet" = some ⟨8⟩ := by decide
  have hguest : lastMethod? log ⟨1⟩ "greet" = none := by decide
  obtain ⟨-, hsymbol, hfound⟩ := dispatch_own_method hs hbody ⟨0⟩ "greet" false true [.int 5]
  obtain ⟨-, -, hmissing⟩ := dispatch_own_method hs hbody ⟨1⟩ "greet" true true [.int 5]
  have hinterned : ({ s with symbols := (s.symbols.intern "greet").2 } : Session) = s := by
    rw [hnumbers.intern_eq]
  have hrun : (callUpTo (callDepth - 1) ⟨8⟩ [.int 5]).run.run s = (.ok (.int 5), s) := by
    rw [show callDepth - 1 = 99998 + 1 from rfl, callUpTo]
    rfl
  rw [hhost] at hfound
  rw [hguest] at hmissing
  simp only [hinterned, hrun] at hfound hmissing
  have htext : (call ⟨3⟩ [.record ⟨0⟩, .text "greet" false, .int 5]).run.run s = (.ok (.int 5), s) := hfound.1
  exact ⟨hs, hbody, ⟨hhost, htext, (hsymbol x rfl hnumbers).symm.trans htext⟩, hsuper, hguest, hmissing⟩

end Session

end Zygo
