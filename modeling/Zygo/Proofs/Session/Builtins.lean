import Zygo.Proofs.Scope.Closures
import Zygo.Proofs.Session.Arguments
import Zygo.Proofs.Session.Import

/-!
# Failing built-in functions

Built-in functions are made by registering them, and otherwise only copied (`Session.Reached`), so they are declared as
registered ever after (`declares_of_reached`). A built-in function that fails has checked before it changed anything: the
session is as it was (`Session.InPlace`). Only the call of a method has made a symbol of the method's name by then.

* `builtin_fails_in_place`: all ways in which built-in functions fail, in every session that can be reached.
-/

namespace Zygo.Session

variable {s : Session} {f : Function} {args : List Value} {α β : Type}

/-! ## Sessions that can be reached -/

/-- Whether a change adds no built-in function, unless it is a copy of one that there is: it may capture something else,
but has the name, the arity and the action. -/
def Change.CopiesBuiltins (s : Session) : Change → Prop
  | .addFunction f => ∀ name arity variadic action, (name, arity, variadic, action) ∈ builtins →
    f.body = .host action →
      ∃ id, (s.store.function id).body = f.body ∧ (s.store.function id).arity = f.arity ∧
        (s.store.function id).variadic = f.variadic
  | _ => True

/-- A session that can be reached: from the start by changes, by registering the built-in functions, and by calls and
evaluations. -/
inductive Reached : Session → Prop
  | start (symbols : SymbolTable) : Reached (start symbols)
  | change {s : Session} {c : Change} : Reached s → c.CopiesBuiltins s → Reached (s.apply c)
  | registerBuiltins {s : Session} : Reached s → Reached s.registerBuiltins
  | call {s : Session} (id : FunctionId) (args : List Value) : Reached s → Reached ((call id args).run.run s).2
  | eval {s : Session} (frame : FrameId) (form : Value) : Reached s → Reached ((eval frame form).run.run s).2

theorem Declares.addFunction (h : Declares s) (hf : f.Declared) :
    Declares { s with store := (s.store.addFunction f).2 } := by
  intro id
  simp only [Store.function_addFunction]
  split
  · exact hf
  · exact h id

theorem declares_apply {c : Change} (h : Declares s) (hc : c.CopiesBuiltins s) : Declares (s.apply c) := by
  cases c with
  | addFunction f =>
    refine h.addFunction fun name arity variadic action hmem hbody => ?_
    obtain ⟨id, hcopied, harity, hvariadic⟩ := hc name arity variadic action hmem hbody
    rw [← harity, ← hvariadic]
    exact h id name arity variadic action hmem (hcopied.trans hbody)
  | setClosing g closing =>
    intro id
    simp only [apply]
    by_cases hid : id = g
    · subst hid
      by_cases hlt : id.index < s.store.functions.size
      · rw [Store.function_setClosing_self closing hlt]
        exact h id
      · -- a function that does not exist stays the one that does nothing
        have hid := h id
        simpa [Store.function, Store.setClosing, Array.getElem?_modify, hlt] using hid
    · rw [Store.function_setClosing_of_ne s.store closing hid]
      exact h id
  | assign i x v =>
    obtain ⟨frames, happly⟩ := s.exists_apply_assign i x v
    rw [happly]
    exact h.of_functions rfl
  | register p =>
    obtain ⟨packages, happly⟩ := s.exists_apply_register p
    rw [happly]
    exact h.of_functions rfl
  | _ => exact h.of_functions rfl

/-- No two built-in functions do the same. -/
theorem declared_of_mem_builtins {entry : String × Nat × Bool × HostAction} (h : entry ∈ builtins) :
    (Function.ofHost entry.1 entry.2.1 entry.2.2.1 entry.2.2.2).Declared := by
  have htable : ∀ e ∈ builtins, ∀ e' ∈ builtins, e.2.2.2 = e'.2.2.2 → e.2.1 = e'.2.1 ∧ e.2.2.1 = e'.2.2.1 := by decide
  intro name arity variadic action hmem hbody
  exact htable entry h _ hmem (Body.host.inj hbody)

theorem declares_registerBuiltins (h : Declares s) : Declares s.registerBuiltins := by
  have hdeclared : ∀ entry ∈ builtins, (Function.ofHost entry.1 entry.2.1 entry.2.2.1 entry.2.2.2).Declared :=
    fun _ => declared_of_mem_builtins
  rw [registerBuiltins]
  generalize builtins = l at hdeclared ⊢
  induction l generalizing s with
  | nil => exact h
  | cons entry l ih =>
    have hadd := h.addFunction (hdeclared entry List.mem_cons_self)
    exact ih (hadd.of_functions rfl) fun e he => hdeclared e (List.mem_cons_of_mem entry he)

theorem declares_start (symbols : SymbolTable) : Declares (start symbols) := by
  intro id name arity variadic action hmem hbody
  obtain rfl : HostAction.nothing = action := Body.host.inj hbody
  simp [builtins] at hmem

/-- **Built-in functions are declared as registered**, in every session that can be reached. -/
theorem declares_of_reached (h : Reached s) : Declares s := by
  induction h with
  | start symbols => exact declares_start symbols
  | change _ hc ih => exact declares_apply ih hc
  | registerBuiltins _ ih => exact declares_registerBuiltins ih
  | call id args _ ih => exact (inBounds_call id args _ ih).1
  | eval frame form _ ih => exact (inBounds_eval frame form _ ih).1

/-! ## Failing in place -/

/-- An action that fails leaves the session as it was, and its error is about the values and names at hand. -/
def InPlace (a : Action α) : Prop :=
  ∀ s e, (a.run.run s).1 = .error e → (a.run.run s).2 = s ∧ e.IsTyped

theorem inPlace_pureResult {r : Except RuntimeError α} (h : Typed r) : InPlace (pureResult r) :=
  fun _ e he => ⟨rfl, h e he⟩

theorem inPlace_mismatch (context expected : String) (v : Value) : InPlace (mismatch context expected v : Action α) :=
  inPlace_pureResult (typed_error trivial)

/-- What comes last cannot fail, so an action fails in place if its first part does. -/
theorem inPlace_bind_pure {a : Action α} (h : InPlace a) (g : α → β) : InPlace (a >>= fun x => pure (g x)) := by
  intro s e he
  have hs := h s
  rw [run_bind] at he ⊢
  generalize a.run.run s = result at he hs ⊢
  obtain ⟨e' | x, t⟩ := result
  · exact hs e (by rw [← Except.error.inj he])
  · cases he

theorem inPlace_argument_bind {i : Nat} {g : Value → Action α} (hi : i < args.length) (hg : ∀ v, InPlace (g v)) :
    InPlace (argument f args i >>= g) := by
  rw [argument, List.getElem?_eq_getElem hi]
  exact hg args[i]

theorem inPlace_ofChange (g : Session → α × Session) : InPlace (ofChange g) :=
  fun _ _ he => nomatch he

theorem inPlace_modify (g : Session → Session) : InPlace (modify g : Action PUnit) :=
  fun _ _ he => nomatch he

theorem inPlace_importPackage (name : String) : InPlace (ofOperation (·.importPackage name)) := by
  intro s e he
  refine ⟨?_, s.typed_importPackage name e he⟩
  have he : (s.importPackage name).1 = .error e := he
  change (s.importPackage name).2 = s
  unfold importPackage at he ⊢
  split at he
  · rfl
  · cases he

/-- **Built-in functions fail in place**, except that the call of a method does what the method does. -/
theorem inPlace_perform {call : FunctionId → List Value → Action Value} {action : HostAction}
    (hbuiltin : ∃ name arity variadic, (name, arity, variadic, action) ∈ builtins) (hcall : action ≠ .callMethod)
    (hreads : action.reads ≤ args.length) : InPlace (perform call f action args) := by
  -- `hreads` is the bound of the last argument that the action reads
  cases action with
  | packageOf =>
    apply inPlace_argument_bind hreads
    intro v
    split
    · exact inPlace_bind_pure (inPlace_ofChange _) _
    · exact inPlace_mismatch _ _ _
  | exportFrom =>
    apply inPlace_argument_bind (Nat.lt_of_succ_lt hreads)
    intro v
    split
    · apply inPlace_argument_bind hreads
      intro w
      split
      · exact inPlace_bind_pure (inPlace_modify _) _
      · exact inPlace_mismatch _ _ _
    · exact inPlace_mismatch _ _ _
  | importPackage =>
    apply inPlace_argument_bind hreads
    intro v
    split
    · exact inPlace_bind_pure (inPlace_importPackage _) _
    · exact inPlace_mismatch _ _ _
  | callMethod => exact absurd rfl hcall
  | concat => exact inPlace_argument_bind hreads fun v => inPlace_pureResult (typed_concat v _)
  | append =>
    exact inPlace_argument_bind (Nat.lt_of_succ_lt hreads) fun v => inPlace_argument_bind hreads fun w =>
      inPlace_pureResult (typed_appendChar v w)
  | chomp => exact inPlace_argument_bind hreads fun v => inPlace_pureResult (typed_chomp v)
  | trim => exact inPlace_argument_bind hreads fun v => inPlace_pureResult (typed_trim v)
  | _ =>
    obtain ⟨name, arity, variadic, hmem⟩ := hbuiltin
    simp [builtins] at hmem

/-! ## Calls of methods -/

theorem run_get (s : Session) : (get : Action Session).run.run s = (.ok s, s) :=
  rfl

section CallMethod

variable {call : FunctionId → List Value → Action Value} {v w : Value} {r : RecordId} {x : Symbol} {rest : List Value}

theorem run_perform_receiver (h : v.asRecord? = none) :
    (perform call f .callMethod (v :: w :: rest)).run.run s =
      (.error (.typeMismatch "_call: receiver" "record" v.variant), s) := by
  cases v with
  | record id => cases h
  | _ => rfl

theorem run_perform_methodName (hsymbol : w.asSymbol? = none) (htext : w.asText? = none) :
    (perform call f .callMethod (.record r :: w :: rest)).run.run s =
      (.error (.typeMismatch "_call: method name" "symbol or string" w.variant), s) := by
  cases w with
  | symbol x => cases hsymbol
  | text name raw => cases htext
  | _ => rfl

theorem run_callMethod_missing (h : (s.store.record r).method? x = none) :
    (callMethod call r x args).run.run s = (.error (.methodNotFound x.name (s.store.record r).typeName), s) := by
  rw [callMethod, run_bind, run_get]
  dsimp only
  rw [h]
  rfl

end CallMethod

/-! ## Calls of built-in functions -/

theorem call_eq_callWith (id : FunctionId) (args : List Value) :
    call id args = callWith (callUpTo (callDepth - 1)) id args := by
  have hdepth : callDepth - 1 + 1 = callDepth := by decide
  rw [call, ← hdepth, callUpTo, hdepth]

/-- The count of the arguments is checked before anything else. -/
theorem run_call_refused (s : Session) (id : FunctionId) (h : (s.store.function id).accepts args.length = false) :
    (call id args).run.run s =
      (.error (.wrongArgumentCount (s.store.function id).name (s.store.function id).arity args.length
        (s.store.function id).variadic), s) := by
  rw [call_eq_callWith, callWith, run_bind, run_get]
  dsimp only
  rw [h]
  rfl

/-- A host function that accepts its arguments does its action. The calls in it may be nested one level less deeply. -/
theorem run_call_host {id : FunctionId} {action : HostAction} (hbody : (s.store.function id).body = .host action)
    (h : (s.store.function id).accepts args.length = true) :
    (call id args).run.run s = (perform (callUpTo (callDepth - 1)) (s.store.function id) action args).run.run s := by
  rw [call_eq_callWith, callWith, run_bind, run_get]
  dsimp only
  rw [if_pos h, hbody]

/-- **Built-in functions fail with typed errors and change nothing by it.** Take any session that can be reached, a
built-in function in it under whatever name, and any arguments.

The function is declared as registered, and a call reads no argument that is not there. A wrong count of arguments is
refused at once. All built-in functions but the call of methods leave the session as it was when they fail, and their
errors are about the values and names at hand. The call of a method leaves the session as it was if the receiver is no
record, if the method is named by neither a symbol nor a text, and if the record has no method of the symbol; if it has
none of a text, the text has become a symbol and nothing else has changed. -/
theorem builtin_fails_in_place (hs : Reached s) {name : String} {arity : Nat} {variadic : Bool} {action : HostAction}
    (hbuiltin : (name, arity, variadic, action) ∈ builtins) {id : FunctionId}
    (hbody : (s.store.function id).body = .host action) (args : List Value) :
    let f := s.store.function id
    let result := (call id args).run.run s
    (f.arity = arity ∧ f.variadic = variadic) ∧ (∀ owner i, result.1 ≠ .error (.missingArgument owner i)) ∧
      (f.accepts args.length = false →
        result = (.error (.wrongArgumentCount f.name arity args.length variadic), s)) ∧
      (action ≠ .callMethod → ∀ e, result.1 = .error e → result.2 = s ∧ e.IsTyped) ∧
      (action = .callMethod → ∀ v w rest, args = v :: w :: rest →
        (v.asRecord? = none → result = (.error (.typeMismatch "_call: receiver" "record" v.variant), s)) ∧
        ∀ r, v = .record r →
          (w.asSymbol? = none → w.asText? = none →
            result = (.error (.typeMismatch "_call: method name" "symbol or string" w.variant), s)) ∧
          (∀ x, w = .symbol x → (s.store.record r).method? x = none →
            result = (.error (.methodNotFound x.name (s.store.record r).typeName), s)) ∧
          (∀ text raw, w = .text text raw → (s.store.record r).method? (s.intern text).1 = none →
            result = (.error (.methodNotFound text (s.store.record r).typeName),
              { s with symbols := (s.symbols.intern text).2 }))) := by
  intro f result
  have hdeclares := declares_of_reached hs
  have hf : f.Declared := hdeclares id
  obtain ⟨harity, hvariadic⟩ := hf name arity variadic action hbuiltin hbody
  refine ⟨⟨harity, hvariadic⟩, (inBounds_call id args s hdeclares).2, fun hrefused => ?_, fun hother e he => ?_, ?_⟩
  · rw [← harity, ← hvariadic]
    exact run_call_refused s id hrefused
  · cases haccepts : f.accepts args.length with
    | false =>
      have hresult : result = _ := run_call_refused s id haccepts
      rw [hresult] at he ⊢
      obtain rfl := Except.error.inj he
      exact ⟨rfl, trivial⟩
    | true =>
      have hresult : result = _ := run_call_host hbody haccepts
      rw [hresult] at he ⊢
      exact inPlace_perform ⟨name, arity, variadic, hbuiltin⟩ hother (hf.reads_le hbody haccepts) s e he
  · rintro rfl v w rest rfl
    -- two arguments are there, so what can fail is the receiver, the name and the look-up of the method
    obtain ⟨htwo, hmore⟩ := hf "_call" 2 true .callMethod (by decide) hbody
    have haccepts : f.accepts (v :: w :: rest).length = true := by simp [Function.accepts, htwo, hmore]
    have hresult : result = _ := run_call_host hbody haccepts
    rw [hresult]
    refine ⟨run_perform_receiver, ?_⟩
    rintro r rfl
    refine ⟨run_perform_methodName, ?_, ?_⟩
    · rintro x rfl hmissing
      exact run_callMethod_missing hmissing
    · rintro text raw rfl hmissing
      have hname : (s.intern text).1.name = text := (s.symbols.numbers_intern text).lookup
      have hrun : (callMethod (callUpTo (callDepth - 1)) r (s.intern text).1 rest).run.run (s.intern text).2 = _ :=
        run_callMethod_missing hmissing
      rw [hname] at hrun
      exact hrun

/-- With a record that has no methods, `_call` makes a symbol of the method's name and nothing else, and `export` without
arguments does nothing at all. -/
theorem builtin_fails_in_place_record :
    let s := (start .initial).registerBuiltins.apply (.addRecord { typeName := "Point" })
    Reached s ∧ ("_call", 2, true, .callMethod) ∈ builtins ∧ (s.store.function ⟨3⟩).body = .host .callMethod ∧
      (call ⟨3⟩ [.record ⟨0⟩, .text "norm" true]).run.run s =
        (.error (.methodNotFound "norm" "Point"), { s with symbols := (s.symbols.intern "norm").2 }) ∧
      ("export", 2, false, .exportFrom) ∈ builtins ∧ (s.store.function ⟨1⟩).body = .host .exportFrom ∧
      (call ⟨1⟩ []).run.run s = (.error (.wrongArgumentCount "export" 2 0 false), s) := by
  intro s
  have hs : Reached s := .change (.registerBuiltins (.start .initial)) trivial
  have hcall : ("_call", 2, true, .callMethod) ∈ builtins := by decide
  have hcallBody : (s.store.function ⟨3⟩).body = .host .callMethod := rfl
  have hexport : ("export", 2, false, .exportFrom) ∈ builtins := by decide
  have hexportBody : (s.store.function ⟨1⟩).body = .host .exportFrom := rfl
  obtain ⟨-, -, -, -, hmethod⟩ := builtin_fails_in_place hs hcall hcallBody [.record ⟨0⟩, .text "norm" true]
  obtain ⟨-, -, hrefused, -⟩ := builtin_fails_in_place hs hexport hexportBody []
  obtain ⟨-, hrecord⟩ := hmethod rfl (.record ⟨0⟩) (.text "norm" true) [] rfl
  obtain ⟨-, -, htext⟩ := hrecord ⟨0⟩ rfl
  exact ⟨hs, hcall, hcallBody, htext "norm" true rfl rfl, hexport, hexportBody, hrefused rfl⟩

end Zygo.Session
