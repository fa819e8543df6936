import Zygo.Proofs.Session.Globals

/-!
# Arguments of calls

A built-in function reads its arguments by their places, and the arity that it is declared with says how many there are at
least. So no call reads an argument that is not there, in a session in which every function that does what a built-in does
is declared like it (`Session.Declares`). Calls keep sessions so, whatever they call (`Session.InBounds`).

* `inBounds_call`, `inBounds_eval`: calls and evaluations read no argument that is not there.
-/

namespace Zygo

/-! ## Errors -/

/-- An error about the values and names at hand: neither an argument that is not there nor calls that are nested too
deeply. -/
def RuntimeError.IsTyped : RuntimeError → Prop
  | callsTooDeep _ | missingArgument .. => False
  | _ => True

/-- A result that fails, if it does, with an error about the values and names at hand. -/
def Typed {α : Type} (r : Except RuntimeError α) : Prop :=
  ∀ e, r = .error e → e.IsTyped

section Typed

variable {α β : Type}

theorem typed_ok (a : α) : Typed (.ok a) :=
  fun _ h => nomatch h

theorem typed_error {e : RuntimeError} (h : e.IsTyped) : Typed (.error e : Except RuntimeError α) := by
  rintro _ ⟨⟩
  exact h

theorem Typed.map {r : Except RuntimeError α} (h : Typed r) (g : α → β) : Typed (r.map g) := by
  cases r with
  | ok a => exact typed_ok _
  | error e => exact typed_error (h e rfl)

theorem Typed.ne_missingArgument {r : Except RuntimeError α} (h : Typed r) (name : String) (i : Nat) :
    r ≠ .error (.missingArgument name i) :=
  fun he => h _ he

theorem typed_lookup (fs : Frames) (frame : FrameId) (x : Symbol) : Typed (fs.lookup frame x) := by
  rcases fs.lookup_cases frame x with ⟨-, v, -, -, h⟩ | ⟨-, h⟩ <;> rw [h]
  · exact typed_ok v
  · exact typed_error trivial

theorem typed_elements (store : Store) (v : Value) : Typed (store.elements v) := by
  unfold Store.elements
  split
  · exact typed_ok _
  · exact typed_error trivial
  · exact typed_error trivial

theorem typed_expectText (context : String) (v : Value) : Typed (v.expectText context) := by
  unfold Value.expectText
  split
  · exact typed_ok _
  · exact typed_error trivial

theorem typed_joinFrom (joined : String) (i : Nat) (vs : List Value) : Typed (Value.joinFrom joined i vs) := by
  induction vs generalizing joined i with
  | nil => exact typed_ok joined
  | cons v vs ih =>
    have htext := typed_expectText ("concat: argument " ++ toString i ++ " (0-based) of the rest") v
    unfold Value.joinFrom
    generalize v.expectText _ = r at htext ⊢
    cases r with
    | ok s => exact ih _ _
    | error e => exact typed_error (htext e rfl)

theorem typed_concat (first : Value) (rest : List Value) : Typed (first.concat rest) := by
  have htext := typed_expectText "concat: first argument" first
  unfold Value.concat
  generalize first.expectText _ = r at htext ⊢
  cases r with
  | ok s => exact (typed_joinFrom s 0 rest).map _
  | error e => exact typed_error (htext e rfl)

theorem typed_appendChar (first second : Value) : Typed (first.appendChar second) := by
  have htext := typed_expectText "append: first argument" first
  unfold Value.appendChar
  generalize first.expectText _ = r at htext ⊢
  cases r with
  | ok s =>
    dsimp only
    split
    · exact typed_ok _
    · exact typed_error trivial
  | error e => exact typed_error (htext e rfl)

theorem typed_chomp (v : Value) : Typed v.chomp :=
  (typed_expectText "chomp" v).map _

theorem typed_trim (v : Value) : Typed v.trim :=
  (typed_expectText "trim" v).map _

theorem Session.typed_importPackage (s : Session) (name : String) : Typed (s.importPackage name).1 := by
  unfold importPackage
  split
  · exact typed_error trivial
  · exact typed_ok _

end Typed

/-! ## Declarations -/

/-- How many arguments an action reads by their places. -/
def HostAction.reads : HostAction → Nat
  | exportFrom | callMethod | append => 2
  | packageOf | importPackage | concat | chomp | trim => 1
  | argCount | argList | argArray | first | ownName | nothing | refuse | apply | global => 0

/-- A function that does what a built-in function does takes as many arguments. -/
def Function.Declared (f : Function) : Prop :=
  ∀ name arity variadic action, (name, arity, variadic, action) ∈ Session.builtins → f.body = .host action →
    f.arity = arity ∧ f.variadic = variadic

/-- A declared function that takes a list of arguments finds all in it that it reads. -/
theorem Function.Declared.reads_le {f : Function} {action : HostAction} {count : Nat} (h : f.Declared)
    (hbody : f.body = .host action) (haccepts : f.accepts count = true) : action.reads ≤ count := by
  have harity : f.arity ≤ count := by
    unfold Function.accepts at haccepts
    split at haccepts
    · exact of_decide_eq_true haccepts
    · exact Nat.le_of_eq (beq_iff_eq.1 haccepts).symm
  have hbuiltin : ∀ name arity variadic, (name, arity, variadic, action) ∈ Session.builtins → arity ≤ count := by
    intro name arity variadic hmem
    rw [← (h name arity variadic action hmem hbody).1]
    exact harity
  cases action with
  | packageOf => exact hbuiltin "package" 1 false (by decide)
  | exportFrom => exact hbuiltin "export" 2 false (by decide)
  | importPackage => exact hbuiltin "import" 1 false (by decide)
  | callMethod => exact hbuiltin "_call" 2 true (by decide)
  | concat => exact hbuiltin "concat" 1 true (by decide)
  | append => exact hbuiltin "append" 2 false (by decide)
  | chomp => exact hbuiltin "chomp" 1 false (by decide)
  | trim => exact hbuiltin "trim" 1 false (by decide)
  | _ => exact Nat.zero_le _

namespace Session

variable {s t : Session} {f : Function} {args : List Value} {α β : Type}

/-- All functions of a session are declared as the built-in functions are that they do the same as. -/
def Declares (s : Session) : Prop :=
  ∀ id, (s.store.function id).Declared

theorem Declares.of_functions (h : Declares s) (hst : t.store.functions = s.store.functions) : Declares t := by
  intro id
  have hid := h id
  rw [Store.function, ← hst] at hid
  exact hid

/-! ## Actions -/

/-- In a session with declared functions an action reads no argument that is not there, and the session that it leads to
has declared functions. -/
def InBounds (a : Action α) : Prop :=
  ∀ s, Declares s → Declares (a.run.run s).2 ∧ ∀ name i, (a.run.run s).1 ≠ .error (.missingArgument name i)

theorem inBounds_pureResult {r : Except RuntimeError α} (h : Typed r) : InBounds (pureResult r) :=
  fun _ hs => ⟨hs, h.ne_missingArgument⟩

theorem inBounds_pure (a : α) : InBounds (pure a) :=
  fun _ hs => ⟨hs, fun _ _ h => nomatch h⟩

theorem inBounds_raise {e : RuntimeError} (h : e.IsTyped) : InBounds (raise e : Action α) :=
  inBounds_pureResult (typed_error h)

theorem inBounds_mismatch (context expected : String) (v : Value) : InBounds (mismatch context expected v : Action α) :=
  inBounds_raise trivial

theorem inBounds_bind {a : Action α} {g : α → Action β} (ha : InBounds a) (hg : ∀ x, InBounds (g x)) :
    InBounds (a >>= g) := by
  intro s hs
  obtain ⟨hdeclares, hresult⟩ := ha s hs
  rw [run_bind]
  generalize a.run.run s = result at hdeclares hresult ⊢
  obtain ⟨e | x, t⟩ := result
  · exact ⟨hdeclares, fun name i h => hresult name i (by rw [Except.error.inj h])⟩
  · exact hg x t hdeclares

/-- What an action does with the session that it finds may rely on the functions being declared. -/
theorem inBounds_get_bind {g : Session → Action α} (h : ∀ s, Declares s → InBounds (g s)) :
    InBounds ((get : Action Session) >>= g) :=
  fun s hs => h s hs s hs

theorem inBounds_ofOperation {g : Session → Except RuntimeError α × Session}
    (hfunctions : ∀ s, (g s).2.store.functions = s.store.functions)
    (htyped : ∀ s, Typed (g s).1) : InBounds (ofOperation g) :=
  fun s hs => ⟨hs.of_functions (hfunctions s), (htyped s).ne_missingArgument⟩

theorem inBounds_ofChange {g : Session → α × Session} (h : ∀ s, (g s).2.store.functions = s.store.functions) :
    InBounds (ofChange g) :=
  fun s hs => ⟨hs.of_functions (h s), fun _ _ he => nomatch he⟩

theorem inBounds_modify {g : Session → Session} (h : ∀ s, (g s).store.functions = s.store.functions) :
    InBounds (modify g : Action PUnit) :=
  fun s hs => ⟨hs.of_functions (h s), fun _ _ he => nomatch he⟩

theorem inBounds_argument {i : Nat} (h : i < args.length) : InBounds (argument f args i) := by
  rw [argument, List.getElem?_eq_getElem h]
  exact inBounds_pure _

theorem inBounds_methodSymbol (v : Value) : InBounds (methodSymbol v) := by
  unfold methodSymbol
  split
  · exact inBounds_pure _
  · exact inBounds_ofChange fun _ => rfl
  · exact inBounds_mismatch _ _ _

/-! ## Operations -/

theorem functions_packageOf (s : Session) (name : String) :
    (s.packageOf name).2.store.functions = s.store.functions := by
  unfold packageOf
  split <;> rfl

theorem functions_importPackage (s : Session) (name : String) :
    (s.importPackage name).2.store.functions = s.store.functions := by
  unfold importPackage
  split
  · rfl
  · rw [s.bindExports_frame]

/-! ## Calls and evaluation -/

section Calls

variable {call : FunctionId → List Value → Action Value}

mutual

theorem inBounds_evalWith (hcall : ∀ id args, InBounds (call id args)) (frame : FrameId) :
    ∀ form, InBounds (evalWith call frame form)
  | .symbol x => inBounds_get_bind fun s _ => inBounds_pureResult (typed_lookup s.store.frames frame x)
  | .pair cell head tail => by
    refine inBounds_get_bind fun s _ =>
      inBounds_bind (inBounds_pureResult (typed_elements s.store _)) fun _ => ?_
    apply inBounds_bind (inBounds_evalWith hcall frame head)
    intro v
    split
    · refine inBounds_get_bind fun s _ => ?_
      split
      · exact hcall _ _
      · exact inBounds_bind (inBounds_evalElements hcall frame tail) fun args => hcall _ args
    · exact inBounds_mismatch _ _ _
  | .int _ | .float _ | .bool _ | .char _ | .sentinel _ | .text .. | .bytes .. | .array _ | .function _ | .record _
  | .package _ | .error _ | .host _ | .type _ => inBounds_pure _

theorem inBounds_evalElements (hcall : ∀ id args, InBounds (call id args)) (frame : FrameId) :
    ∀ form, InBounds (evalElements call frame form)
  | .pair _ head tail =>
    inBounds_bind (inBounds_evalWith hcall frame head) fun _ =>
      inBounds_bind (inBounds_evalElements hcall frame tail) fun _ => inBounds_pure _
  | .int _ | .float _ | .bool _ | .char _ | .symbol _ | .sentinel _ | .text .. | .bytes .. | .array _ | .function _
  | .record _ | .package _ | .error _ | .host _ | .type _ => inBounds_pure _

end

variable (hcall : ∀ id args, InBounds (call id args))
include hcall

theorem inBounds_callMethod (r : RecordId) (method : Symbol) (args : List Value) :
    InBounds (callMethod call r method args) := by
  refine inBounds_get_bind fun s _ => ?_
  split
  · exact hcall _ _
  · exact inBounds_raise trivial

/-- Host functions read no argument that is not there, if the calls that they make do not. -/
theorem inBounds_perform {action : HostAction} (hreads : action.reads ≤ args.length) :
    InBounds (perform call f action args) := by
  have hargument : ∀ i, i < action.reads → InBounds (argument f args i) := fun i hi =>
    inBounds_argument (Nat.lt_of_lt_of_le hi hreads)
  cases action with
  | packageOf =>
    apply inBounds_bind (hargument 0 (by decide))
    intro v
    split
    · exact inBounds_bind (inBounds_ofChange fun s => s.functions_packageOf _) fun _ => inBounds_pure _
    · exact inBounds_mismatch _ _ _
  | exportFrom =>
    apply inBounds_bind (hargument 0 (by decide))
    intro v
    split
    · apply inBounds_bind (hargument 1 (by decide))
      intro w
      split
      · exact inBounds_bind (inBounds_modify fun _ => rfl) fun _ => inBounds_pure _
      · exact inBounds_mismatch _ _ _
    · exact inBounds_mismatch _ _ _
  | importPackage =>
    apply inBounds_bind (hargument 0 (by decide))
    intro v
    split
    · exact inBounds_bind (inBounds_ofOperation (fun s => s.functions_importPackage _) fun s => s.typed_importPackage _)
        fun _ => inBounds_pure _
    · exact inBounds_mismatch _ _ _
  | callMethod =>
    apply inBounds_bind (hargument 0 (by decide))
    intro v
    split
    · refine inBounds_bind (hargument 1 (by decide)) fun w => inBounds_bind (inBounds_methodSymbol w) fun method => ?_
      exact inBounds_callMethod hcall _ _ _
    · exact inBounds_mismatch _ _ _
  | concat =>
    exact inBounds_bind (hargument 0 (by decide)) fun v => inBounds_pureResult (typed_concat v _)
  | append =>
    exact inBounds_bind (hargument 0 (by decide)) fun v => inBounds_bind (hargument 1 (by decide)) fun w =>
      inBounds_pureResult (typed_appendChar v w)
  | chomp => exact inBounds_bind (hargument 0 (by decide)) fun v => inBounds_pureResult (typed_chomp v)
  | trim => exact inBounds_bind (hargument 0 (by decide)) fun v => inBounds_pureResult (typed_trim v)
  | argList => exact inBounds_ofChange fun _ => rfl
  | argCount | argArray | first | ownName | nothing => exact inBounds_pure _
  | refuse => exact inBounds_mismatch _ _ _
  | apply =>
    simp only [perform]
    split
    · exact hcall _ _
    · exact inBounds_mismatch _ _ _
  | global => exact inBounds_ofOperation (fun _ => rfl) fun s => typed_lookup _ _ _

/-- One call reads no argument that is not there, if the calls in it do not: the arity check comes first. -/
theorem inBounds_callWith (id : FunctionId) (args : List Value) : InBounds (callWith call id args) := by
  refine inBounds_get_bind fun s hs => ?_
  have hf := hs id
  dsimp only
  generalize s.store.function id = f at hf
  split
  · rename_i haccepts
    split
    · rename_i action hbody
      exact inBounds_perform hcall (hf.reads_le hbody haccepts)
    · split
      · exact inBounds_bind (inBounds_ofChange fun _ => rfl) fun frame => inBounds_evalWith hcall frame _
      · exact inBounds_raise trivial
  · exact inBounds_raise trivial

end Calls

theorem inBounds_callUpTo (depth : Nat) (id : FunctionId) (args : List Value) : InBounds (callUpTo depth id args) := by
  induction depth generalizing id args with
  | zero => exact inBounds_get_bind fun _ _ _ ht => ⟨ht, fun _ _ h => nomatch h⟩
  | succ depth ih => exact inBounds_callWith ih id args

/-- **No call reads an argument that is not there.** -/
theorem inBounds_call (id : FunctionId) (args : List Value) : InBounds (call id args) :=
  inBounds_callUpTo callDepth id args

/-- **No evaluation reads an argument that is not there.** -/
theorem inBounds_eval (frame : FrameId) (form : Value) : InBounds (eval frame form) :=
  inBounds_evalWith (inBounds_callUpTo callDepth) frame form

end Session

end Zygo
