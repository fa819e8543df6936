import Zygo.Session.Call

/-!
# Steps of calls

A call is made of steps of a few kinds (`Session.Step`) and of the calls that it makes. A relation between actions that
holds between each step and itself, and that sequences keep (`Session.Stepwise`), therefore holds between the calls of two
ways to make calls if it holds between the ways themselves: it is carried through host functions, evaluation and calls
(`Stepwise.perform`, `Stepwise.evalWith`, `Stepwise.callWith`).

Two such relations matter. One is about an action alone: whatever it does relates the session before to the one after
(`Session.Keeps`). The other compares two: the second one does the same wherever the first one does not nest calls too
deeply (`Session.Deepens`).

* `Stepwise.call`, `Stepwise.eval`: the relation holds between calls and themselves, and between evaluations.
* `deepens_callUpTo`: a call that does not nest calls too deeply does the same when they may be nested more deeply.
-/

namespace Zygo.Session

/-! ## Steps -/

/-- What a call does itself, between the calls that it makes. -/
inductive Step : ∀ {α : Type}, Action α → Prop
  | pureResult {α : Type} (r : Except RuntimeError α) : Step (pureResult r)
  | get : Step get
  | intern (text : String) : Step (ofChange (·.intern text))
  | packageOf (name : String) : Step (ofChange (·.packageOf name))
  | exportFrom (p : PackageId) (f : FunctionId) :
      Step (modify fun s => { s with store := s.store.exportFrom p f } : Action PUnit)
  | importPackage (name : String) : Step (ofOperation (·.importPackage name))
  | list (items : List Value) :
      Step (ofChange fun s => ((s.store.list items).1, { s with store := (s.store.list items).2 }))
  | lookupGlobal (name : String) : Step (ofOperation (·.lookupGlobal name))
  | addFrame (f : Frame) : Step (ofChange fun s => ((s.store.addFrame f).1, { s with store := (s.store.addFrame f).2 }))

/-- A relation that holds between every step and itself, and between sequences of actions that it holds between. -/
structure Stepwise (R : ∀ {α : Type}, Action α → Action α → Prop) : Prop where
  step {α : Type} {a : Action α} (h : Step a) : R a a
  bind {α β : Type} {a a' : Action α} {g g' : α → Action β} (h : R a a') (hg : ∀ x, R (g x) (g' x)) :
    R (a >>= g) (a' >>= g')

namespace Stepwise

variable {R : ∀ {α : Type}, Action α → Action α → Prop}

section Actions

variable {α : Type}

theorem pure (hR : Stepwise R) (a : α) : R (pure a : Action α) (pure a) :=
  hR.step (.pureResult (.ok a))

theorem raise (hR : Stepwise R) (e : RuntimeError) : R (raise e : Action α) (raise e) :=
  hR.step (.pureResult (.error e))

theorem mismatch (hR : Stepwise R) (context expected : String) (v : Value) :
    R (mismatch context expected v : Action α) (mismatch context expected v) :=
  hR.raise _

theorem argument (hR : Stepwise R) (f : Function) (args : List Value) (i : Nat) :
    R (argument f args i) (argument f args i) := by
  unfold Session.argument
  split
  · exact hR.pure _
  · exact hR.raise _

theorem methodSymbol (hR : Stepwise R) (v : Value) : R (methodSymbol v) (methodSymbol v) := by
  unfold Session.methodSymbol
  split
  · exact hR.pure _
  · exact hR.step (.intern _)
  · exact hR.mismatch _ _ _

end Actions

/-! ## Evaluation -/

section Calls

variable {call call' : FunctionId → List Value → Action Value}

mutual

theorem evalWith (hR : Stepwise R) (hcall : ∀ id args, R (call id args) (call' id args)) (frame : FrameId) :
    ∀ form, R (evalWith call frame form) (evalWith call' frame form)
  | .symbol x => hR.bind (hR.step .get) fun s => hR.step (.pureResult _)
  | .pair cell head tail => by
    refine hR.bind (hR.step .get) fun s => hR.bind (hR.step (.pureResult _)) fun _ => ?_
    apply hR.bind (hR.evalWith hcall frame head)
    intro v
    split
    · apply hR.bind (hR.step .get)
      intro s
      split
      · exact hcall _ _
      · exact hR.bind (hR.evalElements hcall frame tail) fun args => hcall _ args
    · exact hR.mismatch _ _ _
  | .int _ | .float _ | .bool _ | .char _ | .sentinel _ | .text .. | .bytes .. | .array _ | .function _ | .record _
  | .package _ | .error _ | .host _ | .type _ => hR.pure _

theorem evalElements (hR : Stepwise R) (hcall : ∀ id args, R (call id args) (call' id args)) (frame : FrameId) :
    ∀ form, R (evalElements call frame form) (evalElements call' frame form)
  | .pair _ head tail =>
    hR.bind (hR.evalWith hcall frame head) fun _ => hR.bind (hR.evalElements hcall frame tail) fun _ => hR.pure _
  | .int _ | .float _ | .bool _ | .char _ | .symbol _ | .sentinel _ | .text .. | .bytes .. | .array _ | .function _
  | .record _ | .package _ | .error _ | .host _ | .type _ => hR.pure _

end

/-! ## Calls -/

theorem callMethod (hR : Stepwise R) (hcall : ∀ id args, R (call id args) (call' id args)) (r : RecordId)
    (method : Symbol) (args : List Value) : R (callMethod call r method args) (callMethod call' r method args) := by
  apply hR.bind (hR.step .get)
  intro s
  split
  · exact hcall _ _
  · exact hR.raise _

theorem perform (hR : Stepwise R) (hcall : ∀ id args, R (call id args) (call' id args)) (f : Function)
    (action : HostAction) (args : List Value) : R (perform call f action args) (perform call' f action args) := by
  have hargument := hR.argument f args
  cases action with
  | packageOf =>
    apply hR.bind (hargument 0)
    intro v
    split
    · exact hR.bind (hR.step (.packageOf _)) fun _ => hR.pure _
    · exact hR.mismatch _ _ _
  | exportFrom =>
    apply hR.bind (hargument 0)
    intro v
    split
    · apply hR.bind (hargument 1)
      intro w
      split
      · exact hR.bind (hR.step (.exportFrom _ _)) fun _ => hR.pure _
      · exact hR.mismatch _ _ _
    · exact hR.mismatch _ _ _
  | importPackage =>
    apply hR.bind (hargument 0)
    intro v
    split
    · exact hR.bind (hR.step (.importPackage _)) fun _ => hR.pure _
    · exact hR.mismatch _ _ _
  | callMethod =>
    apply hR.bind (hargument 0)
    intro v
    split
    · refine hR.bind (hargument 1) fun w => hR.bind (hR.methodSymbol w) fun method => ?_
      exact hR.callMethod hcall _ _ _
    · exact hR.mismatch _ _ _
  | concat | chomp | trim => exact hR.bind (hargument 0) fun v => hR.step (.pureResult _)
  | append => exact hR.bind (hargument 0) fun v => hR.bind (hargument 1) fun w => hR.step (.pureResult _)
  | argList => exact hR.step (.list args)
  | argCount | argArray | first | ownName | nothing => exact hR.pure _
  | refuse => exact hR.mismatch _ _ _
  | apply =>
    simp only [Session.perform]
    split
    · exact hcall _ _
    · exact hR.mismatch _ _ _
  | global => exact hR.step (.lookupGlobal _)

/-- **One call is related to another** if the calls in the one are related to the calls in the other. -/
theorem callWith (hR : Stepwise R) (hcall : ∀ id args, R (call id args) (call' id args)) (id : FunctionId)
    (args : List Value) : R (callWith call id args) (callWith call' id args) := by
  apply hR.bind (hR.step .get)
  intro s
  dsimp only
  generalize s.store.function id = f
  split
  · split
    · exact hR.perform hcall _ _ _
    · split
      · exact hR.bind (hR.step (.addFrame _)) fun frame => hR.evalWith hcall frame _
      · exact hR.raise _
  · exact hR.raise _

end Calls

/-- By induction on the depth: a call of depth one more is one call with calls of the depth in it. -/
theorem callUpTo (hR : Stepwise R) (depth : Nat) (id : FunctionId) (args : List Value) :
    R (callUpTo depth id args) (callUpTo depth id args) := by
  induction depth generalizing id args with
  | zero => exact hR.bind (hR.step .get) fun s => hR.raise _
  | succ depth ih => exact hR.callWith ih id args

theorem call (hR : Stepwise R) (id : FunctionId) (args : List Value) : R (call id args) (call id args) :=
  hR.callUpTo callDepth id args

theorem eval (hR : Stepwise R) (frame : FrameId) (form : Value) : R (eval frame form) (eval frame form) :=
  hR.evalWith hR.call frame form

theorem invokeMethod (hR : Stepwise R) (r : RecordId) (method : Symbol) (args : List Value) :
    R (invokeMethod r method args) (invokeMethod r method args) :=
  hR.callMethod hR.call r method args

end Stepwise

/-! ## Sessions before and after -/

section Keeps

variable {α β : Type}

/-- An action that fails leaves out what was to follow. -/
theorem run_bind (a : Action α) (f : α → Action β) (s : Session) :
    (a >>= f).run.run s =
      match a.run.run s with
      | (.ok x, t) => (f x).run.run t
      | (.error e, t) => (.error e, t) := by
  simp only [bind, ExceptT.bind, ExceptT.run, ExceptT.mk, StateT.bind, StateT.run]
  rcases a s with ⟨e | x, t⟩ <;> rfl

/-- Whatever an action does and however it ends, the session before is related to the one after. -/
def Keeps (Q : Session → Session → Prop) (a : Action α) : Prop :=
  ∀ s, Q s (a.run.run s).2

/-- Calls relate sessions before to sessions after as their steps do, if the relation is a preorder. -/
theorem stepwise_keeps {Q : Session → Session → Prop} (htrans : ∀ {s t u}, Q s t → Q t u → Q s u)
    (hstep : ∀ {α : Type} {a : Action α}, Step a → Keeps Q a) : Stepwise fun a _ => Keeps Q a where
  step := hstep
  bind := by
    intro α β a a' g g' ha hg s
    have hs := ha s
    rw [run_bind]
    generalize a.run.run s = result at hs ⊢
    obtain ⟨e | x, t⟩ := result
    · exact hs
    · exact htrans hs (hg x t)

end Keeps

/-! ## Deeper calls -/

section Deepens

variable {α : Type}

/-- Whether calls were nested too deeply. -/
def TooDeep (r : Except RuntimeError α) : Prop :=
  ∃ name, r = .error (.callsTooDeep name)

/-- Where the first action does not nest calls too deeply, the second one does the same. -/
def Deepens (a b : Action α) : Prop :=
  ∀ s, ¬TooDeep (a.run.run s).1 → b.run.run s = a.run.run s

theorem stepwise_deepens : Stepwise Deepens where
  step _ _ _ := rfl
  bind := by
    intro α β a b g g' hab hg s hs
    have heq := hab s
    rw [run_bind] at hs ⊢
    rw [run_bind]
    generalize a.run.run s = result at hs heq ⊢
    obtain ⟨e | x, t⟩ := result
    · -- the failure is the one of the sequence
      have he : ¬TooDeep (.error e : Except RuntimeError α) := by
        rintro ⟨name, hname⟩
        exact hs ⟨name, congrArg _ (Except.error.inj hname)⟩
      rw [heq he]
    · have hx : ¬TooDeep (.ok x : Except RuntimeError α) := by
        rintro ⟨name, ⟨⟩⟩
      rw [heq hx]
      exact hg x t hs

/-- By induction on the depth. Calls of depth zero are always nested too deeply. -/
theorem deepens_callUpTo (depth : Nat) (id : FunctionId) (args : List Value) :
    Deepens (callUpTo depth id args) (callUpTo (depth + 1) id args) := by
  induction depth generalizing id args with
  | zero => exact fun s hs => absurd ⟨_, rfl⟩ hs
  | succ depth ih => exact stepwise_deepens.callWith ih id args

/-- A call from within a call is like one from outside, unless it nests calls too deeply. -/
theorem run_call_of_nested {s : Session} {id : FunctionId} {args : List Value}
    (h : ¬TooDeep ((callUpTo (callDepth - 1) id args).run.run s).1) :
    (call id args).run.run s = (callUpTo (callDepth - 1) id args).run.run s := by
  have hdepth : callDepth - 1 + 1 = callDepth := by decide
  have hdeeper := deepens_callUpTo (callDepth - 1) id args s h
  rwa [hdepth] at hdeeper

end Deepens

end Zygo.Session
