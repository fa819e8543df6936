import Zygo.Proofs.Scope.Sharing

/-!
# Closures

A function object may be held many times, and all who hold it see which frame it captures. A history (`Holding.run`) makes
functions, passes them on, copies them, lets them capture other frames, and works on the frames themselves, in any order.
`Holding.given` reads off a history which frame a function was last given; it looks at the history alone, never at what
the store has made of it.

* `closingLookup_given`: the invariant `Holding.Captures` holds after every history, so that a closure looks symbols up in
  the chain of that frame as the frames are now. Neither a snapshot nor another function's capture ever shows.
-/

namespace Zygo

variable {f g : FunctionId}

namespace Store

variable {s : Store}

/-! ## Functions of a store -/

theorem function_addFunction (s : Store) (fn : Function) (g : FunctionId) :
    (s.addFunction fn).2.function g = if g = (s.addFunction fn).1 then fn else s.function g := by
  have hnew : g = (s.addFunction fn).1 ↔ g.index = s.functions.size := by
    cases g
    simp [addFunction]
  by_cases h : g.index = s.functions.size
  · rw [if_pos (hnew.2 h)]
    simp [function, addFunction, h]
  · rw [if_neg fun h' => h (hnew.1 h')]
    simp [function, addFunction, Array.getElem?_push, h]

theorem function_setClosing_of_ne (s : Store) (frame : FrameId) (h : g ≠ f) :
    (s.setClosing f frame).function g = s.function g := by
  have hindex : f.index ≠ g.index := by
    intro h'
    apply h
    cases f
    cases g
    simpa using h'.symm
  simp [function, setClosing, Array.getElem?_modify, hindex]

theorem function_setClosing_self (frame : FrameId) (h : f.index < s.functions.size) :
    (s.setClosing f frame).function f = { s.function f with closing? := some frame } := by
  have hget : s.functions[f.index]? = some s.functions[f.index] := Array.getElem?_eq_getElem h
  simp only [function, setClosing, Array.getElem?_modify, hget]
  rfl

/-- A capture shows in the look-ups of its function alone. -/
theorem closingLookup_setClosing_of_ne (s : Store) (frame : FrameId) (h : g ≠ f) (x : Symbol) :
    (s.setClosing f frame).closingLookup g x = s.closingLookup g x ∧
      (s.setClosing f frame).closingLookupUntilFunction g x = s.closingLookupUntilFunction g x := by
  simp only [closingLookup, closingLookupUntilFunction, function_setClosing_of_ne s frame h]
  exact ⟨rfl, rfl⟩

theorem functions_apply (s : Store) (call : FrameCall) : (s.apply call).functions = s.functions := by
  cases call with
  | root | block | callFrame | clone | define => rfl
  | assign i x v =>
    rcases s.assign_cases i x v with ⟨g, fs, -, -, h⟩ | ⟨-, h⟩ <;> simp only [apply, h]

/-- What frame calls make of the frames depends on the frames alone. -/
theorem frames_apply_congr {s t : Store} (h : s.frames = t.frames) (call : FrameCall) :
    (s.apply call).frames = (t.apply call).frames := by
  cases call with
  | root | block | callFrame => simp [apply, addFrame, h]
  | clone i => simp [apply, cloneFrame, addFrame, h]
  | define i x v => simp [apply, define, h]
  | assign i x v =>
    simp only [apply, assign, h]
    cases t.frames.assign i x v <;> simp [Except.map, h]

end Store

/-! ## Histories -/

/-- How a function comes to be, other than as a copy. -/
inductive Origin where
  | host (name : String) (arity : Nat) (variadic : Bool) (action : HostAction)
  | builder (name : String) (action : HostAction)
  | user (name : String) (params : List Symbol) (variadic : Bool) (form : Value) (closing : FrameId)

namespace Origin

/-- The function that is made. -/
def function : Origin → Function
  | host name arity variadic action => .ofHost name arity variadic action
  | builder name action => .builder name action
  | user name params variadic form closing => .ofForm name params variadic form closing

/-- The frame that it is given: functions of the host get none. -/
def frame? : Origin → Option FrameId
  | host .. => none
  | builder .. => none
  | user _ _ _ _ closing => some closing

theorem closing?_function (o : Origin) : o.function.closing? = o.frame? := by
  cases o <;> rfl

end Origin

/-- A store, and the functions that its clients hold, one for each value that refers to a function. -/
structure Holding where
  store : Store
  holders : List FunctionId := []

namespace Holding

/-- What clients do with functions and frames. A holder is named by its place. -/
inductive Step where
  /-- Makes a function, with the form that it was made from or without. -/
  | make (origin : Origin) (source? : Option Value)
  /-- Clones a value: one more holder of the same function. -/
  | clone (holder : Nat)
  /-- Copies a function. -/
  | copy (holder : Nat)
  /-- Lets a function capture another frame. -/
  | setClosing (holder : Nat) (frame : FrameId)
  /-- Works on the frames. -/
  | frames (call : Store.FrameCall)

/-- Keeps a function that has just been added. -/
def keep (now : Holding) (added : FunctionId × Store) : Holding :=
  ⟨added.2, now.holders ++ [added.1]⟩

/-- A step. There is nothing to do for a holder that does not exist. -/
def step (now : Holding) : Step → Holding
  | .make origin source? => now.keep (now.store.addFunction { origin.function with source? })
  | .clone holder =>
    match now.holders[holder]? with
    | some f => { now with holders := now.holders ++ [f] }
    | none => now
  | .copy holder =>
    match now.holders[holder]? with
    | some f => now.keep (now.store.copyFunction f)
    | none => now
  | .setClosing holder frame =>
    match now.holders[holder]? with
    | some f => { now with store := now.store.setClosing f frame }
    | none => now
  | .frames call => { now with store := now.store.apply call }

/-- What a history leads to, from a store whose functions nobody holds. The latest step comes first. -/
def run (s : Store) : List Step → Holding
  | [] => ⟨s, []⟩
  | step :: past => (run s past).step step

/-- The function that the next one made or copied will be. -/
def next (now : Holding) : FunctionId :=
  ⟨now.store.functions.size⟩

/-- The frame that a function was last given in a history: by its origin, by its source when it was copied, or through
any of its holders. -/
def given (s : Store) : List Step → FunctionId → Option FrameId
  | [], _ => none
  | .make origin _ :: past, f => if f = (run s past).next then origin.frame? else given s past f
  | .copy holder :: past, f =>
    match (run s past).holders[holder]? with
    | some source => if f = (run s past).next then given s past source else given s past f
    | none => given s past f
  | .setClosing holder frame :: past, f =>
    if (run s past).holders[holder]? = some f then some frame else given s past f
  | .clone _ :: past, f => given s past f
  | .frames _ :: past, f => given s past f

/-- The frame calls of a history, in the order in which they were made. -/
def frameCalls : List Step → List Store.FrameCall
  | [] => []
  | .frames call :: past => frameCalls past ++ [call]
  | .make .. :: past => frameCalls past
  | .clone _ :: past => frameCalls past
  | .copy _ :: past => frameCalls past
  | .setClosing .. :: past => frameCalls past

variable {s : Store} {now : Holding} {past : List Step}

/-- After a history, all holders hold functions of the store, and these capture the frames that they were last given. -/
structure Captures (s : Store) (history : List Step) : Prop where
  exist : ∀ f ∈ (run s history).holders, f.index < (run s history).store.functions.size
  closing : ∀ f ∈ (run s history).holders, ((run s history).store.function f).closing? = given s history f

/-- A function that is held is not the next one to be made. -/
theorem Captures.ne_next (h : Captures s past) (hf : f ∈ (run s past).holders) : f ≠ (run s past).next := by
  rintro rfl
  exact Nat.lt_irrefl _ (h.exist _ hf)

/-- Adding a function keeps the invariant, if the history gives it the frame that it captures and nothing to others. -/
theorem Captures.keep {step : Step} (h : Captures s past) (fn : Function)
    (hstep : run s (step :: past) = (run s past).keep ((run s past).store.addFunction fn))
    (hnew : given s (step :: past) (run s past).next = fn.closing?)
    (hold : ∀ f, f ≠ (run s past).next → given s (step :: past) f = given s past f) : Captures s (step :: past) := by
  have hcases : ∀ f ∈ (run s (step :: past)).holders, f ∈ (run s past).holders ∨ f = (run s past).next := by
    intro f hf
    rw [hstep] at hf
    exact (List.mem_append.1 hf).imp_right List.mem_singleton.1
  constructor
  · intro f hf
    have hsize : (run s (step :: past)).store.functions.size = (run s past).store.functions.size + 1 := by
      rw [hstep]
      exact Array.size_push _
    rw [hsize]
    rcases hcases f hf with hf | rfl
    · have hlt := h.exist f hf
      omega
    · exact Nat.lt_succ_self _
  · intro f hf
    have hfunction : (run s (step :: past)).store.function f =
        if f = (run s past).next then fn else (run s past).store.function f := by
      rw [hstep]
      exact Store.function_addFunction _ fn f
    rcases hcases f hf with hf | rfl
    · have hne := h.ne_next hf
      rw [hfunction, if_neg hne, hold f hne, h.closing f hf]
    · rw [hfunction, if_pos rfl, hnew]

/-- A step that adds no function keeps the invariant, if the functions capture what the history now gives them. -/
theorem Captures.of_size_eq {step : Step} (h : Captures s past)
    (hholders : ∀ f ∈ (run s (step :: past)).holders, f ∈ (run s past).holders)
    (hsize : (run s (step :: past)).store.functions.size = (run s past).store.functions.size)
    (hclosing : ∀ f ∈ (run s past).holders,
      ((run s (step :: past)).store.function f).closing? = given s (step :: past) f) : Captures s (step :: past) := by
  constructor
  · intro f hf
    rw [hsize]
    exact h.exist f (hholders f hf)
  · intro f hf
    exact hclosing f (hholders f hf)

/-- A step with nothing to do keeps the invariant. -/
theorem Captures.idle {step : Step} (h : Captures s past) (hstep : (run s past).step step = run s past)
    (hgiven : ∀ f, given s (step :: past) f = given s past f) : Captures s (step :: past) := by
  have hrun : run s (step :: past) = run s past := hstep
  apply h.of_size_eq
  · rw [hrun]
    exact fun f hf => hf
  · rw [hrun]
  · intro f hf
    rw [hrun, hgiven]
    exact h.closing f hf

/-- Every step keeps the invariant. -/
theorem captures_step (h : Captures s past) (step : Step) : Captures s (step :: past) := by
  cases step with
  | make origin source? =>
    apply h.keep _ rfl
    · rw [given, if_pos rfl, ← origin.closing?_function]
    · intro f hf
      rw [given, if_neg hf]
  | clone holder =>
    cases hf : (run s past).holders[holder]? with
    | none => exact h.idle (by simp only [Holding.step, hf]) fun g => rfl
    | some f =>
      have hrun : run s (.clone holder :: past) = { run s past with holders := (run s past).holders ++ [f] } := by
        simp only [run, Holding.step, hf]
      apply h.of_size_eq
      · -- The new holder holds what another one holds.
        rw [hrun]
        intro g hg
        rcases List.mem_append.1 hg with hg | hg
        · exact hg
        · rw [List.mem_singleton.1 hg]
          exact List.mem_of_getElem? hf
      · rw [hrun]
      · rw [hrun]
        exact h.closing
  | copy holder =>
    cases hf : (run s past).holders[holder]? with
    | none => exact h.idle (by simp only [Holding.step, hf]) fun g => by simp only [given, hf]
    | some f =>
      apply h.keep ((run s past).store.function f)
      · simp only [run, Holding.step, hf]
        rfl
      · simp only [given, hf, if_pos]
        exact (h.closing f (List.mem_of_getElem? hf)).symm
      · intro g hg
        simp only [given, hf, if_neg hg]
  | setClosing holder frame =>
    cases hf : (run s past).holders[holder]? with
    | none => exact h.idle (by simp only [Holding.step, hf]) fun g => by simp [given, hf]
    | some f =>
      have hrun : run s (.setClosing holder frame :: past) =
          { run s past with store := (run s past).store.setClosing f frame } := by
        simp only [run, Holding.step, hf]
      apply h.of_size_eq
      · rw [hrun]
        exact fun g hg => hg
      · rw [hrun]
        exact Array.size_modify
      · rw [hrun]
        intro g hg
        simp only [given, hf, Option.some.injEq]
        by_cases hgf : f = g
        · subst hgf
          rw [if_pos rfl, Store.function_setClosing_self frame (h.exist f hg)]
        · rw [if_neg hgf, Store.function_setClosing_of_ne _ frame fun h' => hgf h'.symm]
          exact h.closing g hg
  | frames call =>
    have hfunctions := (run s past).store.functions_apply call
    apply h.of_size_eq
    · exact fun f hf => hf
    · exact congrArg Array.size hfunctions
    · intro f hf
      simp only [run, Holding.step, given, Store.function, hfunctions]
      exact h.closing f hf

/-- **Functions capture what they were last given**, after every history. -/
theorem captures_run (s : Store) (history : List Step) : Captures s history := by
  induction history with
  | nil =>
    constructor
    · intro f hf
      cases hf
    · intro f hf
      cases hf
  | cons step past ih => exact captures_step ih step

/-! ## Frames and holders of a history -/

/-- A step that is no frame call leaves the frames as they are. -/
theorem frames_step (now : Holding) (step : Step) :
    (now.step step).store.frames = (now.store.applyAll (frameCalls [step])).frames := by
  cases step with
  | make | frames => rfl
  | clone holder | copy holder | setClosing holder =>
    simp only [Holding.step]
    cases now.holders[holder]? <;> rfl

/-- What happens to the frames is what the frame calls do to them. -/
theorem frames_run (s : Store) (history : List Step) :
    (run s history).store.frames = (s.applyAll (frameCalls history)).frames := by
  induction history with
  | nil => rfl
  | cons step past ih =>
    rw [run, frames_step]
    cases step with
    | make | clone | copy | setClosing => exact ih
    | frames call =>
      simp only [frameCalls, List.nil_append, Store.applyAll, List.foldl_append, List.foldl_cons, List.foldl_nil]
      exact Store.frames_apply_congr ih call

/-- Who holds a function goes on holding it. -/
theorem holders_step (now : Holding) (step : Step) : now.holders <+: (now.step step).holders := by
  cases step with
  | make => exact List.prefix_append _ _
  | frames => exact List.prefix_refl _
  | clone holder | copy holder =>
    simp only [Holding.step]
    cases now.holders[holder]? with
    | none => exact List.prefix_refl _
    | some f => exact List.prefix_append _ _
  | setClosing holder =>
    simp only [Holding.step]
    cases now.holders[holder]? with
    | none => exact List.prefix_refl _
    | some f => exact List.prefix_refl _

/-! ## Look-ups -/

/-- A closure looks symbols up in the frame that it was last given, or finds nothing if it was given none. -/
theorem closingLookup_spec (hf : f ∈ (run s past).holders) (x : Symbol) :
    match given s past f with
    | some frame => (run s past).store.closingLookup f x = (run s past).store.frames.lookup frame x ∧
        (run s past).store.closingLookupUntilFunction f x = (run s past).store.frames.lookupUntilFunction frame x
    | none => (run s past).store.closingLookup f x = .error (.symbolNotFound x.name) ∧
        (run s past).store.closingLookupUntilFunction f x = .error (.symbolNotFound x.name) := by
  have hclosing := (captures_run s past).closing f hf
  simp only [Store.closingLookup, Store.closingLookupUntilFunction, hclosing]
  cases given s past f with
  | none => exact ⟨rfl, rfl⟩
  | some frame => exact ⟨rfl, rfl⟩

theorem next_not_mem_holders (s : Store) (history : List Step) : (run s history).next ∉ (run s history).holders := by
  intro hmem
  exact (captures_run s history).ne_next hmem rfl

/-- **Closures see the live chain.** After every history, and for every holder of a function:

The closure looks symbols up in the frame that the function was last given, as the frames are now, both in the whole chain
and up to the nearest function frame; it finds nothing if it was given none. The frames are what the frame calls of the
history have made of them.

A clone of the value holds the same function, and goes on doing so. A copy holds a new function, which nobody has held
before, as a function made anew does. Letting the function capture another frame changes the look-ups of no other. -/
theorem closingLookup_given (s : Store) (history : List Step) :
    let now := run s history
    now.store.frames = (s.applyAll (frameCalls history)).frames ∧
    (∀ step, now.holders <+: (now.step step).holders) ∧
    (∀ origin source?, ∃ c, c ∉ now.holders ∧ (now.step (.make origin source?)).holders = now.holders ++ [c]) ∧
    ∀ holder f, now.holders[holder]? = some f →
      (∀ x, match given s history f with
        | some frame => now.store.closingLookup f x = now.store.frames.lookup frame x ∧
            now.store.closingLookupUntilFunction f x = now.store.frames.lookupUntilFunction frame x
        | none => now.store.closingLookup f x = .error (.symbolNotFound x.name) ∧
            now.store.closingLookupUntilFunction f x = .error (.symbolNotFound x.name)) ∧
      (now.step (.clone holder)).holders = now.holders ++ [f] ∧
      (∃ c, c ∉ now.holders ∧ (now.step (.copy holder)).holders = now.holders ++ [c]) ∧
      ∀ frame g, g ≠ f → ∀ x,
        (now.step (.setClosing holder frame)).store.closingLookup g x = now.store.closingLookup g x ∧
        (now.step (.setClosing holder frame)).store.closingLookupUntilFunction g x =
          now.store.closingLookupUntilFunction g x := by
  intro now
  have hnew : now.next ∉ now.holders := next_not_mem_holders s history
  refine ⟨frames_run s history, fun step => now.holders_step step, fun _ _ => ⟨now.next, hnew, rfl⟩, ?_⟩
  intro holder f hf
  refine ⟨fun x => closingLookup_spec (List.mem_of_getElem? hf) x, ?_, ⟨now.next, hnew, ?_⟩, ?_⟩
  · simp only [step, hf]
  · simp only [step, hf]
    rfl
  · intro frame g hg x
    simp only [step, hf]
    exact now.store.closingLookup_setClosing_of_ne frame hg x

/-- A function over a frame, a copy of it, and then another frame for the function: the copy still sees what is bound in
the frame that the function had when it was copied, though it is bound later. -/
theorem closingLookup_given_copy :
    let x : Symbol := ⟨4, "x", false⟩
    let history : List Step := [.frames (.define ⟨0⟩ x (.int 7)), .setClosing 0 ⟨1⟩, .copy 0,
      .make (.user "f" [] false .null ⟨0⟩) none, .frames .root, .frames .root]
    let now := run {} history
    now.holders = [⟨0⟩, ⟨1⟩] ∧ given {} history ⟨0⟩ = some ⟨1⟩ ∧ given {} history ⟨1⟩ = some ⟨0⟩ ∧
      now.store.closingLookup ⟨1⟩ x = .ok (.int 7) := by
  intro x history now
  have hholders : now.holders = [⟨0⟩, ⟨1⟩] := rfl
  have hlookup : now.store.closingLookup ⟨1⟩ x = now.store.frames.lookup ⟨0⟩ x :=
    (((closingLookup_given {} history).2.2.2 1 ⟨1⟩ rfl).1 x).1
  refine ⟨hholders, rfl, rfl, hlookup.trans ?_⟩
  have hroot : now.store.frames.get? ⟨0⟩ = some { bindings := [(x, .int 7)] } := rfl
  apply Frames.lookup_of_reaches (g := ⟨0⟩)
  · refine ⟨[], [], Frames.path_of_get? hroot, ?_⟩
    intro k hk
    cases hk
  · rfl

end Holding

end Zygo
