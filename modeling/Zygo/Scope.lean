import Zygo.RuntimeError

/-!
# Scopes

A scope is a chain of frames. A frame binds symbols to values and may have a parent; closures and calls share frames by
their numbers, so what one of them binds the others see. A parent is always an older frame, and every chain is finite.

A symbol means its nearest binding: `Frames.lookup` searches the whole chain, `Frames.lookupUntilFunction` no further
than the nearest function frame, and `Frames.assign` changes the nearest binding where it stands.
-/

namespace Zygo

/-- One frame of a scope. -/
structure Frame where
  bindings : List (Symbol × Value) := []
  parent? : Option FrameId := none
  /-- Whether a function call made the frame for its parameters. -/
  isFunction : Bool := false

namespace Frame

/-- The value bound to a symbol. -/
def find? (f : Frame) (s : Symbol) : Option Value :=
  (f.bindings.find? fun b => b.1.same s).map Prod.snd

/-- Whether the frame itself binds a symbol. -/
def binds (f : Frame) (s : Symbol) : Bool :=
  (f.find? s).isSome

/-- Binds a symbol, in place of the binding it has. -/
def define (f : Frame) (s : Symbol) (v : Value) : Frame :=
  if f.binds s then { f with bindings := f.bindings.map fun b => if b.1.same s then (s, v) else b }
  else { f with bindings := f.bindings ++ [(s, v)] }

/-- Gives a bound symbol another value. -/
def rebind (f : Frame) (s : Symbol) (v : Value) : Frame :=
  { f with bindings := f.bindings.map fun b => if b.1.same s then (b.1, v) else b }

/-- The bindings in the order of their names. -/
def sorted (f : Frame) : List (Symbol × Value) :=
  f.bindings.mergeSort fun a b => a.1.name ≤ b.1.name

/-- The diagnostic form of a frame. -/
def describe (f : Frame) : String :=
  "Scope \x7b bindings: " ++ toString f.bindings.length ++ ", is_function: " ++ toString f.isFunction
    ++ ", has_parent: " ++ toString f.parent?.isSome ++ " \x7d"

@[simp] theorem parent?_define (f : Frame) (s : Symbol) (v : Value) : (f.define s v).parent? = f.parent? := by
  unfold define; split <;> rfl

@[simp] theorem parent?_rebind (f : Frame) (s : Symbol) (v : Value) : (f.rebind s v).parent? = f.parent? := rfl

end Frame

/-- All frames, by number. -/
structure Frames where
  frames : Array Frame
  parent_lt : ∀ (i : Nat) (f : Frame), frames[i]? = some f → ∀ p, f.parent? = some p → p.index < i

namespace Frames

def empty : Frames :=
  ⟨#[], by simp⟩

/-- The frame of a number. -/
def get? (fs : Frames) (id : FrameId) : Option Frame :=
  fs.frames[id.index]?

/-- Adds a frame. A parent that does not exist is left out. -/
def push (fs : Frames) (f : Frame) : FrameId × Frames :=
  (⟨fs.frames.size⟩,
    { frames := fs.frames.push { f with parent? := f.parent?.filter fun p => p.index < fs.frames.size }
      parent_lt := by
        intro i g hg p hp
        rw [Array.getElem?_push] at hg
        split at hg
        · obtain rfl := Option.some.inj hg
          have := Option.eq_some_of_filter_eq_some hp
          simp_all
        · exact fs.parent_lt i g hg p hp })

/-- Changes the bindings of a frame. -/
def modify (fs : Frames) (id : FrameId) (g : Frame → Frame) (hg : ∀ f, (g f).parent? = f.parent?) : Frames where
  frames := fs.frames.modify id.index g
  parent_lt := by
    intro i f hf p hp
    rw [Array.getElem?_modify] at hf
    split at hf
    · obtain ⟨f', hf', rfl⟩ := Option.map_eq_some_iff.1 hf
      exact fs.parent_lt i f' hf' p (hg f' ▸ hp)
    · exact fs.parent_lt i f hf p hp

/-- The frames from a frame to the end of its chain. -/
def chain (fs : Frames) (id : FrameId) : List Frame :=
  match _h : fs.frames[id.index]? with
  | none => []
  | some f =>
    f :: match _hp : f.parent? with
      | none => []
      | some p => fs.chain p
termination_by id.index
decreasing_by exact fs.parent_lt _ _ _h _ _hp

/-- The value of a symbol in its nearest binding. -/
def lookup (fs : Frames) (id : FrameId) (s : Symbol) : Except RuntimeError Value :=
  match _h : fs.frames[id.index]? with
  | none => .error (.symbolNotFound s.name)
  | some f =>
    match f.find? s with
    | some v => .ok v
    | none =>
      match _hp : f.parent? with
      | none => .error (.symbolNotFound s.name)
      | some p => fs.lookup p s
termination_by id.index
decreasing_by exact fs.parent_lt _ _ _h _ _hp

/-- The value of a symbol in its nearest binding, unless the binding is further away than the nearest function frame. -/
def lookupUntilFunction (fs : Frames) (id : FrameId) (s : Symbol) : Except RuntimeError Value :=
  match _h : fs.frames[id.index]? with
  | none => .error (.symbolNotFound s.name)
  | some f =>
    match f.find? s with
    | some v => .ok v
    | none =>
      if f.isFunction then .error (.symbolNotFound s.name)
      else
        match _hp : f.parent? with
        | none => .error (.symbolNotFound s.name)
        | some p => fs.lookupUntilFunction p s
termination_by id.index
decreasing_by exact fs.parent_lt _ _ _h _ _hp

/-- Binds a symbol in a frame. -/
def define (fs : Frames) (id : FrameId) (s : Symbol) (v : Value) : Frames :=
  fs.modify id (·.define s v) (by simp)

/-- Gives a symbol another value in its nearest binding. -/
def assign (fs : Frames) (id : FrameId) (s : Symbol) (v : Value) : Except RuntimeError Frames :=
  match _h : fs.frames[id.index]? with
  | none => .error (.symbolNotFound s.name)
  | some f =>
    if f.binds s then .ok (fs.modify id (·.rebind s v) (by simp))
    else
      match _hp : f.parent? with
      | none => .error (.symbolNotFound s.name)
      | some p => fs.assign p s v
termination_by id.index
decreasing_by exact fs.parent_lt _ _ _h _ _hp

end Frames

end Zygo
