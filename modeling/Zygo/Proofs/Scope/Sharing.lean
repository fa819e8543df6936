import Zygo.Proofs.Scope.Chains
import Zygo.Store.Basic

/-!
# Sharing of frames

Frames are shared by their numbers: any number of chains lead through one frame, and all of them see what it binds.
Frames are made, cloned and written to in any order (`Store.FrameCall`), and none of this ever changes to which parent a
frame links (`link?_applyAll`). So a chain that two frames share stays shared, whatever is done later.

* `lookup_sharing`: what a symbol means in every frame, and how assigning, defining and cloning change it, for all frames
  and symbols at once.
-/

namespace Zygo

variable {x y : Symbol} {v : Value} {i j c : FrameId} {f : Frame}

namespace Frames

variable {fs : Frames}

/-! ## New frames -/

theorem get?_new (fs : Frames) (f : Frame) : fs.get? (fs.push f).1 = none := by
  simp [get?, push]

theorem get?_push_of_ne (fs : Frames) (f : Frame) (hj : j ≠ (fs.push f).1) : (fs.push f).2.get? j = fs.get? j := by
  have hindex : j.index ≠ fs.frames.size := by
    intro h
    apply hj
    cases j
    simpa [push] using h
  simp [get?, push, Array.getElem?_push, hindex]

theorem ne_new_of_get? (h : fs.get? j = some f) (g : Frame) : j ≠ (fs.push g).1 := by
  rintro rfl
  rw [get?_new] at h
  cases h

/-- A new frame is as it was meant, if the parent that it is to have exists. -/
theorem get?_push_new (hf : ∀ p, f.parent? = some p → ∃ g, fs.get? p = some g) :
    (fs.push f).2.get? (fs.push f).1 = some f := by
  have hparent : (f.parent?.filter fun p => p.index < fs.frames.size) = f.parent? := by
    cases hp : f.parent? with
    | none => rfl
    | some p =>
      obtain ⟨g, hg⟩ := hf p hp
      have hlt : p.index < fs.frames.size := (Array.getElem?_eq_some_iff.1 hg).1
      simp [hlt]
  simp [get?, push, hparent]

end Frames

namespace Store

variable {s t : Store}

/-! ## Calls -/

/-- What a client does with frames. -/
inductive FrameCall where
  /-- Makes a frame without a parent. -/
  | root
  /-- Makes a block frame nested in another frame. -/
  | block (parent : FrameId)
  /-- Makes the frame of a function call, over a frame or over none. -/
  | callFrame (parent? : Option FrameId)
  /-- Makes a frame with the bindings that another one has now, and with the same parent. -/
  | clone (i : FrameId)
  /-- Binds a symbol in a frame. -/
  | define (i : FrameId) (x : Symbol) (v : Value)
  /-- Gives a symbol another value in its nearest binding, if there is one. -/
  | assign (i : FrameId) (x : Symbol) (v : Value)

/-- The store after a call. An assignment that fails changes nothing. -/
def apply (s : Store) : FrameCall → Store
  | .root => (s.addFrame {}).2
  | .block parent => (s.addFrame { parent? := some parent }).2
  | .callFrame parent? => (s.addFrame { parent?, isFunction := true }).2
  | .clone i => (s.cloneFrame i).2
  | .define i x v => s.define i x v
  | .assign i x v =>
    match s.assign i x v with
    | .ok s => s
    | .error _ => s

/-- The store after calls made in order. -/
def applyAll (s : Store) (calls : List FrameCall) : Store :=
  calls.foldl apply s

theorem get?_addFrame (h : s.frames.get? j = some f) (g : Frame) : (s.addFrame g).2.frames.get? j = some f := by
  rw [← h]
  exact s.frames.get?_push_of_ne g (Frames.ne_new_of_get? h g)

/-- Assigning changes nothing but the nearest binding. -/
theorem assign_cases (s : Store) (i : FrameId) (x : Symbol) (v : Value) :
    (∃ g fs, s.frames.Nearest x i g ∧ s.frames.Sets g x v fs ∧ s.assign i x v = .ok { s with frames := fs }) ∨
      (s.frames.Unbound x i ∧ s.assign i x v = .error (.symbolNotFound x.name)) := by
  rcases s.frames.assign_cases i x v with ⟨g, fs, hnearest, hsets, h⟩ | ⟨hunbound, h⟩
  · exact .inl ⟨g, fs, hnearest, hsets, by rw [assign, h]; rfl⟩
  · exact .inr ⟨hunbound, by rw [assign, h]; rfl⟩

/-- No call changes to what a frame links. -/
theorem link?_apply (h : s.frames.get? j = some f) (call : FrameCall) :
    (s.apply call).frames.link? j = s.frames.link? j := by
  have hadd : ∀ g, (s.addFrame g).2.frames.link? j = s.frames.link? j := by
    intro g
    rw [Frames.link?, Frames.link?, get?_addFrame h, h]
  cases call with
  | root | block | callFrame | clone => exact hadd _
  | define i x v => exact s.frames.link?_modify i (by simp) (fun f => f.isFunction_define x v) j
  | assign i x v =>
    rcases s.assign_cases i x v with ⟨g, fs, -, hsets, hok⟩ | ⟨-, herror⟩
    · simp only [apply, hok]
      exact hsets.link j
    · simp only [apply, herror]

theorem exists_of_link? {fs fs' : Frames} (hlink : fs'.link? j = fs.link? j) (h : fs.get? j = some f) :
    ∃ f', fs'.get? j = some f' := by
  cases hf : fs'.get? j with
  | some f' => exact ⟨f', rfl⟩
  | none => simp [Frames.link?, h, hf] at hlink

/-- **No calls change to what a frame links.** -/
theorem link?_applyAll (h : s.frames.get? j = some f) (calls : List FrameCall) :
    (s.applyAll calls).frames.link? j = s.frames.link? j := by
  induction calls generalizing s f with
  | nil => rfl
  | cons call calls ih =>
    have hcall := link?_apply h call
    obtain ⟨f', hf'⟩ := exists_of_link? hcall h
    exact (ih hf').trans hcall

/-- **No calls change a path.** -/
theorem path_applyAll (h : s.frames.get? i = some f) (calls : List FrameCall) :
    (s.applyAll calls).frames.path i = s.frames.path i := by
  apply Frames.path_congr
  · intro j hj
    obtain ⟨g, hg⟩ := Frames.get?_of_mem_path hj
    exact link?_applyAll hg calls
  · exact link?_applyAll h calls

/-! ## Clones -/

theorem cloneFrame_eq (h : s.frames.get? i = some f) : s.cloneFrame i = s.addFrame f := by
  rw [cloneFrame, h]
  rfl

theorem get?_clone (h : s.frames.get? i = some f) :
    (s.cloneFrame i).2.frames.get? (s.cloneFrame i).1 = some f := by
  rw [cloneFrame_eq h]
  apply Frames.get?_push_new
  intro p hp
  exact Frames.get?_parent h hp

theorem get?_clone_new (s : Store) (i : FrameId) : s.frames.get? (s.cloneFrame i).1 = none :=
  s.frames.get?_new ((s.frames.get? i).getD {})

theorem get?_clone_of_ne (s : Store) (i : FrameId) (hj : j ≠ (s.cloneFrame i).1) :
    (s.cloneFrame i).2.frames.get? j = s.frames.get? j :=
  s.frames.get?_push_of_ne _ hj

/-- An older frame is not the clone. -/
theorem ne_clone (h : s.frames.get? j = some f) (i : FrameId) : j ≠ (s.cloneFrame i).1 :=
  Frames.ne_new_of_get? h ((s.frames.get? i).getD {})

theorem clone_not_mem_path (s : Store) (i j : FrameId) : (s.cloneFrame i).1 ∉ s.frames.path j := by
  intro hmem
  obtain ⟨f, hf⟩ := Frames.get?_of_mem_path hmem
  exact ne_clone hf i rfl

/-- No chain but its own leads through the clone. -/
theorem path_clone_of_ne (s : Store) (i : FrameId) (hj : j ≠ (s.cloneFrame i).1) :
    (s.cloneFrame i).2.frames.path j = s.frames.path j := by
  apply Frames.path_congr
  · intro k hk
    obtain ⟨g, hg⟩ := Frames.get?_of_mem_path hk
    rw [Frames.link?, Frames.link?, get?_clone_of_ne s i (ne_clone hg i)]
  · rw [Frames.link?, Frames.link?, get?_clone_of_ne s i hj]

/-- Behind its own bindings, the clone goes on as the frame that it was made from. -/
theorem path_clone (h : s.frames.get? i = some f) :
    (s.cloneFrame i).2.frames.path (s.cloneFrame i).1 = (s.cloneFrame i).1 :: (s.frames.path i).tail := by
  rw [Frames.path_of_get? (get?_clone h), Frames.path_of_get? h, List.tail_cons]
  cases hp : f.parent? with
  | none => rfl
  | some p =>
    obtain ⟨g, hg⟩ := Frames.get?_parent h hp
    exact congrArg _ (path_clone_of_ne s i (ne_clone hg i))

theorem own_clone (h : s.frames.get? i = some f) (y : Symbol) :
    (s.cloneFrame i).2.frames.own (s.cloneFrame i).1 y = s.frames.own i y := by
  rw [Frames.own_of_get? (get?_clone h), Frames.own_of_get? h]

theorem own_clone_of_mem_path (hj : j ∈ s.frames.path c) (i : FrameId) (y : Symbol) :
    (s.cloneFrame i).2.frames.own j y = s.frames.own j y := by
  obtain ⟨g, hg⟩ := Frames.get?_of_mem_path hj
  rw [Frames.own, Frames.own, get?_clone_of_ne s i (ne_clone hg i)]

/-! ## Look-ups -/

/-- Chains are finite: each goes from frame to parent, comes to no frame twice, and ends at a frame without a parent. -/
theorem path_spec (h : s.frames.get? i = some f) :
    s.frames.path i = i :: f.parent?.elim [] s.frames.path ∧ (s.frames.path i).Nodup ∧
      ∀ p, f.parent? = some p → ∃ g, s.frames.get? p = some g :=
  ⟨Frames.path_of_get? h, s.frames.nodup_path i, fun _ hp => Frames.get?_parent h hp⟩

theorem own_isSome_of_sets {fs fs' : Frames} {g : FrameId} (h : fs.Sets g x v fs') (hx : (fs.own g x).isSome)
    (j : FrameId) (y : Symbol) : (fs'.own j y).isSome = (fs.own j y).isSome := by
  rw [h.own]
  split
  · rename_i hboth
    rw [hboth.1, fs.own_congr g hboth.2, hx]
    rfl
  · rfl

/-- Assigning succeeds just where looking up does. Then the nearest binding has the new value, for every frame that it is
the nearest one for, and nothing else has changed. -/
theorem assign_spec (s : Store) (i : FrameId) (x : Symbol) (v : Value) :
    match s.assign i x v with
    | .error e => e = .symbolNotFound x.name ∧ s.frames.lookup i x = .error e ∧ s.apply (.assign i x v) = s
    | .ok t => (∃ w, s.frames.lookup i x = .ok w) ∧ s.apply (.assign i x v) = t ∧ t = { s with frames := t.frames } ∧
        ∃ g, s.frames.Nearest x i g ∧ s.frames.Sets g x v t.frames ∧
          (∀ j y, (t.frames.own j y).isSome = (s.frames.own j y).isSome) ∧
          ∀ j y, (y.same x ∧ s.frames.Nearest x j g → t.frames.lookup j y = .ok v) ∧
            (¬(y.same x ∧ s.frames.Nearest x j g) → t.frames.lookup j y = s.frames.lookup j y) := by
  rcases s.assign_cases i x v with ⟨g, fs, hnearest, hsets, h⟩ | ⟨hunbound, h⟩
  · have happly : s.apply (.assign i x v) = { s with frames := fs } := by simp only [apply, h]
    rw [h]
    refine ⟨⟨_, Frames.lookup_of_reaches hnearest.1 (Option.some_get hnearest.2).symm⟩, happly, rfl, g, hnearest, hsets,
      own_isSome_of_sets hsets hnearest.2, ?_⟩
    intro j y
    constructor
    · intro hboth
      exact hsets.lookup_seen hboth.2.1 hboth.1
    · intro hnot
      apply hsets.lookup_unseen
      intro hboth
      exact hnot ⟨hboth.1, hboth.2, hnearest.2⟩
  · have happly : s.apply (.assign i x v) = s := by simp only [apply, h]
    rw [h]
    exact ⟨rfl, Frames.lookup_of_unbound hunbound, happly⟩

/-- Defining is seen where the frame is reached before any other binding of the symbol, and nowhere else. -/
theorem define_spec (h : s.frames.get? i = some f) (x : Symbol) (v : Value) :
    s.frames.Sets i x v (s.define i x v).frames ∧
      ∀ j y, (y.same x ∧ s.frames.Reaches x j i → (s.define i x v).frames.lookup j y = .ok v) ∧
        (¬(y.same x ∧ s.frames.Reaches x j i) →
          (s.define i x v).frames.lookup j y = s.frames.lookup j y) := by
  have hsets : s.frames.Sets i x v (s.define i x v).frames := Frames.sets_define h x v
  refine ⟨hsets, ?_⟩
  intro j y
  constructor
  · intro hboth
    exact hsets.lookup_seen hboth.2 hboth.1
  · intro hnot
    exact hsets.lookup_unseen hnot

/-- A clone binds what the frame binds that it is made from and means the same symbols, and nobody else sees it. -/
theorem clone_spec (h : s.frames.get? i = some f) :
    s.frames.get? (s.cloneFrame i).1 = none ∧ (s.cloneFrame i).2.frames.get? (s.cloneFrame i).1 = some f ∧
      (∀ j, j ≠ (s.cloneFrame i).1 → (s.cloneFrame i).2.frames.get? j = s.frames.get? j) ∧
      (∀ y, (s.cloneFrame i).2.frames.lookup (s.cloneFrame i).1 y = s.frames.lookup i y) ∧
      ∀ j, j ≠ (s.cloneFrame i).1 → ∀ y, (s.cloneFrame i).2.frames.lookup j y = s.frames.lookup j y := by
  refine ⟨s.get?_clone_new i, get?_clone h, fun j hj => s.get?_clone_of_ne i hj, ?_, ?_⟩
  · intro y
    have hpath : s.frames.path i = i :: (s.frames.path i).tail := by simp [Frames.path_of_get? h]
    rw [Frames.lookup_of_path (path_clone h), Frames.lookup_of_path hpath, own_clone h,
      Frames.findSome?_own_congr fun k hk => own_clone_of_mem_path (List.mem_of_mem_tail hk) i y]
  · intro j hj y
    rw [Frames.lookup_eq, Frames.lookup_eq, path_clone_of_ne s i hj,
      Frames.findSome?_own_congr fun k hk => own_clone_of_mem_path hk i y]

/-- Whatever is done later, the clone and the frame that it was made from share their chains and nothing else. -/
theorem clone_shares (h : s.frames.get? i = some f) (calls : List FrameCall) :
    let c := (s.cloneFrame i).1
    let u := (s.cloneFrame i).2.applyAll calls
    u.frames.path c = c :: (u.frames.path i).tail ∧ c ∉ u.frames.path i ∧
      (∀ y, u.frames.own c y = u.frames.own i y → u.frames.lookup c y = u.frames.lookup i y) ∧
      ∀ x v, (u.define c x v).frames.get? i = u.frames.get? i ∧ (u.define i x v).frames.get? c = u.frames.get? c := by
  intro c u
  have hne : i ≠ c := ne_clone h i
  have hold : (s.cloneFrame i).2.frames.get? i = some f := (s.get?_clone_of_ne i hne).trans h
  have hpathi : u.frames.path i = s.frames.path i := (path_applyAll hold calls).trans (path_clone_of_ne s i hne)
  have hpathc : u.frames.path c = c :: (u.frames.path i).tail := by
    rw [hpathi, path_applyAll (get?_clone h) calls, path_clone h]
  refine ⟨hpathc, ?_, ?_, ?_⟩
  · rw [hpathi]
    exact clone_not_mem_path s i i
  · intro y hown
    have hcons : u.frames.path i = i :: (u.frames.path i).tail := by
      rw [hpathi]
      simp [Frames.path_of_get? h]
    rw [Frames.lookup_of_path hpathc, Frames.lookup_of_path hcons, hown]
  · intro x v
    constructor
    · exact (u.frames.get?_modify c _ (by simp) i).trans (if_neg hne)
    · exact (u.frames.get?_modify i _ (by simp) c).trans (if_neg hne.symm)

/-- **What symbols mean in shared frames.** For all frames of a store:

Chains end. A symbol means its nearest binding, and is not found where no frame of the chain binds it.

Assigning succeeds just where looking up does. It changes one binding, the nearest one, and makes none; then the symbol has
the new value wherever that binding is the nearest one, and nothing else has changed its meaning. An assignment that fails
changes nothing.

Defining changes one binding of the frame; then the symbol has the new value wherever the frame is reached before any
other binding of it, and nothing else has changed its meaning.

A clone is a new frame that nobody else sees, with the bindings and the meanings of the frame that it is made from. From
then on, whatever is done, the two share their chain and differ only where they bind a symbol differently themselves;
binding a symbol in one of them leaves the other as it is. -/
theorem lookup_sharing (s : Store) :
    (∀ i f, s.frames.get? i = some f →
      s.frames.path i = i :: f.parent?.elim [] s.frames.path ∧ (s.frames.path i).Nodup ∧
        ∀ p, f.parent? = some p → ∃ g, s.frames.get? p = some g) ∧
    (∀ i x, (∃ g v, s.frames.Nearest x i g ∧ s.frames.own g x = some v ∧ s.frames.lookup i x = .ok v) ∨
      (s.frames.Unbound x i ∧ s.frames.lookup i x = .error (.symbolNotFound x.name))) ∧
    (∀ i x v, ((∃ t, s.assign i x v = .ok t) ↔ ∃ w, s.frames.lookup i x = .ok w) ∧
      match s.assign i x v with
      | .error e => e = .symbolNotFound x.name ∧ s.frames.lookup i x = .error e ∧ s.apply (.assign i x v) = s
      | .ok t => (∃ w, s.frames.lookup i x = .ok w) ∧ s.apply (.assign i x v) = t ∧ t = { s with frames := t.frames } ∧
          ∃ g, s.frames.Nearest x i g ∧ s.frames.Sets g x v t.frames ∧
            (∀ j y, (t.frames.own j y).isSome = (s.frames.own j y).isSome) ∧
            ∀ j y, (y.same x ∧ s.frames.Nearest x j g → t.frames.lookup j y = .ok v) ∧
              (¬(y.same x ∧ s.frames.Nearest x j g) → t.frames.lookup j y = s.frames.lookup j y)) ∧
    (∀ i f x v, s.frames.get? i = some f →
      s.frames.Sets i x v (s.define i x v).frames ∧
        ∀ j y, (y.same x ∧ s.frames.Reaches x j i → (s.define i x v).frames.lookup j y = .ok v) ∧
          (¬(y.same x ∧ s.frames.Reaches x j i) → (s.define i x v).frames.lookup j y = s.frames.lookup j y)) ∧
    ∀ i f, s.frames.get? i = some f →
      s.frames.get? (s.cloneFrame i).1 = none ∧ (s.cloneFrame i).2.frames.get? (s.cloneFrame i).1 = some f ∧
        (∀ j, j ≠ (s.cloneFrame i).1 → (s.cloneFrame i).2.frames.get? j = s.frames.get? j) ∧
        (∀ y, (s.cloneFrame i).2.frames.lookup (s.cloneFrame i).1 y = s.frames.lookup i y) ∧
        (∀ j, j ≠ (s.cloneFrame i).1 → ∀ y, (s.cloneFrame i).2.frames.lookup j y = s.frames.lookup j y) ∧
        ∀ calls, let c := (s.cloneFrame i).1
          let u := (s.cloneFrame i).2.applyAll calls
          u.frames.path c = c :: (u.frames.path i).tail ∧ c ∉ u.frames.path i ∧
            (∀ y, u.frames.own c y = u.frames.own i y → u.frames.lookup c y = u.frames.lookup i y) ∧
            ∀ x v, (u.define c x v).frames.get? i = u.frames.get? i ∧
              (u.define i x v).frames.get? c = u.frames.get? c := by
  refine ⟨fun i f h => path_spec h, fun i x => s.frames.lookup_cases i x, ?_, fun i f x v h => define_spec h x v, ?_⟩
  · intro i x v
    have hassign := s.assign_spec i x v
    refine ⟨?_, hassign⟩
    cases h : s.assign i x v with
    | error e =>
      rw [h] at hassign
      simp [hassign.2.1]
    | ok t =>
      rw [h] at hassign
      obtain ⟨w, hw⟩ := hassign.1
      simp [hw]
  · intro i f h
    obtain ⟨hnew, hclone, hother, hlookup, hrest⟩ := clone_spec h
    exact ⟨hnew, hclone, hother, hlookup, hrest, clone_shares h⟩

/-- Two blocks over one frame, the second of them a clone of the first, see what that frame binds later. -/
theorem lookup_sharing_blocks :
    let x : Symbol := ⟨4, "x", false⟩
    let s := ({} : Store).applyAll [.root, .block ⟨0⟩]
    let u := (s.cloneFrame ⟨1⟩).2.applyAll [.define ⟨0⟩ x (.int 7)]
    s.frames.get? ⟨1⟩ = some { parent? := some ⟨0⟩ } ∧ s.frames.path ⟨1⟩ = [⟨1⟩, ⟨0⟩] ∧
      (s.define ⟨0⟩ x (.int 7)).frames.lookup ⟨1⟩ x = .ok (.int 7) ∧
      (s.cloneFrame ⟨1⟩).2.frames.lookup ⟨0⟩ x = s.frames.lookup ⟨0⟩ x ∧
      u.frames.lookup (s.cloneFrame ⟨1⟩).1 x = u.frames.lookup ⟨1⟩ x := by
  intro x s u
  have hroot : s.frames.get? ⟨0⟩ = some {} := rfl
  have hblock : s.frames.get? ⟨1⟩ = some { parent? := some ⟨0⟩ } := rfl
  obtain ⟨hpath, -, -, hdefine, hclone⟩ := lookup_sharing s
  have hpath0 : s.frames.path ⟨0⟩ = [⟨0⟩] := (hpath _ _ hroot).1
  have hpath1 : s.frames.path ⟨1⟩ = [⟨1⟩, ⟨0⟩] := by
    rw [(hpath _ _ hblock).1]
    exact congrArg _ hpath0
  obtain ⟨-, -, -, -, hothers, hshares⟩ := hclone _ _ hblock
  refine ⟨hblock, hpath1, ?_, hothers ⟨0⟩ (by decide) x, ?_⟩
  · apply ((hdefine _ _ x (.int 7) hroot).2 ⟨1⟩ x).1
    refine ⟨by decide, [⟨1⟩], [], hpath1, ?_⟩
    intro k hk
    obtain rfl := List.mem_singleton.1 hk
    rfl
  · exact (hshares [.define ⟨0⟩ x (.int 7)]).2.2.1 x rfl

end Store

end Zygo
