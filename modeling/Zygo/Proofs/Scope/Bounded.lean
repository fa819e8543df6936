import Zygo.Proofs.Scope.Sharing

/-!
# Bounded look-ups

The first function frame of a chain parts it: `Frames.visible` lists the frames up to it, itself included, and
`Frames.beyond` those behind it. A bounded look-up searches the visible frames as a look-up searches the whole chain
(`lookupUntilFunction_eq`), so it depends on nothing else (`lookupUntilFunction_congr`).

* `lookupUntilFunction_restricts`: a bounded look-up finds what a look-up finds, where no function frame comes before it,
  and nothing that is done beyond the nearest function frame ever shows in it.
-/

namespace Zygo

variable {x y : Symbol} {v : Value} {i j k g : FrameId} {f : Frame}

namespace Frames

variable {fs fs' : Frames} {nearer further : List FrameId}

/-! ## Parts of a chain -/

/-- Whether a function call made the frame for its parameters. -/
def isFunction (fs : Frames) (i : FrameId) : Bool :=
  (fs.get? i).any (·.isFunction)

/-- The frames of a chain up to its first function frame, itself included. -/
def visible (fs : Frames) (i : FrameId) : List FrameId :=
  (fs.path i).take ((fs.path i).findIdx fs.isFunction + 1)

/-- The frames of a chain behind its first function frame. -/
def beyond (fs : Frames) (i : FrameId) : List FrameId :=
  (fs.path i).drop ((fs.path i).findIdx fs.isFunction + 1)

/-- The frames of a chain strictly before one of them. -/
def before (fs : Frames) (i g : FrameId) : List FrameId :=
  (fs.path i).takeWhile fun k => k != g

theorem visible_append_beyond (fs : Frames) (i : FrameId) : fs.visible i ++ fs.beyond i = fs.path i :=
  List.take_append_drop _ _

theorem isFunction_of_get? (h : fs.get? i = some f) : fs.isFunction i = f.isFunction := by
  simp [isFunction, h]

theorem isFunction_congr (h : fs'.link? i = fs.link? i) : fs'.isFunction i = fs.isFunction i := by
  have hany : ∀ fs : Frames, fs.isFunction i = (fs.link? i).any Prod.snd := by
    intro fs
    rw [isFunction, link?]
    cases fs.get? i <;> rfl
  rw [hany, hany, h]

theorem visible_of_none (h : fs.get? i = none) : fs.visible i = [] := by
  simp [visible, path_of_none h]

/-- A function frame ends what is visible; else what is visible goes on with the parent. -/
theorem visible_of_get? (h : fs.get? i = some f) :
    fs.visible i = i :: if f.isFunction then [] else f.parent?.elim [] fs.visible := by
  rw [visible, path_of_get? h, List.findIdx_cons, isFunction_of_get? h]
  cases f.isFunction with
  | true => rfl
  | false => cases f.parent? <;> rfl

/-- No frame before the first function frame is one. -/
theorem isFunction_of_mem_nearer {seen : List FrameId} (h : fs.visible i = nearer ++ g :: seen) (hk : k ∈ nearer) :
    fs.isFunction k = false := by
  obtain ⟨n, hn, rfl⟩ := List.getElem_of_mem hk
  have hle : (fs.visible i).length ≤ (fs.path i).findIdx fs.isFunction + 1 := List.length_take_le _ _
  have hlt : n < (fs.path i).findIdx fs.isFunction := by
    rw [h] at hle
    simp only [List.length_append, List.length_cons] at hle
    omega
  have hget : (fs.path i)[n]? = some nearer[n] := by
    rw [← fs.visible_append_beyond, h, List.append_assoc, List.getElem?_append_left hn, List.getElem?_eq_getElem hn]
  obtain ⟨hlt', hget⟩ := List.getElem?_eq_some_iff.1 hget
  rw [← hget]
  simpa using List.not_of_lt_findIdx hlt

/-- A frame with no function frame before it is visible, and so are those before it. -/
theorem visible_of_path (h : fs.path i = nearer ++ g :: further) (hn : ∀ k ∈ nearer, fs.isFunction k = false) :
    ∃ seen, fs.visible i = nearer ++ g :: seen := by
  have hlength : nearer.findIdx fs.isFunction = nearer.length := List.findIdx_eq_length_of_false hn
  refine ⟨further.take ((g :: further).findIdx fs.isFunction), ?_⟩
  rw [visible, h, List.findIdx_append, hlength, if_neg (Nat.lt_irrefl _), Nat.add_right_comm, Nat.add_comm _ nearer.length,
    List.take_length_add_append, List.take_succ_cons]

/-- A chain comes to no frame twice, so where it is parted at a frame says what comes before the frame. -/
theorem before_eq (h : fs.path i = nearer ++ g :: further) : fs.before i g = nearer := by
  have hnodup := fs.nodup_path i
  rw [h, List.nodup_append] at hnodup
  have hne : ∀ k ∈ nearer, (k != g) = true := by
    intro k hk
    exact bne_iff_ne.2 (hnodup.2.2 k hk g List.mem_cons_self)
  rw [before, h, List.takeWhile_append_of_pos hne, List.takeWhile_cons_of_neg (by simp), List.append_nil]

/-- From a frame of a chain on, its own chain is the rest. -/
theorem path_of_path (h : fs.path i = nearer ++ g :: further) : fs.path g = g :: further := by
  induction i using fs.parent_induction generalizing nearer with
  | step i ih =>
    cases hf : fs.get? i with
    | none => simp [path_of_none hf] at h
    | some f =>
      have hpath := path_of_get? hf
      cases nearer with
      | nil =>
        obtain ⟨rfl, -⟩ := List.cons_eq_cons.1 (hpath.symm.trans h)
        exact h
      | cons k nearer =>
        obtain ⟨-, hrest⟩ := List.cons_eq_cons.1 (hpath.symm.trans h)
        cases hp : f.parent? with
        | none => simp [hp] at hrest
        | some p => exact ih f p hf hp (by simpa [hp] using hrest)

/-- The chain of a frame that is beyond is beyond as well. -/
theorem mem_beyond_of_mem_path (hg : g ∈ fs.beyond i) (hk : k ∈ fs.path g) : k ∈ fs.beyond i := by
  obtain ⟨between, further, hbeyond⟩ := List.append_of_mem hg
  have hpath : fs.path i = (fs.visible i ++ between) ++ g :: further := by
    rw [← fs.visible_append_beyond, hbeyond, List.append_assoc]
  rw [path_of_path hpath] at hk
  rw [hbeyond]
  exact List.mem_append_right _ hk

/-- What is beyond is not visible. -/
theorem not_mem_visible_of_mem_beyond (hg : g ∈ fs.beyond i) : g ∉ fs.visible i := by
  intro hmem
  have hnodup := fs.nodup_path i
  rw [← fs.visible_append_beyond, List.nodup_append] at hnodup
  exact hnodup.2.2 g hmem g hg rfl

/-- The links of a chain say where it is parted. -/
theorem parts_congr (h : ∀ j ∈ fs.path i, fs'.link? j = fs.link? j) (hi : fs'.link? i = fs.link? i) :
    fs'.visible i = fs.visible i ∧ fs'.beyond i = fs.beyond i := by
  have hfirst : (fs.path i).findIdx fs'.isFunction = (fs.path i).findIdx fs.isFunction := by
    apply Nat.le_antisymm
    · exact List.findIdx_le_findIdx fun j hj hfunction => (isFunction_congr (h j hj)).trans hfunction
    · exact List.findIdx_le_findIdx fun j hj hfunction => (isFunction_congr (h j hj)).symm.trans hfunction
  rw [visible, beyond, path_congr h hi, hfirst]
  exact ⟨rfl, rfl⟩

/-! ## Look-ups -/

theorem lookupUntilFunction_eq (fs : Frames) (i : FrameId) (x : Symbol) :
    fs.lookupUntilFunction i x = found x ((fs.visible i).findSome? fun j => fs.own j x) := by
  fun_induction lookupUntilFunction fs i x with
  | case1 i h =>
    rw [visible_of_none h]
    rfl
  | case2 i f h v hv =>
    rw [visible_of_get? h, List.findSome?_cons, own_of_get? h, hv]
    rfl
  | case3 i f h hv hfunction =>
    rw [visible_of_get? h, List.findSome?_cons, own_of_get? h, hv, if_pos hfunction]
    rfl
  | case4 i f h hv hfunction hp =>
    rw [visible_of_get? h, List.findSome?_cons, own_of_get? h, hv, if_neg hfunction, hp]
    rfl
  | case5 i f h hv hfunction p hp ih =>
    rw [visible_of_get? h, List.findSome?_cons, own_of_get? h, hv, if_neg hfunction, hp]
    exact ih

/-- A bounded look-up depends on the visible frames only. -/
theorem lookupUntilFunction_congr (hvisible : fs'.visible i = fs.visible i)
    (hown : ∀ j ∈ fs.visible i, fs'.own j y = fs.own j y) :
    fs'.lookupUntilFunction i y = fs.lookupUntilFunction i y := by
  rw [lookupUntilFunction_eq, lookupUntilFunction_eq, hvisible, findSome?_own_congr hown]

/-- **A bounded look-up finds the nearest binding if no function frame comes before it**, and nothing else. -/
theorem lookupUntilFunction_eq_ok_iff :
    fs.lookupUntilFunction i x = .ok v ↔
      ∃ g, fs.Nearest x i g ∧ (∀ k ∈ fs.before i g, fs.isFunction k = false) ∧ fs.own g x = some v := by
  have hfind : fs.lookupUntilFunction i x = .ok v ↔ ((fs.visible i).findSome? fun j => fs.own j x) = some v := by
    rw [lookupUntilFunction_eq]
    cases (fs.visible i).findSome? fun j => fs.own j x <;> simp [found]
  rw [hfind, List.findSome?_eq_some_iff]
  constructor
  · rintro ⟨nearer, g, seen, hvisible, hv, hnone⟩
    have hpath : fs.path i = nearer ++ g :: (seen ++ fs.beyond i) := by
      rw [← fs.visible_append_beyond, hvisible, List.append_assoc, List.cons_append]
    refine ⟨g, ⟨⟨nearer, _, hpath, hnone⟩, by rw [hv]; rfl⟩, ?_, hv⟩
    rw [before_eq hpath]
    exact fun k hk => isFunction_of_mem_nearer hvisible hk
  · rintro ⟨g, ⟨⟨nearer, further, hpath, hnone⟩, -⟩, hbefore, hv⟩
    rw [before_eq hpath] at hbefore
    obtain ⟨seen, hvisible⟩ := visible_of_path hpath hbefore
    exact ⟨nearer, g, seen, hvisible, hv, hnone⟩

/-- A write beyond the function frame leaves what the visible frames bind. -/
theorem Sets.own_of_mem_visible (h : fs.Sets g x v fs') (hg : g ∈ fs.beyond i) (hj : j ∈ fs.visible i) (y : Symbol) :
    fs'.own j y = fs.own j y := by
  apply h.own_of_ne
  rintro rfl
  exact not_mem_visible_of_mem_beyond hg hj

/-- A write beyond the function frame does not show in a bounded look-up. -/
theorem Sets.lookupUntilFunction_eq (h : fs.Sets g x v fs') (hg : g ∈ fs.beyond i) (y : Symbol) :
    fs'.lookupUntilFunction i y = fs.lookupUntilFunction i y := by
  apply lookupUntilFunction_congr
  · exact (parts_congr (fun j _ => h.link j) (h.link i)).1
  · exact fun j hj => h.own_of_mem_visible hg hj y

/-- A bounded look-up that succeeds agrees with the look-up, and one that fails names the symbol. -/
theorem lookupUntilFunction_spec (fs : Frames) (i : FrameId) (x : Symbol) :
    match fs.lookupUntilFunction i x with
    | .ok v => fs.lookup i x = .ok v
    | .error e => e = .symbolNotFound x.name := by
  cases h : fs.lookupUntilFunction i x with
  | ok v =>
    obtain ⟨g, ⟨hreaches, -⟩, -, hv⟩ := lookupUntilFunction_eq_ok_iff.1 h
    exact lookup_of_reaches hreaches hv
  | error e =>
    rw [lookupUntilFunction_eq] at h
    cases hfind : (fs.visible i).findSome? fun j => fs.own j x with
    | some v => simp [hfind, found] at h
    | none =>
      rw [hfind] at h
      exact (Except.error.inj h).symm

end Frames

namespace Store

variable {s t : Store}

/-! ## Calls beyond the function frame -/

/-- The frame that a call is made on to write to a scope. -/
def FrameCall.target? : FrameCall → Option FrameId
  | define i _ _ => some i
  | assign i _ _ => some i
  | root => none
  | block _ => none
  | callFrame _ => none
  | clone _ => none

/-- The frames of one store look from a frame as those of another one: the chain is the same, it is parted at the same
place, and the visible frames bind the same. -/
structure LooksAlike (i : FrameId) (s t : Store) : Prop where
  visible : t.frames.visible i = s.frames.visible i
  beyond : t.frames.beyond i = s.frames.beyond i
  own : ∀ j ∈ s.frames.visible i, ∀ y, t.frames.own j y = s.frames.own j y

theorem LooksAlike.trans {u : Store} (h : LooksAlike i s t) (h' : LooksAlike i t u) : LooksAlike i s u where
  visible := h'.visible.trans h.visible
  beyond := h'.beyond.trans h.beyond
  own := by
    intro j hj y
    rw [h'.own j (h.visible ▸ hj), h.own j hj]

/-- No call changes where a chain is parted. -/
theorem parts_apply (hi : s.frames.get? i = some f) (call : FrameCall) :
    (s.apply call).frames.visible i = s.frames.visible i ∧ (s.apply call).frames.beyond i = s.frames.beyond i := by
  apply Frames.parts_congr
  · intro j hj
    obtain ⟨g, hg⟩ := Frames.get?_of_mem_path hj
    exact link?_apply hg call
  · exact link?_apply hi call

/-- A call that writes, if at all, on a frame beyond the function frame does not show. -/
theorem looksAlike_apply (hi : s.frames.get? i = some f) {call : FrameCall}
    (hcall : ∀ g, call.target? = some g → g ∈ s.frames.beyond i) : LooksAlike i s (s.apply call) := by
  obtain ⟨hvisible, hbeyond⟩ := parts_apply hi call
  refine ⟨hvisible, hbeyond, ?_⟩
  intro j hj y
  have hmem : j ∈ s.frames.path i := s.frames.visible_append_beyond i ▸ List.mem_append_left _ hj
  obtain ⟨f', hf'⟩ := Frames.get?_of_mem_path hmem
  have hadd : ∀ g, (s.addFrame g).2.frames.own j y = s.frames.own j y := by
    intro g
    rw [Frames.own, Frames.own, get?_addFrame hf', hf']
  cases call with
  | root | block | callFrame | clone => exact hadd _
  | define g x v =>
    have hg := hcall g rfl
    obtain ⟨f', hf'⟩ := Frames.get?_of_mem_path (s.frames.visible_append_beyond i ▸ List.mem_append_right _ hg)
    exact (Frames.sets_define hf' x v).own_of_mem_visible hg hj y
  | assign g x v =>
    rcases s.assign_cases g x v with ⟨z, fs, ⟨⟨nearer, further, hpath, -⟩, -⟩, hsets, hok⟩ | ⟨-, herror⟩
    · -- The binding that changes is on the chain of `g`, so it is beyond as well.
      have hz : z ∈ s.frames.beyond i := by
        apply Frames.mem_beyond_of_mem_path (hcall g rfl)
        rw [hpath]
        exact List.mem_append_right _ List.mem_cons_self
      simp only [apply, hok]
      exact hsets.own_of_mem_visible hz hj y
    · simp only [apply, herror]

/-- **No calls beyond the function frame show**, however many there are. -/
theorem looksAlike_applyAll (hi : s.frames.get? i = some f) {calls : List FrameCall}
    (hcalls : ∀ call ∈ calls, ∀ g, call.target? = some g → g ∈ s.frames.beyond i) :
    LooksAlike i s (s.applyAll calls) := by
  induction calls generalizing s f with
  | nil => exact ⟨rfl, rfl, fun _ _ _ => rfl⟩
  | cons call calls ih =>
    have hcall := looksAlike_apply hi (hcalls call List.mem_cons_self)
    obtain ⟨f', hf'⟩ := exists_of_link? (link?_apply hi call) hi
    apply hcall.trans
    apply ih hf'
    intro later hlater g hg
    rw [hcall.beyond]
    exact hcalls later (List.mem_cons_of_mem _ hlater) g hg

/-- **A bounded look-up is a look-up up to the nearest function frame.** For all frames of a store and all symbols:

A bounded look-up succeeds just where there is a nearest binding of the symbol and no frame strictly before it is a function
frame. Then it gives what a look-up gives; else it fails and names the symbol.

What is defined and assigned on frames beyond the nearest function frame changes no result of it, in any number and order,
whatever frames are made in between. Nor does any other write to a binding beyond, such as an assignment on a nearer frame
that comes to it. -/
theorem lookupUntilFunction_restricts (s : Store) (i : FrameId) :
    (∀ x, ((∃ v, s.frames.lookupUntilFunction i x = .ok v) ↔
        ∃ g, s.frames.Nearest x i g ∧ ∀ k ∈ s.frames.before i g, s.frames.isFunction k = false) ∧
      match s.frames.lookupUntilFunction i x with
      | .ok v => s.frames.lookup i x = .ok v
      | .error e => e = .symbolNotFound x.name) ∧
    (∀ f, s.frames.get? i = some f → ∀ calls : List FrameCall,
      (∀ call ∈ calls, ∀ g, call.target? = some g → g ∈ s.frames.beyond i) → ∀ y,
        (s.applyAll calls).frames.lookupUntilFunction i y = s.frames.lookupUntilFunction i y) ∧
    ∀ g x v fs, g ∈ s.frames.beyond i → s.frames.Sets g x v fs → ∀ y,
      fs.lookupUntilFunction i y = s.frames.lookupUntilFunction i y := by
  refine ⟨fun x => ⟨⟨?_, ?_⟩, s.frames.lookupUntilFunction_spec i x⟩, ?_,
    fun _ _ _ _ hg hsets y => hsets.lookupUntilFunction_eq hg y⟩
  · rintro ⟨v, h⟩
    obtain ⟨g, hnearest, hbefore, -⟩ := Frames.lookupUntilFunction_eq_ok_iff.1 h
    exact ⟨g, hnearest, hbefore⟩
  · rintro ⟨g, hnearest, hbefore⟩
    obtain ⟨v, hv⟩ := Option.isSome_iff_exists.1 hnearest.2
    exact ⟨v, Frames.lookupUntilFunction_eq_ok_iff.2 ⟨g, hnearest, hbefore, hv⟩⟩
  · intro f hi calls hcalls y
    have halike := looksAlike_applyAll hi hcalls
    exact Frames.lookupUntilFunction_congr halike.visible fun j hj => halike.own j hj y

/-- A block in a call sees what the call binds, however the global frame is written to, and nothing that the global frame
binds. -/
theorem lookupUntilFunction_restricts_call :
    let x : Symbol := ⟨4, "x", false⟩
    let y : Symbol := ⟨5, "y", false⟩
    let s := ({} : Store).applyAll
      [.root, .callFrame (some ⟨0⟩), .block ⟨1⟩, .define ⟨0⟩ x (.int 1), .define ⟨1⟩ y (.int 2)]
    let calls : List FrameCall := [.define ⟨0⟩ y (.int 3), .root, .assign ⟨0⟩ x (.int 4)]
    s.frames.get? ⟨2⟩ = some { parent? := some ⟨1⟩ } ∧ s.frames.beyond ⟨2⟩ = [⟨0⟩] ∧
      (∀ call ∈ calls, ∀ g, call.target? = some g → g ∈ s.frames.beyond ⟨2⟩) ∧
      s.frames.lookupUntilFunction ⟨2⟩ y = .ok (.int 2) ∧ s.frames.lookup ⟨2⟩ y = .ok (.int 2) ∧
      (s.applyAll calls).frames.lookupUntilFunction ⟨2⟩ y = .ok (.int 2) ∧
      s.frames.lookupUntilFunction ⟨2⟩ x = .error (.symbolNotFound "x") ∧ s.frames.lookup ⟨2⟩ x = .ok (.int 1) ∧
      s.frames.Sets ⟨0⟩ x (.int 4) (s.define ⟨0⟩ x (.int 4)).frames ∧
      (s.define ⟨0⟩ x (.int 4)).frames.lookupUntilFunction ⟨2⟩ x = s.frames.lookupUntilFunction ⟨2⟩ x := by
  intro x y s calls
  obtain ⟨hspec, hcalls, hwrites⟩ := lookupUntilFunction_restricts s ⟨2⟩
  have hroot : s.frames.get? ⟨0⟩ = some { bindings := [(x, .int 1)] } := rfl
  have hcall : s.frames.get? ⟨1⟩ = some { bindings := [(y, .int 2)], parent? := some ⟨0⟩, isFunction := true } := rfl
  have hblock : s.frames.get? ⟨2⟩ = some { parent? := some ⟨1⟩ } := rfl
  have hpath : s.frames.path ⟨2⟩ = [⟨2⟩, ⟨1⟩, ⟨0⟩] := by
    rw [Frames.path_of_get? hblock, Option.elim_some, Frames.path_of_get? hcall, Option.elim_some,
      Frames.path_of_get? hroot]
    rfl
  have hbeyond : s.frames.beyond ⟨2⟩ = [⟨0⟩] := by
    rw [Frames.beyond, hpath]
    rfl
  have htargets : ∀ call ∈ calls, ∀ g, call.target? = some g → g ∈ s.frames.beyond ⟨2⟩ := by
    rw [hbeyond]
    simp [calls, FrameCall.target?]
  have hy : s.frames.lookupUntilFunction ⟨2⟩ y = .ok (.int 2) := by
    rw [Frames.lookupUntilFunction_eq, Frames.visible, hpath]
    rfl
  have hlookup := (hspec y).2
  rw [hy] at hlookup
  have hsets := Frames.sets_define hroot x (.int 4)
  refine ⟨hblock, hbeyond, htargets, hy, hlookup, (hcalls _ hblock calls htargets y).trans hy, ?_, ?_, hsets,
    hwrites _ _ _ _ (by simp [hbeyond]) hsets x⟩
  · rw [Frames.lookupUntilFunction_eq, Frames.visible, hpath]
    rfl
  · rw [Frames.lookup_eq, hpath]
    rfl

end Store

end Zygo
