import Zygo.Scope

/-!
# Chains of frames

`Frames.path` lists the frames from a frame to the end of its chain, and `Frames.own` is what a frame itself binds to a
symbol. Looking a symbol up gives what its nearest frame binds to it (`lookup_eq`), and assigning changes just that
binding (`assign_eq`).

Both ways to write, `define` and `assign`, come down to `Sets`: one frame binds one symbol to a new value, and nothing
else shows. What a write changes in the look-ups of all frames is proved from that once (`Sets.lookup_seen`,
`Sets.lookup_unseen`).
-/

namespace Zygo

variable {x y : Symbol} {v w : Value}

theorem Symbol.same_iff {s t : Symbol} : s.same t = true ↔ s.id = t.id := by
  simp [same]

theorem Symbol.same_comm (s t : Symbol) : s.same t = t.same s :=
  BEq.comm

/-- Bindings are searched alike for symbols of one number. -/
theorem Symbol.same_congr (h : y.same x) :
    (fun b : Symbol × Value => b.1.same y) = fun b : Symbol × Value => b.1.same x := by
  funext b
  simp [same, same_iff.1 h]

/-! ## One frame -/

namespace Frame

/-- Replacing the value of `x` in a list of bindings, under any symbols of its number. -/
theorem find?_replace {k : Symbol × Value → Symbol} (hk : ∀ b : Symbol × Value, b.1.same x → (k b).same x)
    (bs : List (Symbol × Value)) :
    ((bs.map fun b => if b.1.same x then (k b, v) else b).find? fun b => b.1.same y).map Prod.snd =
      if y.same x then (bs.find? fun b => b.1.same x).map fun _ => v
      else (bs.find? fun b => b.1.same y).map Prod.snd := by
  induction bs with
  | nil => simp
  | cons b bs ih =>
    simp only [Symbol.same_iff] at hk ih ⊢
    by_cases hb : b.1.id = x.id
    · have hkb := hk b hb
      by_cases hy : y.id = x.id
      · simp [Symbol.same, hb, hkb, hy]
      · have hxy : ¬x.id = y.id := fun h => hy h.symm
        simpa [Symbol.same, hb, hkb, hy, hxy] using ih
    · by_cases hy : y.id = x.id
      · simpa [Symbol.same, hb, hy] using ih
      · by_cases hby : b.1.id = y.id
        · simp [Symbol.same, hy, hby]
        · simpa [Symbol.same, hb, hy, hby] using ih

theorem find?_of_binds {f : Frame} (h : f.binds x) : ∃ b, f.bindings.find? (fun b => b.1.same x) = some b := by
  have hsome : ((f.bindings.find? fun b => b.1.same x).map Prod.snd).isSome = true := h
  rw [Option.isSome_map] at hsome
  exact Option.isSome_iff_exists.1 hsome

theorem find?_of_not_binds {f : Frame} (h : ¬f.binds x) : f.bindings.find? (fun b => b.1.same x) = none := by
  cases hb : f.bindings.find? (fun b => b.1.same x) with
  | none => rfl
  | some b => exact absurd (by simp [binds, find?, hb]) h

theorem find?_define (f : Frame) (x y : Symbol) (v : Value) :
    (f.define x v).find? y = if y.same x then some v else f.find? y := by
  unfold define
  split
  · rename_i hbinds
    obtain ⟨b, hb⟩ := find?_of_binds hbinds
    rw [find?, find?_replace (k := fun _ => x) (fun _ _ => Symbol.same_iff.2 rfl), hb]
    rfl
  · rename_i hbinds
    have hnone := find?_of_not_binds hbinds
    rw [find?, List.find?_append]
    by_cases hy : y.same x
    · have hself : x.same y = true := by rwa [Symbol.same_comm]
      rw [← Symbol.same_congr hy] at hnone
      simp [hy, hself, hnone]
    · have hself : x.same y = false := by
        rw [Symbol.same_comm]
        simpa using hy
      simp [hy, hself, find?]

theorem isFunction_define (f : Frame) (x : Symbol) (v : Value) : (f.define x v).isFunction = f.isFunction := by
  unfold define
  split <;> rfl

theorem find?_rebind (f : Frame) (x y : Symbol) (v : Value) (h : f.binds x) :
    (f.rebind x v).find? y = if y.same x then some v else f.find? y := by
  obtain ⟨b, hb⟩ := find?_of_binds h
  rw [find?, rebind, find?_replace (k := fun b => b.1) (fun _ hb => hb), hb]
  rfl

theorem find?_congr (f : Frame) (h : y.same x) : f.find? y = f.find? x := by
  rw [find?, find?, Symbol.same_congr h]

end Frame

namespace Frames

variable {fs fs' : Frames} {i j g p : FrameId} {f : Frame}

/-! ## Paths -/

/-- What a frame itself binds to a symbol. -/
def own (fs : Frames) (i : FrameId) (x : Symbol) : Option Value :=
  (fs.get? i).bind (·.find? x)

/-- The frames from a frame to the end of its chain. -/
def path (fs : Frames) (i : FrameId) : List FrameId :=
  match _h : fs.get? i with
  | none => []
  | some f =>
    i :: match _hp : f.parent? with
      | none => []
      | some p => fs.path p
termination_by i.index
decreasing_by exact fs.parent_lt _ _ _h _ _hp

theorem own_congr (fs : Frames) (i : FrameId) (h : y.same x) : fs.own i y = fs.own i x := by
  simp [own, Frame.find?_congr _ h]

theorem own_of_get? (h : fs.get? i = some f) (x : Symbol) : fs.own i x = f.find? x := by
  simp [own, h]

theorem path_of_none (h : fs.get? i = none) : fs.path i = [] := by
  rw [path]
  split
  · rfl
  · simp_all

/-- A path goes from a frame to its parent, and ends at a frame without one. -/
theorem path_of_get? (h : fs.get? i = some f) : fs.path i = i :: f.parent?.elim [] fs.path := by
  rw [path]
  split
  · simp_all
  · rename_i f' h'
    obtain rfl : f' = f := by simpa [h] using h'.symm
    split <;> simp_all

theorem parent_index_lt (h : fs.get? i = some f) (hp : f.parent? = some p) : p.index < i.index :=
  fs.parent_lt _ _ h _ hp

/-- A parent is a frame that exists. -/
theorem get?_parent (h : fs.get? i = some f) (hp : f.parent? = some p) : ∃ g, fs.get? p = some g := by
  have hi : i.index < fs.frames.size := (Array.getElem?_eq_some_iff.1 h).1
  have hlt := parent_index_lt h hp
  exact ⟨fs.frames[p.index], Array.getElem?_eq_getElem (by omega)⟩

/-- Induction along the parents of frames: they are older, so no chain goes on for ever. -/
theorem parent_induction (fs : Frames) {motive : FrameId → Prop}
    (step : ∀ i, (∀ f p, fs.get? i = some f → f.parent? = some p → motive p) → motive i) (i : FrameId) : motive i := by
  obtain ⟨n, hn⟩ : ∃ n, i.index = n := ⟨_, rfl⟩
  induction n using Nat.strongRecOn generalizing i with
  | _ n ih =>
    apply step
    intro f p h hp
    have hlt := parent_index_lt h hp
    exact ih p.index (by omega) p rfl

/-- All frames of a path are as old as its first one, or older. -/
theorem index_le_of_mem_path (h : j ∈ fs.path i) : j.index ≤ i.index := by
  induction i using fs.parent_induction with
  | step i ih =>
    cases hf : fs.get? i with
    | none => simp [path_of_none hf] at h
    | some f =>
      rw [path_of_get? hf] at h
      rcases List.mem_cons.1 h with rfl | h
      · exact Nat.le_refl _
      · cases hp : f.parent? with
        | none => simp [hp] at h
        | some p =>
          have hlt := parent_index_lt hf hp
          have hle := ih f p hf hp (by simpa [hp] using h)
          omega

/-- No frame comes twice on a path. -/
theorem nodup_path (fs : Frames) (i : FrameId) : (fs.path i).Nodup := by
  induction i using fs.parent_induction with
  | step i ih =>
    cases hf : fs.get? i with
    | none => simp [path_of_none hf]
    | some f =>
      rw [path_of_get? hf]
      cases hp : f.parent? with
      | none => simp
      | some p =>
        refine List.nodup_cons.2 ⟨?_, ih f p hf hp⟩
        intro hmem
        have hle : i.index ≤ p.index := index_le_of_mem_path hmem
        have hlt := parent_index_lt hf hp
        omega

/-- The frames of a path exist. -/
theorem get?_of_mem_path (h : j ∈ fs.path i) : ∃ f, fs.get? j = some f := by
  induction i using fs.parent_induction with
  | step i ih =>
    cases hf : fs.get? i with
    | none => simp [path_of_none hf] at h
    | some f =>
      rw [path_of_get? hf] at h
      rcases List.mem_cons.1 h with rfl | h
      · exact ⟨f, hf⟩
      · cases hp : f.parent? with
        | none => simp [hp] at h
        | some p => exact ih f p hf hp (by simpa [hp] using h)

/-- What a frame links to: its parent, and whether a call made it. -/
def link? (fs : Frames) (i : FrameId) : Option (Option FrameId × Bool) :=
  (fs.get? i).map fun f => (f.parent?, f.isFunction)

/-- Paths depend on the links only. -/
theorem path_congr (h : ∀ j ∈ fs.path i, fs'.link? j = fs.link? j) (hi : fs'.link? i = fs.link? i) :
    fs'.path i = fs.path i := by
  induction i using fs.parent_induction with
  | step i ih =>
    cases hf : fs.get? i with
    | none =>
      have hf' : fs'.get? i = none := by simpa [link?, hf] using hi
      rw [path_of_none hf, path_of_none hf']
    | some f =>
      obtain ⟨f', hf', hparent, -⟩ : ∃ f', fs'.get? i = some f' ∧ f'.parent? = f.parent? ∧ _ := by
        simpa [link?, hf] using hi
      rw [path_of_get? hf] at h
      rw [path_of_get? hf, path_of_get? hf', hparent]
      cases hp : f.parent? with
      | none => rfl
      | some p =>
        simp only [hp, Option.elim_some, List.mem_cons, forall_eq_or_imp] at h
        obtain ⟨g, hg⟩ := get?_parent hf hp
        have hmem : p ∈ fs.path p := by simp [path_of_get? hg]
        have hpath := ih f p hf hp h.2 (h.2 p hmem)
        simp [hpath]

/-! ## Nearest bindings -/

/-- From `i` on, `g` comes before all frames that bind `x`, other than itself. -/
def Reaches (fs : Frames) (x : Symbol) (i g : FrameId) : Prop :=
  ∃ nearer further, fs.path i = nearer ++ g :: further ∧ ∀ k ∈ nearer, fs.own k x = none

/-- From `i` on, `g` is the first frame that binds `x`. -/
def Nearest (fs : Frames) (x : Symbol) (i g : FrameId) : Prop :=
  fs.Reaches x i g ∧ (fs.own g x).isSome

/-- No frame from `i` on binds `x`. -/
def Unbound (fs : Frames) (x : Symbol) (i : FrameId) : Prop :=
  ∀ j ∈ fs.path i, fs.own j x = none

/-- What a look-up makes of the binding that it finds. -/
def found (x : Symbol) : Option Value → Except RuntimeError Value
  | some v => .ok v
  | none => .error (.symbolNotFound x.name)

theorem lookup_eq (fs : Frames) (i : FrameId) (x : Symbol) :
    fs.lookup i x = found x ((fs.path i).findSome? fun j => fs.own j x) := by
  fun_induction lookup fs i x with
  | case1 i h =>
    rw [path_of_none h]
    rfl
  | case2 i f h v hv =>
    rw [path_of_get? h, List.findSome?_cons, own_of_get? h, hv]
    rfl
  | case3 i f h hv hp =>
    rw [path_of_get? h, List.findSome?_cons, own_of_get? h, hv, hp]
    rfl
  | case4 i f h hv p hp ih =>
    rw [path_of_get? h, List.findSome?_cons, own_of_get? h, hv, hp]
    exact ih

theorem findSome?_own_congr {l : List FrameId} (h : ∀ j ∈ l, fs'.own j x = fs.own j x) :
    (l.findSome? fun j => fs'.own j x) = l.findSome? fun j => fs.own j x := by
  induction l with
  | nil => rfl
  | cons j l ih =>
    rw [List.findSome?_cons, List.findSome?_cons, h j List.mem_cons_self,
      ih fun k hk => h k (List.mem_cons_of_mem _ hk)]

/-- A look-up goes on behind the first frame if that does not bind the symbol. -/
theorem lookup_of_path {rest : List FrameId} (h : fs.path i = i :: rest) (x : Symbol) :
    fs.lookup i x = found x ((fs.own i x).or (rest.findSome? fun j => fs.own j x)) := by
  rw [lookup_eq, h, List.findSome?_cons]
  cases fs.own i x <;> rfl

theorem lookup_of_reaches (h : fs.Reaches x i g) (hv : fs.own g x = some v) : fs.lookup i x = .ok v := by
  obtain ⟨nearer, further, hpath, hnone⟩ := h
  have hfind : (fs.path i).findSome? (fun j => fs.own j x) = some v :=
    List.findSome?_eq_some_iff.2 ⟨nearer, g, further, hpath, hv, hnone⟩
  rw [lookup_eq, hfind]
  rfl

theorem lookup_of_unbound (h : fs.Unbound x i) : fs.lookup i x = .error (.symbolNotFound x.name) := by
  have hfind : (fs.path i).findSome? (fun j => fs.own j x) = none := List.findSome?_eq_none_iff.2 h
  rw [lookup_eq, hfind]
  rfl

/-- **A symbol means its nearest binding**, and nothing where no frame of the chain binds it. -/
theorem lookup_cases (fs : Frames) (i : FrameId) (x : Symbol) :
    (∃ g v, fs.Nearest x i g ∧ fs.own g x = some v ∧ fs.lookup i x = .ok v) ∨
      (fs.Unbound x i ∧ fs.lookup i x = .error (.symbolNotFound x.name)) := by
  cases h : (fs.path i).findSome? fun j => fs.own j x with
  | none =>
    have hnone : fs.Unbound x i := List.findSome?_eq_none_iff.1 h
    exact .inr ⟨hnone, lookup_of_unbound hnone⟩
  | some v =>
    obtain ⟨nearer, g, further, hpath, hv, hnone⟩ := List.findSome?_eq_some_iff.1 h
    have hr : fs.Reaches x i g := ⟨nearer, further, hpath, hnone⟩
    exact .inl ⟨g, v, ⟨hr, by rw [hv]; rfl⟩, hv, lookup_of_reaches hr hv⟩

theorem reaches_of_mem {nearer further : List FrameId} (hpath : fs.path i = nearer ++ further)
    (hnone : ∀ k ∈ nearer, fs.own k x = none) (hg : g ∈ nearer) : fs.Reaches x i g := by
  obtain ⟨before, behind, rfl⟩ := List.append_of_mem hg
  refine ⟨before, behind ++ further, by simpa using hpath, ?_⟩
  intro k hk
  exact hnone k (List.mem_append_left _ hk)

/-! ## Writing one binding -/

/-- `fs'` is `fs` with the binding of `x` in the frame `g` set to `v`: no other frame, no other binding and no link has
changed. -/
structure Sets (fs : Frames) (g : FrameId) (x : Symbol) (v : Value) (fs' : Frames) : Prop where
  other : ∀ j, j ≠ g → fs'.get? j = fs.get? j
  link : ∀ j, fs'.link? j = fs.link? j
  own : ∀ j y, fs'.own j y = if j = g ∧ y.same x then some v else fs.own j y

section Sets

variable (h : fs.Sets g x v fs')
include h

theorem Sets.path (i : FrameId) : fs'.path i = fs.path i :=
  path_congr (fun j _ => h.link j) (h.link i)

theorem Sets.own_of_ne (hj : j ≠ g) : fs'.own j y = fs.own j y := by
  rw [h.own, if_neg]
  intro hboth
  exact hj hboth.1

/-- Where the frame is reached before any other binding, the new value is seen. -/
theorem Sets.lookup_seen (hr : fs.Reaches x i g) (hy : y.same x) : fs'.lookup i y = .ok v := by
  obtain ⟨nearer, further, hpath, hnone⟩ := hr
  apply lookup_of_reaches (g := g)
  · refine ⟨nearer, further, by rw [h.path, hpath], ?_⟩
    intro k hk
    have hne : k ≠ g := by
      have hnodup := fs.nodup_path i
      rw [hpath, List.nodup_append] at hnodup
      exact hnodup.2.2 k hk g List.mem_cons_self
    rw [h.own_of_ne hne, own_congr fs k hy]
    exact hnone k hk
  · rw [h.own, if_pos ⟨rfl, hy⟩]

/-- Elsewhere, and for other symbols, nothing is seen of it. -/
theorem Sets.lookup_unseen (hr : ¬(y.same x ∧ fs.Reaches x i g)) : fs'.lookup i y = fs.lookup i y := by
  by_cases hy : y.same x
  · have hr : ¬fs.Reaches x i g := fun hr' => hr ⟨hy, hr'⟩
    have hown : ∀ j, fs.own j y = fs.own j x := fun j => own_congr fs j hy
    rcases fs.lookup_cases i y with ⟨z, w, ⟨⟨nearer, further, hpath, hnone⟩, -⟩, hw, hlookup⟩ | ⟨hnone, hlookup⟩
    · -- The binding that is found stands before the frame that has changed.
      simp only [hown] at hnone
      have hz : z ≠ g := by
        rintro rfl
        exact hr ⟨nearer, further, hpath, hnone⟩
      have hnearer : ∀ k ∈ nearer, k ≠ g := by
        rintro k hk rfl
        exact hr (reaches_of_mem hpath hnone hk)
      rw [hlookup]
      apply lookup_of_reaches (g := z)
      · refine ⟨nearer, further, by rw [h.path, hpath], ?_⟩
        intro k hk
        rw [h.own_of_ne (hnearer k hk), hown]
        exact hnone k hk
      · rw [h.own_of_ne hz, hw]
    · -- No binding is found, so the frame that has changed is not on the path.
      rw [hlookup]
      apply lookup_of_unbound
      intro j hj
      rw [h.path] at hj
      have hne : j ≠ g := by
        rintro rfl
        have hnone' : ∀ k ∈ fs.path i, fs.own k x = none := fun k hk => (hown k).symm.trans (hnone k hk)
        exact hr (reaches_of_mem (List.append_nil _).symm hnone' hj)
      rw [h.own_of_ne hne]
      exact hnone j hj
  · have hown : ∀ j, fs'.own j y = fs.own j y := by
      intro j
      rw [h.own, if_neg]
      exact fun hboth => hy hboth.2
    simp only [lookup_eq, h.path, hown]

end Sets

theorem get?_modify (fs : Frames) (g : FrameId) (change : Frame → Frame) (hc : ∀ f, (change f).parent? = f.parent?)
    (j : FrameId) : (fs.modify g change hc).get? j = if j = g then (fs.get? j).map change else fs.get? j := by
  have hindex : g.index = j.index ↔ j = g := by
    cases g
    cases j
    simp [eq_comm]
  have hget : (fs.frames.modify g.index change)[j.index]? =
      if g.index = j.index then fs.frames[j.index]?.map change else fs.frames[j.index]? := Array.getElem?_modify
  simp only [hindex] at hget
  exact hget

theorem link?_modify (fs : Frames) (g : FrameId) {change : Frame → Frame} (hc : ∀ f, (change f).parent? = f.parent?)
    (hk : ∀ f, (change f).isFunction = f.isFunction) (j : FrameId) :
    (fs.modify g change hc).link? j = fs.link? j := by
  rw [link?, link?, get?_modify]
  split
  · cases fs.get? j <;> simp [hc, hk]
  · rfl

theorem sets_modify (hf : fs.get? g = some f) {change : Frame → Frame} (hc : ∀ f, (change f).parent? = f.parent?)
    (hk : ∀ f, (change f).isFunction = f.isFunction)
    (hfind : ∀ y, (change f).find? y = if y.same x then some v else f.find? y) :
    fs.Sets g x v (fs.modify g change hc) where
  other := by
    intro j hj
    rw [get?_modify, if_neg hj]
  link := link?_modify fs g hc hk
  own := by
    intro j y
    rw [Frames.own, get?_modify]
    by_cases hj : j = g
    · subst hj
      simp [hf, hfind, Frames.own]
    · simp [hj, Frames.own]

theorem sets_define (hf : fs.get? g = some f) (x : Symbol) (v : Value) : fs.Sets g x v (fs.define g x v) :=
  sets_modify hf _ (fun f => f.isFunction_define x v) (fun y => f.find?_define x y v)

/-- **Assigning changes the nearest binding where it stands**, and fails where there is none. -/
theorem assign_cases (fs : Frames) (i : FrameId) (x : Symbol) (v : Value) :
    (∃ g fs', fs.Nearest x i g ∧ fs.Sets g x v fs' ∧ fs.assign i x v = .ok fs') ∨
      (fs.Unbound x i ∧ fs.assign i x v = .error (.symbolNotFound x.name)) := by
  fun_induction assign fs i x v with
  | case1 i h => exact .inr ⟨by simp [Unbound, path_of_none h], rfl⟩
  | case2 i f h hbinds =>
    have hsets : fs.Sets i x v (fs.modify i (·.rebind x v) (by simp)) :=
      sets_modify h _ (fun _ => rfl) (fun y => Frame.find?_rebind f x y v hbinds)
    have hreach : fs.Reaches x i i := ⟨[], _, path_of_get? h, by simp⟩
    exact .inl ⟨i, _, ⟨hreach, by rw [own_of_get? h]; exact hbinds⟩, hsets, rfl⟩
  | case3 i f h hbinds hp =>
    have hown : fs.own i x = none := by simpa [own_of_get? h, Frame.binds] using hbinds
    exact .inr ⟨by simp [Unbound, path_of_get? h, hp, hown], rfl⟩
  | case4 i f h hbinds p hp ih =>
    have hown : fs.own i x = none := by simpa [own_of_get? h, Frame.binds] using hbinds
    have hpath : fs.path i = i :: fs.path p := by simp [path_of_get? h, hp]
    rcases ih with ⟨g, fs', ⟨⟨nearer, further, hnearer, hnone⟩, hsome⟩, hsets, hassign⟩ | ⟨hnone, hassign⟩
    · refine .inl ⟨g, fs', ⟨⟨i :: nearer, further, by rw [hpath, hnearer]; rfl, ?_⟩, hsome⟩, hsets, hassign⟩
      intro k hk
      rcases List.mem_cons.1 hk with rfl | hk
      · exact hown
      · exact hnone k hk
    · refine .inr ⟨?_, hassign⟩
      intro j hj
      rw [hpath] at hj
      rcases List.mem_cons.1 hj with rfl | hj
      · exact hown
      · exact hnone j hj

end Frames

end Zygo
