import Zygo.Proofs.Scope.Sharing
import Zygo.Proofs.Session.Changes

/-!
# Global names

The global frame has no parent and binds symbols of the session's table only, whatever is done with the session
(`GlobalScope`). So what a text means as a global name can be read off the frame (`Session.global?`): looking a name up
gives it (`lookupGlobal_eq`), and binding a name changes it for this name and no other (`global?_addGlobal`).
-/

namespace Zygo

namespace Frames

/-- Defining shows where it is done, if the frame exists, and nowhere else. -/
theorem own_define (fs : Frames) (i j : FrameId) (x y : Symbol) (v : Value) :
    (fs.define i x v).own j y = if (fs.get? i).isSome ∧ j = i ∧ y.same x then some v else fs.own j y := by
  cases hi : fs.get? i with
  | some f =>
    rw [(sets_define hi x v).own]
    simp
  | none =>
    have hget : (fs.define i x v).get? j = fs.get? j := by
      rw [define, get?_modify]
      split
      · simp_all
      · rfl
    rw [own, hget]
    simp [own]

end Frames

namespace Session

variable {s t : Session} {c : Change}

/-! ## The global frame -/

/-- The global frame exists, has no parent, and binds symbols of the table only. -/
structure GlobalScope (s : Session) : Prop where
  link : s.store.frames.link? s.globals = some (none, false)
  bound : ∀ x v, s.store.frames.own s.globals x = some v → x.id < s.symbols.size

theorem GlobalScope.get? (h : GlobalScope s) : ∃ f, s.store.frames.get? s.globals = some f ∧ f.parent? = none := by
  obtain ⟨f, hf, hlink⟩ := Option.map_eq_some_iff.1 h.link
  exact ⟨f, hf, congrArg Prod.fst hlink⟩

/-- Every change keeps the global frame as it should be. -/
theorem GlobalScope.apply (h : GlobalScope s) (hc : c.Fits s) : GlobalScope (s.apply c) := by
  obtain ⟨f, hf, -⟩ := h.get?
  cases c with
  | intern text => exact ⟨h.link, fun x v hx => Nat.lt_of_lt_of_le (h.bound x v hx) (s.symbols.size_le_intern text)⟩
  | define i x v =>
    refine ⟨(s.store.frames.link?_modify i (by simp) (fun f => f.isFunction_define x v) _).trans h.link, ?_⟩
    intro y w hy
    simp only [Session.apply, Store.define, Frames.own_define] at hy
    split at hy
    · rename_i hboth
      rw [Symbol.same_iff.1 hboth.2.2]
      exact SymbolTable.Numbers.lt_size hc
    · exact h.bound y w hy
  | assign i x v =>
    rcases s.store.assign_cases i x v with ⟨g, fs, hnearest, hsets, hok⟩ | ⟨-, herror⟩
    · simp only [Session.apply, hok]
      refine ⟨(hsets.link _).trans h.link, ?_⟩
      intro y w hy
      have hsome := Store.own_isSome_of_sets hsets hnearest.2 s.globals y
      rw [hy] at hsome
      obtain ⟨w', hw'⟩ := Option.isSome_iff_exists.1 hsome.symm
      exact h.bound y w' hw'
    · simpa only [Session.apply, herror] using h
  | addFrame g =>
    have hget : (s.store.addFrame g).2.frames.get? s.globals = s.store.frames.get? s.globals :=
      (Store.get?_addFrame hf g).trans hf.symm
    refine ⟨?_, fun x v hx => h.bound x v ?_⟩
    · rw [← h.link, Frames.link?, Frames.link?, ← hget]
      rfl
    · rw [← hx, Frames.own, Frames.own, ← hget]
      rfl
  | register p =>
    simp only [Session.apply]
    split
    · exact ⟨h.link, h.bound⟩
    · exact h
  | _ => exact ⟨h.link, h.bound⟩

theorem GlobalScope.leads (h : GlobalScope s) (hst : Leads s t) : GlobalScope t :=
  hst.invariant (fun _ _ hc hs => GlobalScope.apply hs hc) h

/-! ## Names -/

/-- What a text means as a global name. -/
def global? (s : Session) (name : String) : Option Value :=
  (s.symbols.ids.lookup name).bind fun id => s.store.frames.own s.globals ⟨id, name, false⟩

/-- What looking a global name up gives. -/
def globalResult (s : Session) (name : String) : Except RuntimeError Value :=
  match s.global? name with
  | some v => .ok v
  | none => .error (.symbolNotFound name)

/-- Looking a global name up gives what the global frame binds to it. -/
theorem lookupGlobal_eq (h : GlobalScope s) (name : String) : (s.lookupGlobal name).1 = s.globalResult name := by
  obtain ⟨f, hf, hparent⟩ := h.get?
  have hpath : s.store.frames.path s.globals = s.globals :: [] := by
    rw [Frames.path_of_get? hf, hparent]
    rfl
  have hnum := s.symbols.numbers_intern name
  have hlookup : (s.lookupGlobal name).1 = s.store.frames.lookup s.globals ⟨(s.symbols.intern name).1, name, false⟩ := by
    simp only [lookupGlobal, intern, SymbolTable.makeSymbol, hnum.lookup]
  rw [hlookup, Frames.lookup_of_path hpath, globalResult, global?]
  cases hid : s.symbols.ids.lookup name with
  | some id =>
    have hid' : s.symbols.Numbers name id := hid
    rw [hid'.intern_eq, Option.bind_some]
    cases s.store.frames.own s.globals ⟨id, name, false⟩ <;> rfl
  | none =>
    have hown : s.store.frames.own s.globals ⟨s.symbols.size, name, false⟩ = none := by
      cases hv : s.store.frames.own s.globals ⟨s.symbols.size, name, false⟩ with
      | none => rfl
      | some v => exact absurd (h.bound _ v hv) (Nat.lt_irrefl _)
    rw [SymbolTable.intern_eq_push hid, hown]
    rfl

/-- **Binding a global name changes what it means, and no other name.** -/
theorem global?_addGlobal (h : GlobalScope s) (name other : String) (v : Value) :
    (s.addGlobal name v).global? other = if other = name then some v else s.global? other := by
  obtain ⟨f, hf, -⟩ := h.get?
  have hnum := s.symbols.numbers_intern name
  have heq : (s.addGlobal name v).global? other = ((s.symbols.intern name).2.ids.lookup other).bind fun id =>
      (s.store.frames.define s.globals ⟨(s.symbols.intern name).1, name, false⟩ v).own s.globals ⟨id, other, false⟩ := by
    simp only [global?, addGlobal, intern, SymbolTable.makeSymbol, hnum.lookup]
    rfl
  rw [heq]
  split
  · rename_i hname
    subst hname
    have hid : (s.symbols.intern other).2.ids.lookup other = some (s.symbols.intern other).1 := hnum
    rw [hid, Option.bind_some, Frames.own_define, if_pos ⟨by rw [hf]; rfl, rfl, Symbol.same_iff.2 rfl⟩]
  · rename_i hne
    cases hid : (s.symbols.intern name).2.ids.lookup other with
    | none =>
      have hold : s.symbols.ids.lookup other = none := by
        cases hold : s.symbols.ids.lookup other with
        | none => rfl
        | some id =>
          have hkept : (s.symbols.intern name).2.ids.lookup other = some id := SymbolTable.Numbers.intern hold name
          rw [hid] at hkept
          cases hkept
      rw [global?, hold]
      rfl
    | some id =>
      have hid : (s.symbols.intern name).2.Numbers other id := hid
      have hold : s.symbols.ids.lookup other = some id := SymbolTable.numbers_of_intern hid hne
      rw [global?, hold, Option.bind_some, Option.bind_some, Frames.own_define, if_neg]
      rintro ⟨-, -, hsame⟩
      obtain rfl : id = (s.symbols.intern name).1 := Symbol.same_iff.1 hsame
      exact hne (hid.text_eq hnum)

/-- Binding functions under names, one after the other: each name that is listed means its function then. -/
theorem global?_bindExports {exports : List (String × FunctionId)} (h : GlobalScope s)
    (hn : (exports.map Prod.fst).Nodup) (name : String) :
    (s.bindExports exports).global? name = ((exports.lookup name).map .function).or (s.global? name) := by
  induction exports generalizing s with
  | nil => rfl
  | cons e exports ih =>
    rw [List.map_cons, List.nodup_cons] at hn
    have hadd := h.leads (s.leads_addGlobal e.1 (.function e.2))
    rw [bindExports, ih hadd hn.2, global?_addGlobal h, List.lookup_cons]
    by_cases hname : name = e.1
    · have hnone : exports.lookup name = none := by
        rw [List.lookup_eq_none_iff]
        intro e' he'
        rw [hname, bne_iff_ne]
        rintro heq
        exact hn.1 (heq ▸ List.mem_map_of_mem he')
      simp [hname, hname ▸ hnone]
    · simp [hname, beq_eq_false_iff_ne.2 hname]

/-- Binding functions changes nothing but the symbols and the frames. -/
theorem bindExports_frame (s : Session) (exports : List (String × FunctionId)) :
    let u := s.bindExports exports
    u = { s with symbols := u.symbols, store := { s.store with frames := u.store.frames } } := by
  induction exports generalizing s with
  | nil => rfl
  | cons e exports ih => exact ih (s.addGlobal e.1 (.function e.2))

end Session

end Zygo
