import Mathlib.Data.List.Nodup
import Zygo.Proofs.Session.Globals

/-!
# Exports and imports

Importing a package binds its exports globally under their qualified names, and nothing else. What a package exports is
read off the history of the session: for each name the function of that name that was exported last (`exported`).

* `lookupGlobal_importPackage`: what every global name means after an import, in every session that a history leads to.
-/

namespace Zygo

/-! ## Exports of a package -/

/-- Where no key comes twice, looking up gives the entry of the key. -/
theorem lookup_eq_some_iff_mem {α : Type} {entries : List (String × α)} (h : (entries.map Prod.fst).Nodup) {key : String}
    {a : α} : entries.lookup key = some a ↔ (key, a) ∈ entries := by
  induction entries generalizing a with
  | nil => simp
  | cons e entries ih =>
    rw [List.map_cons, List.nodup_cons] at h
    rw [List.lookup_cons, List.mem_cons, ← ih h.2]
    by_cases hkey : key = e.1
    · have hnone : ∀ b, entries.lookup key ≠ some b := by
        intro b hb
        rw [ih h.2, hkey] at hb
        exact h.1 (List.mem_map.2 ⟨(e.1, b), hb, rfl⟩)
      simp [hkey, Prod.ext_iff, eq_comm, hkey ▸ hnone]
    · simp [Prod.ext_iff, beq_eq_false_iff_ne.2 hkey, hkey]

namespace Package

theorem get?_add (p : Package) (name : String) (f : FunctionId) (other : String) :
    (p.add name f).get? other = if other = name then some f else p.get? other := by
  rw [Option.ext_iff]
  intro g
  rw [get?, lookup_eq_some_iff_mem (p.add name f).nodup, add, List.mem_append, List.mem_filter,
    ← lookup_eq_some_iff_mem p.nodup, ← get?]
  split
  · rename_i h
    simp [h, eq_comm]
  · rename_i h
    simp [h]

theorem qualifiedName_injective (p : Package) : Function.Injective p.qualifiedName := by
  intro a b h
  simpa [qualifiedName, ← String.toList_inj] using h

/-- The exports that are listed are the exports, each under its qualified name. -/
theorem mem_qualifiedExports {p : Package} {name : String} {f : FunctionId} :
    (name, f) ∈ p.qualifiedExports ↔ ∃ own, name = p.qualifiedName own ∧ p.get? own = some f := by
  simp only [get?, lookup_eq_some_iff_mem p.nodup, qualifiedExports, List.mem_map, sorted, List.mem_mergeSort,
    Prod.ext_iff, Prod.exists]
  constructor
  · rintro ⟨own, g, hmem, rfl, rfl⟩
    exact ⟨own, rfl, hmem⟩
  · rintro ⟨own, rfl, hmem⟩
    exact ⟨own, f, hmem, rfl, rfl⟩

theorem nodup_qualifiedExports (p : Package) : (p.qualifiedExports.map Prod.fst).Nodup := by
  have hnames : p.qualifiedExports.map Prod.fst = (p.sorted.map Prod.fst).map p.qualifiedName := by
    simp [qualifiedExports, Function.comp_def]
  have hperm : (p.sorted.map Prod.fst).Perm (p.exports.map Prod.fst) := (List.mergeSort_perm _ _).map _
  rw [hnames]
  exact (hperm.nodup_iff.2 p.nodup).map p.qualifiedName_injective

end Package

namespace Session

variable {s : Session} {c : Change}

/-! ## Packages of a session -/

/-- The session at its beginning, on a table that may have been in use before. -/
def start (symbols : SymbolTable) : Session :=
  { initial with symbols }

theorem globalScope_start (symbols : SymbolTable) : GlobalScope (start symbols) where
  link := rfl
  bound := by
    intro x v hx
    cases hx

/-- Packages are registered under their own names. -/
def Named (s : Session) : Prop :=
  ∀ e ∈ s.packages, e.2.index < s.store.packages.size ∧ (s.store.package e.2).name = e.1

/-- Making a package leaves the others as they are. -/
theorem package_addPackage (store : Store) (p : Package) (id : PackageId) :
    (store.addPackage p).2.package id = if id.index = store.packages.size then p else store.package id := by
  simp only [Store.addPackage, Store.package, Array.getElem?_push]
  split <;> rfl

/-- An export changes the package, if it exists, and no other. -/
theorem package_exportFrom (store : Store) (p : PackageId) (f : FunctionId) (id : PackageId) :
    (store.exportFrom p f).package id =
      if id = p ∧ p.index < store.packages.size then (store.package p).add (store.function f).name f
      else store.package id := by
  obtain ⟨i⟩ := id
  obtain ⟨j⟩ := p
  simp only [Store.exportFrom, Store.setPackage, Store.package, Array.getElem?_setIfInBounds, PackageId.mk.injEq]
  by_cases hij : i = j
  · subst hij
    by_cases hlt : i < store.packages.size <;> simp [hlt]
  · simp [hij, Ne.symm hij]

/-- Every change keeps packages under their names. -/
theorem Named.apply (h : Named s) (c : Change) : Named (s.apply c) := by
  cases c with
  | addPackage name =>
    intro e he
    obtain ⟨hlt, hname⟩ := h e he
    simp only [Session.apply, package_addPackage]
    rw [if_neg (by omega)]
    refine ⟨?_, hname⟩
    simp only [Store.addPackage, Array.size_push]
    omega
  | exportFrom p f =>
    intro e he
    obtain ⟨hlt, hname⟩ := h e he
    refine ⟨by simpa [Session.apply, Store.exportFrom, Store.setPackage] using hlt, ?_⟩
    simp only [Session.apply, package_exportFrom]
    split
    · rename_i hp
      rw [← hp.1]
      exact hname
    · exact hname
  | register p =>
    simp only [Session.apply]
    split
    · rename_i hlt
      intro e he
      rcases List.mem_append.1 he with he | he
      · exact h e (List.mem_filter.1 he).1
      · obtain rfl := List.mem_singleton.1 he
        exact ⟨hlt, rfl⟩
    · exact h
  | assign i x v =>
    obtain ⟨frames, happly⟩ := s.exists_apply_assign i x v
    rw [happly]
    exact h
  | _ => exact h

/-- A registered package exists and has the name that it is registered under. -/
theorem Named.name_eq {name : String} {id : PackageId} (h : Named s) (hid : s.package? name = some id) :
    (s.store.package id).name = name := by
  obtain ⟨before, behind, hmem, -⟩ := List.lookup_eq_some_iff.1 hid
  exact (h (name, id) (by simp [hmem])).2

/-! ## The last exports -/

/-- The function that a history has last exported from a package under a name, which is the function's own name. There is
nothing to export from a package that does not exist. -/
def exported (symbols : SymbolTable) : List Change → PackageId → String → Option FunctionId
  | [], _, _ => none
  | .exportFrom p f :: past, id, name =>
    let now := after (start symbols) past
    if id = p ∧ p.index < now.store.packages.size ∧ name = (now.store.function f).name then some f
    else exported symbols past id name
  | _ :: past, id, name => exported symbols past id name

/-- **A package exports what was exported from it last, name by name.** -/
theorem get?_package_after (symbols : SymbolTable) (history : List Change) (id : PackageId) (name : String) :
    ((after (start symbols) history).store.package id).get? name = exported symbols history id name := by
  induction history with
  | nil => rfl
  | cons c past ih =>
    rw [after]
    cases c with
    | exportFrom p f =>
      simp only [apply, package_exportFrom, exported, ← ih]
      split
      · rename_i hp
        rw [Package.get?_add]
        simp [hp]
      · rename_i hp
        rw [if_neg]
        exact fun h => hp ⟨h.1, h.2.1⟩
    | addPackage other =>
      refine Eq.trans ?_ ih
      simp only [apply, package_addPackage]
      split
      · rename_i hid
        rw [Store.package, hid, Array.getElem?_eq_none (Nat.le_refl _)]
        rfl
      · rfl
    | assign i x v =>
      obtain ⟨frames, happly⟩ := (after (start symbols) past).exists_apply_assign i x v
      rw [happly]
      exact ih
    | register p =>
      obtain ⟨packages, happly⟩ := (after (start symbols) past).exists_apply_register p
      rw [happly]
      exact ih
    | _ => exact ih

/-! ## Imports -/

theorem leads_after {symbols : SymbolTable} {history : List Change} (h : Proper (start symbols) history) :
    Leads (start symbols) (after (start symbols) history) :=
  ⟨history, h, rfl⟩

theorem named_after (symbols : SymbolTable) (history : List Change) : Named (after (start symbols) history) := by
  induction history with
  | nil =>
    intro e he
    cases he
  | cons c past ih => exact ih.apply c

/-- What a name means after the exports of a package have been bound. -/
theorem global?_qualifiedExports (h : GlobalScope s) (p : Package) (name : String) :
    (s.bindExports p.qualifiedExports).global? name =
      ((p.qualifiedExports.lookup name).map .function).or (s.global? name) :=
  global?_bindExports h p.nodup_qualifiedExports name

/-- **Importing binds exactly the qualified exports.** Take any session that a history leads to, and any name.

If no package is registered under the name, the import fails and the session is as it was.

Otherwise it gives the package. Then every export is what its qualified name means, every other name, qualified or not,
means what it meant before, and nothing has changed but the symbols and the frames: the packages, their exports and the
types are as they were. What the package exports under a name is the function of that name that was exported last. -/
theorem lookupGlobal_importPackage (symbols : SymbolTable) (history : List Change)
    (h : Proper (start symbols) history) (name : String) :
    let s := after (start symbols) history
    match s.package? name with
    | none => s.importPackage name = (.error (.unknownPackage name), s)
    | some id =>
      let u := (s.importPackage name).2
      (s.importPackage name).1 = .ok id ∧
        (∀ own f, (s.store.package id).get? own = some f →
          (u.lookupGlobal (name ++ "/" ++ own)).1 = .ok (.function f)) ∧
        (∀ other, (∀ own, other = name ++ "/" ++ own → (s.store.package id).get? own = none) →
          (u.lookupGlobal other).1 = (s.lookupGlobal other).1) ∧
        u = { s with symbols := u.symbols, store := { s.store with frames := u.store.frames } } ∧
        ∀ own, (s.store.package id).get? own = exported symbols history id own := by
  intro s
  have hscope : GlobalScope s := (globalScope_start symbols).leads (leads_after h)
  cases hid : s.package? name with
  | none => simp only [importPackage, hid]
  | some id =>
    have himport : s.importPackage name = (.ok id, s.bindExports (s.store.package id).qualifiedExports) := by
      simp only [importPackage, hid]
    have hname : (s.store.package id).name = name := (named_after symbols history).name_eq hid
    have hscope' : GlobalScope (s.importPackage name).2 := hscope.leads (s.leads_importPackage name)
    have hlisted : ∀ g f, (s.store.package id).qualifiedExports.lookup g = some f ↔
        ∃ own, g = name ++ "/" ++ own ∧ (s.store.package id).get? own = some f := by
      intro g f
      rw [lookup_eq_some_iff_mem (Package.nodup_qualifiedExports _), Package.mem_qualifiedExports,
        ← hname]
      rfl
    refine ⟨by rw [himport], fun own f hf => ?_, fun other hother => ?_, ?_, fun own => ?_⟩
    · have hbound := (hlisted _ f).2 ⟨own, rfl, hf⟩
      rw [lookupGlobal_eq hscope', globalResult, himport, global?_qualifiedExports hscope, hbound]
      rfl
    · have hunlisted : (s.store.package id).qualifiedExports.lookup other = none := by
        cases hf : (s.store.package id).qualifiedExports.lookup other with
        | none => rfl
        | some f =>
          obtain ⟨own, heq, hget⟩ := (hlisted other f).1 hf
          rw [hother own heq] at hget
          cases hget
      rw [lookupGlobal_eq hscope', lookupGlobal_eq hscope, globalResult, himport, global?_qualifiedExports hscope,
        hunlisted]
      rfl
    · rw [himport]
      exact s.bindExports_frame _
    · exact get?_package_after symbols history id own

/-- A package that exports one name twice is imported: the later function is bound, and a global of the same name, without
the package, stays as it is. -/
theorem lookupGlobal_importPackage_twice :
    let f := Function.ofHost "f" 0 true .nothing
    let x : Symbol := ⟨4, "f", false⟩
    let history : List Change := [.define ⟨0⟩ x (.int 7), .intern "f", .exportFrom ⟨0⟩ ⟨1⟩, .exportFrom ⟨0⟩ ⟨0⟩,
      .addFunction f, .addFunction f, .register ⟨0⟩, .addPackage "p"]
    let s := after (start .initial) history
    Proper (start .initial) history ∧ s.package? "p" = some ⟨0⟩ ∧
      ((s.importPackage "p").2.lookupGlobal "p/f").1 = .ok (.function ⟨1⟩) ∧
      ((s.importPackage "p").2.lookupGlobal "f").1 = .ok (.int 7) ∧
      s.importPackage "q" = (.error (.unknownPackage "q"), s) := by
  intro f x history s
  have hproper : Proper (start .initial) history := by
    simp only [history, Proper, Change.Fits, and_true, true_and]
    rfl
  have hscope : GlobalScope s := (globalScope_start .initial).leads (leads_after hproper)
  have hp : (after (start .initial) history).package? "p" = some ⟨0⟩ := rfl
  have hq : (after (start .initial) history).package? "q" = none := rfl
  have himportp := lookupGlobal_importPackage .initial history hproper "p"
  have himportq := lookupGlobal_importPackage .initial history hproper "q"
  simp only [hp] at himportp
  simp only [hq] at himportq
  obtain ⟨-, hbound, hothers, -, -⟩ := himportp
  refine ⟨hproper, hp, hbound "f" ⟨1⟩ rfl, ?_, himportq⟩
  rw [hothers "f", lookupGlobal_eq hscope]
  · rfl
  · intro own heq
    have htext := congrArg String.toList heq
    simp at htext

end Session

end Zygo
