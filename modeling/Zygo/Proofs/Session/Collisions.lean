import Zygo.Proofs.Session.Import

/-!
# Imports one after the other

Packages share the global frame, and what is imported last is what a name means. A qualified name need not tell its
package, since names may have slashes in them: `a/b/c` is the function `b/c` of the package `a` as well as the function
`c` of the package `a/b`. Two qualified names of different packages are the same only in this way (`qualified_cases`).

* `lookupGlobal_imports`: an import leaves the names of the imports before it alone, unless it has the same name itself.
-/

namespace Zygo

/-! ## Qualified names -/

/-- One qualified name of two packages: the name of one package goes on where the other ends. -/
theorem qualified_cases {p q f g : String} (h : p ++ "/" ++ f = q ++ "/" ++ g) (hne : p ≠ q) :
    (∃ m, q = p ++ "/" ++ m ∧ f = m ++ "/" ++ g) ∨ (∃ m, p = q ++ "/" ++ m ∧ g = m ++ "/" ++ f) := by
  have hchars : p.toList ++ '/' :: f.toList = q.toList ++ '/' :: g.toList := by
    simpa [← String.toList_inj] using h
  -- the part of the longer package name behind the shorter one starts with the slash
  rcases List.append_eq_append_iff.1 hchars with ⟨_ | ⟨c, m⟩, hq, hf⟩ | ⟨_ | ⟨c, m⟩, hp, hg⟩
  · rw [List.append_nil] at hq
    exact absurd (String.toList_inj.1 hq.symm) hne
  · simp only [List.cons_append, List.cons.injEq] at hf
    obtain ⟨rfl, hf⟩ := hf
    exact Or.inl ⟨String.ofList m, by simp [← String.toList_inj, hq], by simp [← String.toList_inj, hf]⟩
  · rw [List.append_nil] at hp
    exact absurd (String.toList_inj.1 hp) hne
  · simp only [List.cons_append, List.cons.injEq] at hg
    obtain ⟨rfl, hg⟩ := hg
    exact Or.inr ⟨String.ofList m, by simp [← String.toList_inj, hp], by simp [← String.toList_inj, hg]⟩

theorem Package.lookup_qualifiedExports {p : Package} {name : String} {f : FunctionId} :
    p.qualifiedExports.lookup name = some f ↔ ∃ own, name = p.qualifiedName own ∧ p.get? own = some f := by
  rw [lookup_eq_some_iff_mem p.nodup_qualifiedExports, mem_qualifiedExports]

namespace Session

variable {s : Session} {p q : String} {i j : PackageId}

/-! ## Two imports -/

theorem importPackage_of_package? (hi : s.package? p = some i) :
    s.importPackage p = (.ok i, s.bindExports (s.store.package i).qualifiedExports) := by
  simp only [importPackage, hi]

/-- Packages are the same after an import as before. -/
theorem package?_bindExports (s : Session) (exports : List (String × FunctionId)) (name : String) (id : PackageId) :
    (s.bindExports exports).package? name = s.package? name ∧
      (s.bindExports exports).store.package id = s.store.package id := by
  rw [s.bindExports_frame exports]
  exact ⟨rfl, rfl⟩

/-- What a name means after two imports: the export of the later package, else that of the earlier one, else what it
meant before. -/
theorem global?_imports (h : GlobalScope s) (hi : s.package? p = some i) (hj : s.package? q = some j) (name : String) :
    ((s.importPackage p).2.importPackage q).2.global? name =
      (((s.store.package j).qualifiedExports.lookup name).map .function).or
        ((((s.store.package i).qualifiedExports.lookup name).map .function).or (s.global? name)) := by
  have hscope : GlobalScope (s.importPackage p).2 := h.leads (s.leads_importPackage p)
  rw [importPackage_of_package? hi] at hscope ⊢
  obtain ⟨hpackage, hexports⟩ := s.package?_bindExports (s.store.package i).qualifiedExports q j
  rw [importPackage_of_package? (hpackage.trans hj), hexports, global?_qualifiedExports hscope,
    global?_qualifiedExports h]

/-- A function of the package that is imported first, under its qualified name. -/
theorem lookupGlobal_of_imports (h : GlobalScope s) (hn : Named s) (hi : s.package? p = some i)
    (hj : s.package? q = some j) {own : String} {f : FunctionId} (hf : (s.store.package i).get? own = some f) :
    (((s.importPackage p).2.importPackage q).2.lookupGlobal (p ++ "/" ++ own)).1 =
      .ok (.function (((s.store.package j).qualifiedExports.lookup (p ++ "/" ++ own)).getD f)) := by
  have hscope : GlobalScope ((s.importPackage p).2.importPackage q).2 :=
    (h.leads (s.leads_importPackage p)).leads (leads_importPackage _ q)
  have hfirst : (s.store.package i).qualifiedExports.lookup (p ++ "/" ++ own) = some f := by
    rw [Package.lookup_qualifiedExports]
    exact ⟨own, by rw [Package.qualifiedName, hn.name_eq hi], hf⟩
  rw [lookupGlobal_eq hscope, globalResult, global?_imports h hi hj, hfirst]
  cases (s.store.package j).qualifiedExports.lookup (p ++ "/" ++ own) <;> rfl

/-- **Imports of different packages overwrite each other only where their qualified names are the same.** Take any session
that a history leads to, two packages of different names in it, and a function that the first of them exports. Import the
first package and then the second.

If the second exports a function whose qualified name is that of the first function, the name means this function then.
Otherwise it still means the first one. The names can be the same only if one package name goes on with a slash where the
other ends, and the missing part begins the name of the function. -/
theorem lookupGlobal_imports (symbols : SymbolTable) (history : List Change) (h : Proper (start symbols) history)
    (hpq : p ≠ q) (hi : (after (start symbols) history).package? p = some i)
    (hj : (after (start symbols) history).package? q = some j) {own : String} {f : FunctionId}
    (hf : ((after (start symbols) history).store.package i).get? own = some f) :
    let s := after (start symbols) history
    let t := ((s.importPackage p).2.importPackage q).2
    (s.importPackage p).1 = .ok i ∧ ((s.importPackage p).2.importPackage q).1 = .ok j ∧
      ((∀ other, p ++ "/" ++ own = q ++ "/" ++ other → (s.store.package j).get? other = none) →
        (t.lookupGlobal (p ++ "/" ++ own)).1 = .ok (.function f)) ∧
      (∀ other g, p ++ "/" ++ own = q ++ "/" ++ other → (s.store.package j).get? other = some g →
        (t.lookupGlobal (p ++ "/" ++ own)).1 = .ok (.function g) ∧
          ((∃ m, q = p ++ "/" ++ m ∧ own = m ++ "/" ++ other) ∨ (∃ m, p = q ++ "/" ++ m ∧ other = m ++ "/" ++ own))) := by
  intro s t
  have hscope : GlobalScope s := (globalScope_start symbols).leads (leads_after h)
  have hnamed : Named s := named_after symbols history
  have hlookup := lookupGlobal_of_imports hscope hnamed hi hj hf
  have hlisted : ∀ g, (s.store.package j).qualifiedExports.lookup (p ++ "/" ++ own) = some g ↔
      ∃ other, p ++ "/" ++ own = q ++ "/" ++ other ∧ (s.store.package j).get? other = some g := by
    intro g
    rw [Package.lookup_qualifiedExports, ← hnamed.name_eq hj]
    rfl
  refine ⟨by rw [importPackage_of_package? hi], ?_, fun hnone => ?_, fun other g heq hg => ⟨?_, qualified_cases heq hpq⟩⟩
  · rw [importPackage_of_package? hi]
    rw [importPackage_of_package? ((package?_bindExports s _ q j).1.trans hj)]
  · have hunlisted : (s.store.package j).qualifiedExports.lookup (p ++ "/" ++ own) = none := by
      cases hg : (s.store.package j).qualifiedExports.lookup (p ++ "/" ++ own) with
      | none => rfl
      | some g =>
        obtain ⟨other, heq, hget⟩ := (hlisted g).1 hg
        rw [hnone other heq] at hget
        cases hget
    rw [hlookup, hunlisted, Option.getD_none]
  · rw [hlookup, (hlisted g).2 ⟨other, heq, hg⟩, Option.getD_some]

/-- Two packages, `a` with a function `b/c` and `a/b` with a function `c`. -/
def slashes : List Change :=
  [.exportFrom ⟨1⟩ ⟨1⟩, .exportFrom ⟨0⟩ ⟨0⟩, .addFunction (.ofHost "c" 0 true .nothing),
    .addFunction (.ofHost "b/c" 0 true .nothing), .register ⟨1⟩, .addPackage "a/b", .register ⟨0⟩, .addPackage "a"]

theorem proper_slashes (symbols : SymbolTable) : Proper (start symbols) slashes := by
  simp [slashes, Proper, Change.Fits]

/-- The package `a`, imported last, gives `a/b/c` another meaning. -/
theorem lookupGlobal_imports_slashes :
    let s := after (start .initial) slashes
    Proper (start .initial) slashes ∧ "a/b" ≠ "a" ∧ s.package? "a/b" = some ⟨1⟩ ∧ s.package? "a" = some ⟨0⟩ ∧
      (s.store.package ⟨1⟩).get? "c" = some ⟨1⟩ ∧
      (((s.importPackage "a/b").2.importPackage "a").2.lookupGlobal ("a/b" ++ "/" ++ "c")).1 = .ok (.function ⟨0⟩) := by
  intro s
  have hproper := proper_slashes .initial
  have hne : "a/b" ≠ "a" := by decide
  have hfirst : s.package? "a/b" = some ⟨1⟩ := rfl
  have hsecond : s.package? "a" = some ⟨0⟩ := rfl
  have hf : (s.store.package ⟨1⟩).get? "c" = some ⟨1⟩ := rfl
  obtain ⟨-, -, -, hcollision⟩ := lookupGlobal_imports .initial slashes hproper hne hfirst hsecond hf
  exact ⟨hproper, hne, hfirst, hsecond, hf, (hcollision "b/c" ⟨0⟩ rfl rfl).1⟩

/-- **An import can take a name away from a package of another name.** -/
theorem not_lookupGlobal_imports_all : ¬ ∀ (symbols : SymbolTable) (history : List Change) (p q : String)
    (i j : PackageId) (own : String) (f : FunctionId),
    let s := after (start symbols) history
    Proper (start symbols) history → p ≠ q → s.package? p = some i → s.package? q = some j →
      (s.store.package i).get? own = some f →
      (((s.importPackage p).2.importPackage q).2.lookupGlobal (p ++ "/" ++ own)).1 = .ok (.function f) := by
  intro h
  have hproper := proper_slashes .initial
  have hscope : GlobalScope (after (start .initial) slashes) := (globalScope_start _).leads (leads_after hproper)
  have hfirst : (after (start .initial) slashes).package? "a" = some ⟨0⟩ := rfl
  have hsecond : (after (start .initial) slashes).package? "a/b" = some ⟨1⟩ := rfl
  have hf : ((after (start .initial) slashes).store.package ⟨0⟩).get? "b/c" = some ⟨0⟩ := rfl
  have hlater : ((after (start .initial) slashes).store.package ⟨1⟩).qualifiedExports.lookup ("a" ++ "/" ++ "b/c") =
      some ⟨1⟩ := Package.lookup_qualifiedExports.2 ⟨"c", rfl, rfl⟩
  have hkept := h .initial slashes "a" "a/b" ⟨0⟩ ⟨1⟩ "b/c" ⟨0⟩ hproper (by decide) hfirst hsecond hf
  rw [lookupGlobal_of_imports hscope (named_after _ _) hfirst hsecond hf, hlater] at hkept
  cases hkept

end Session

end Zygo
