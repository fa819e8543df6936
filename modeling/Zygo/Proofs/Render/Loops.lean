import Mathlib.Data.List.Perm.Subperm
import Mathlib.Logic.Relation
import Zygo.Proofs.Render.Shown

/-!
# Rendering without end

An object shows others, these show further ones, and so on (`Store.Shows`, `Store.Reaches`). Rendering follows this from
object to object and knows of no other end than an object that shows nothing. So a text that is there rules out that
rendering has met an object that reaches itself, by induction on how the texts have come about. And where it meets none,
it visits no object twice on its way, of which there are no more than the store holds.

* `isSome_textOf?_iff`: an object has a text if neither it nor anything that it reaches reaches itself, and only then.
* `exists_render?_iff`: a value has a text if nothing in it reaches itself, and only then.
-/

namespace Zygo.Store

open Relation (TransGen ReflTransGen)

variable {s : Store} {o p : Shown}

/-! ## Objects that reach others -/

/-- An object shows another one. -/
def Shows (s : Store) (o p : Shown) : Prop :=
  p ∈ s.shownBy o

/-- An object shows another one, or an object that reaches it. -/
def Reaches (s : Store) : Shown → Shown → Prop :=
  TransGen s.Shows

/-- An object shows a function or a package. -/
def ShowsNoRecord (s : Store) (o p : Shown) : Prop :=
  s.Shows o p ∧ ∀ r, p ≠ .record r

/-- The way to an object either passes by all records, or leads through one. -/
theorem Reaches.cases (h : s.Reaches o p) :
    TransGen s.ShowsNoRecord o p ∨ ∃ r, s.Reaches o (.record r) ∧ ReflTransGen s.Shows (.record r) p := by
  induction h with
  | @single p hp =>
    cases p with
    | record r => exact .inr ⟨r, .single hp, .refl⟩
    | function | package => exact .inl (.single ⟨hp, by simp⟩)
  | @tail p q hop hpq ih =>
    rcases ih with hpast | ⟨r, hor, hrp⟩
    · cases q with
      | record r => exact .inr ⟨r, hop.tail hpq, .refl⟩
      | function | package => exact .inl (hpast.tail ⟨hpq, by simp⟩)
    · exact .inr ⟨r, hor, hrp.tail hpq⟩

/-- If no record reaches itself, nothing does, but for functions and packages among themselves. -/
theorem not_reaches_self (hrecords : ∀ r, ¬s.Reaches (.record r) (.record r))
    (hothers : ∀ o, ¬TransGen s.ShowsNoRecord o o) (o : Shown) : ¬s.Reaches o o := by
  intro h
  rcases h.cases with hpast | ⟨r, hor, hro⟩
  · exact hothers o hpast
  · exact hrecords r (TransGen.trans_right hro hor)

/-! ## What a text rules out -/

/-- An object with a text has met no object that reaches itself. -/
theorem not_reaches_self_of_textOf? {text : String} (h : s.textOf? o = some text) :
    ∀ p, ReflTransGen s.Shows o p → ¬s.Reaches p p := by
  refine textOf?.partial_correctness s (fun o _ => ∀ p, ReflTransGen s.Shows o p → ¬s.Reaches p p) ?_ o text h
  -- The texts that are known so far have met no such object, and this one is put together from them.
  intro known hknown o text ho p hop hself
  have hshown : ∀ q, s.Shows o q → ∀ p, ReflTransGen s.Shows q p → ¬s.Reaches p p := by
    intro q hq
    obtain ⟨t, ht⟩ := Option.isSome_iff_exists.1 ((s.isSome_renderObject o).1 (Option.isSome_of_mem ho) q hq)
    exact hknown q t ht
  rcases hop.cases_head with rfl | ⟨q, hq, hqp⟩
  · obtain ⟨q, hq, hqo⟩ := TransGen.head'_iff.1 hself
    exact hshown q hq o hqo hself
  · exact hshown q hq p hqp hself

/-! ## Objects of a store -/

/-- All objects that the store holds. -/
def objects (s : Store) : List Shown :=
  ((List.range s.functions.size).map fun i => .function ⟨i⟩) ++
    ((List.range s.records.size).map fun i => .record ⟨i⟩) ++ ((List.range s.packages.size).map fun i => .package ⟨i⟩)

/-- An object that the store does not hold shows nothing. -/
theorem shownBy_of_not_mem (h : o ∉ s.objects) : s.shownBy o = [] := by
  obtain ⟨⟨i⟩⟩ | ⟨⟨i⟩⟩ | ⟨⟨i⟩⟩ := o
  all_goals
    have hi := by simpa [objects] using h
    simp [shownBy, function, record, package, hi, Function.ofHost, Record.shownEntries, Record.entries, Package.sorted]

theorem Shows.mem_objects (h : s.Shows o p) : o ∈ s.objects := by
  refine Decidable.by_contra fun ho => ?_
  rw [Shows, shownBy_of_not_mem ho] at h
  cases h

/-! ## What is not ruled out -/

/-- An object has a text if rendering meets no object that reaches itself. It has come there through different objects of
the store, and as many as it still may come through would be one too many. -/
theorem isSome_textOf?_of_way (left : Nat) (way : List Shown) (hloops : ∀ p, ReflTransGen s.Shows o p → ¬s.Reaches p p)
    (hway : ∀ p ∈ way, s.Reaches p o) (hheld : way ⊆ s.objects) (hnodup : way.Nodup)
    (hleft : left + way.length = s.objects.length + 1) : (s.textOf? o).isSome := by
  induction left generalizing o way with
  | zero =>
    have hle : way.length ≤ s.objects.length := (List.subperm_of_subset hnodup hheld).length_le
    omega
  | succ left ih =>
    refine (s.isSome_textOf? o).2 fun p (hp : s.Shows o p) => ?_
    have hway' : ∀ q ∈ o :: way, s.Reaches q p :=
      List.forall_mem_cons.2 ⟨.single hp, fun q hq => (hway q hq).tail hp⟩
    -- An object that rendering comes to again would reach itself.
    have hnodup' : (o :: way).Nodup := List.nodup_cons.2 ⟨fun hmem => hloops o .refl (hway o hmem), hnodup⟩
    exact ih (o :: way) (fun q hq => hloops q (hq.head hp)) hway' (List.cons_subset.2 ⟨hp.mem_objects, hheld⟩) hnodup'
      (by rw [List.length_cons]; omega)

/-- **An object has a text if neither it nor anything that it reaches reaches itself**, and only then. -/
theorem isSome_textOf?_iff : (s.textOf? o).isSome ↔ ∀ p, ReflTransGen s.Shows o p → ¬s.Reaches p p := by
  constructor
  · intro h
    obtain ⟨text, htext⟩ := Option.isSome_iff_exists.1 h
    exact not_reaches_self_of_textOf? htext
  · intro hloops
    exact isSome_textOf?_of_way (s.objects.length + 1) [] hloops (by simp) (List.nil_subset _) List.nodup_nil rfl

/-- An object is in a value: it is shown by the value, or an object that is reaches it. -/
def ShownIn (s : Store) (o : Shown) (v : Value) : Prop :=
  ∃ p ∈ v.shown, ReflTransGen s.Shows p o

/-- A value has a text if nothing in it reaches itself, and only then. -/
theorem exists_render?_iff {v : Value} : (∃ text, s.render? v = some text) ↔ ∀ o, s.ShownIn o v → ¬s.Reaches o o := by
  rw [← Option.isSome_iff_exists, isSome_render?]
  simp only [isSome_textOf?_iff, ShownIn]
  constructor
  · rintro h o ⟨p, hp, hpo⟩
    exact h p hp o hpo
  · intro h p hp o hpo
    exact h o ⟨p, hp, hpo⟩

theorem shownIn_record {r : RecordId} : s.ShownIn o (.record r) ↔ ReflTransGen s.Shows (.record r) o := by
  simp [ShownIn, Value.shown]

end Zygo.Store
