import Mathlib.Data.List.Basic
import Zygo.Store.Render

/-!
# What texts show

The text of a value is put together from the texts of the objects in it (`Value.shown`), and the text of an object from
those of the objects that it shows: a function those of its form, a record those of its keys and values with the links
left out, a package its functions (`Store.shownBy`). Nothing else is asked for, so a text is there just when all these
are.

* `isSome_render?`: a value has a text if all objects that it shows have one, and only then.
* `isSome_textOf?`: so has an object.
-/

namespace Zygo

/-! ## Values -/

namespace Value

mutual

/-- The objects that a value shows, in order. -/
def shown : Value → List Shown
  | pair _ first rest => first.shown ++ rest.shown
  | array items => shownAll items
  | function id => [.function id]
  | record id => [.record id]
  | package id => [.package id]
  | _ => []

/-- The objects that values show, in order. -/
def shownAll : List Value → List Shown
  | [] => []
  | v :: vs => v.shown ++ shownAll vs

end

variable {object : Shown → Option String}

mutual

/-- A value has a text if all objects that it shows have one, and only then. -/
theorem isSome_writeWith : ∀ (v : Value) (out : String) (tail : Bool),
    (v.writeWith object out tail).isSome ↔ ∀ o ∈ v.shown, (object o).isSome
  | pair _ first rest, out, tail => by
    have hfirst := isSome_writeWith first (out ++ if tail then " " else "(") false
    simp only [writeWith, shown, List.forall_mem_append, ← hfirst]
    split
    · rename_i h
      simp [h, isSome_writeWith rest]
    · rename_i h
      simp [h]
  | array [], out, tail => by simp [writeWith, shown, shownAll]
  | array (first :: items), out, tail => by
    have hfirst := isSome_writeWith first (openTail tail out ++ "[") false
    simp only [writeWith, shown, shownAll, List.forall_mem_append, ← hfirst]
    split
    · rename_i h
      simp [h, isSome_writeItems items]
    · rename_i h
      simp [h]
  | function _, _, _ | record _, _, _ | package _, _, _ => by simp [writeWith, shown]
  | sentinel .null, _, _ | sentinel .endOfInput, _, _ | sentinel .marker, _, _ => by simp [writeWith, shown, spell?]
  | text _ true, _, _ | text _ false, _, _ => by simp [writeWith, shown, spell?]
  | int _, _, _ | float _, _, _ | bool _, _, _ | char _, _, _ | symbol _, _, _ | bytes .., _, _ | error _, _, _
  | host _, _, _ | type _, _, _ => by simp [writeWith, shown, spell?]

theorem isSome_writeItems : ∀ (vs : List Value) (out : String),
    (writeItems object out vs).isSome ↔ ∀ o ∈ shownAll vs, (object o).isSome
  | [], out => by simp [writeItems, shownAll]
  | v :: vs, out => by
    have hv := isSome_writeWith v (out ++ " ") false
    simp only [writeItems, shownAll, List.forall_mem_append, ← hv]
    split
    · rename_i h
      simp [h, isSome_writeItems vs]
    · rename_i h
      simp [h]

end

end Value

/-! ## Objects -/

/-- The entries of a record that its text is made of. -/
def Record.shownEntries (r : Record) : List (Value × Value) :=
  r.entries.filter fun e => e.1.isShownKey

namespace Store

variable {object : Shown → Option String} {s : Store}

/-- The objects that an object shows, in order. -/
def shownBy (s : Store) : Shown → List Shown
  | .function id => ((s.function id).source?.map Value.shown).getD []
  | .record id => (s.record id).shownEntries.flatMap fun e => e.1.shown ++ e.2.shown
  | .package id => (s.package id).sorted.map fun e => .function e.2

/-- All texts are there if each of them is. -/
theorem isSome_concatTexts (texts : List (Option String)) :
    (concatTexts texts).isSome ↔ ∀ text ∈ texts, text.isSome := by
  induction texts with
  | nil => simp [concatTexts]
  | cons text texts ih => cases text <;> simp [concatTexts, ih]

theorem isSome_renderEntry (e : Value × Value) :
    (renderEntry object e).isSome ↔ ∀ o ∈ e.1.shown ++ e.2.shown, (object o).isSome := by
  have hkey := @Value.isSome_writeWith object e.1 "" false
  have hvalue := @Value.isSome_writeWith object e.2 "" false
  rw [List.forall_mem_append, ← hkey, ← hvalue, renderEntry, Value.renderWith, Value.renderWith]
  cases e.1.writeWith object "" false <;> cases e.2.writeWith object "" false <;> simp

/-- An object has a text if all objects that it shows have one, and only then. -/
theorem isSome_renderObject (s : Store) (o : Shown) :
    (s.renderObject object o).isSome ↔ ∀ p ∈ s.shownBy o, (object p).isSome := by
  cases o with
  | function id =>
    rw [renderObject, shownBy]
    cases (s.function id).source? with
    | none => simp
    | some form => exact form.isSome_writeWith "" false
  | record id =>
    simp only [renderObject, shownBy, Option.isSome_map, isSome_concatTexts, List.forall_mem_map, isSome_renderEntry,
      List.forall_mem_flatMap, Record.shownEntries]
  | package id =>
    simp only [renderObject, shownBy, Option.isSome_map, isSome_concatTexts, List.forall_mem_map]

theorem isSome_textOf? (s : Store) (o : Shown) : (s.textOf? o).isSome ↔ ∀ p ∈ s.shownBy o, (s.textOf? p).isSome := by
  rw [textOf?, isSome_renderObject]

theorem isSome_render? (s : Store) (v : Value) : (s.render? v).isSome ↔ ∀ o ∈ v.shown, (s.textOf? o).isSome :=
  v.isSome_writeWith "" false

end Store

end Zygo
