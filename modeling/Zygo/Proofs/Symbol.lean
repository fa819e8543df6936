import Zygo.Symbol

/-!
# Numbers of symbols

A text keeps the number that a table gave it, whatever is put into the table afterwards, so the text of a symbol leads
back to the symbol in the table that has issued it.
-/

namespace Zygo.SymbolTable

variable {t : SymbolTable} {text : String} {id : Nat} {s : Symbol}

/-- `text` has the number `id`. -/
def Numbers (t : SymbolTable) (text : String) (id : Nat) : Prop :=
  t.ids.lookup text = some id

/-- A symbol that a table has made, just now or before other texts were put into it. The reserved symbols belong to
every table from the start. -/
inductive Issued : SymbolTable → Symbol → Prop
  | reserved (id : Fin 4) : Issued .initial (Symbol.reserved id)
  | made (t : SymbolTable) (dotted : Bool) (text : String) :
      Issued (t.makeSymbol dotted text).2 (t.makeSymbol dotted text).1
  | later {t : SymbolTable} {s : Symbol} (text : String) : Issued t s → Issued (t.intern text).2 s

theorem Numbers.intern_eq (h : t.Numbers text id) : t.intern text = (id, t) := by
  have h : t.ids.lookup text = some id := h
  unfold intern
  split <;> simp_all

theorem intern_eq_push (h : t.ids.lookup text = none) : t.intern text = (t.size, t.push text h) := by
  unfold intern
  split
  · simp_all
  · rfl

theorem numbers_iff_getElem? : t.Numbers text id ↔ t.names[id]? = some text :=
  t.inverse text id

theorem Numbers.lookup (h : t.Numbers text id) : t.lookup id = text := by
  rw [SymbolTable.lookup, numbers_iff_getElem?.1 h, Option.getD_some]

theorem numbers_push (h : t.ids.lookup text = none) : (t.push text h).Numbers text t.size := by
  simp [Numbers, push, size]

theorem numbers_intern (t : SymbolTable) (text : String) : (t.intern text).2.Numbers text (t.intern text).1 := by
  cases h : t.ids.lookup text with
  | some id =>
    have hnum : t.Numbers text id := h
    rw [hnum.intern_eq]
    exact hnum
  | none =>
    rw [intern_eq_push h]
    exact numbers_push h

/-- Texts keep their numbers. -/
theorem Numbers.intern (h : t.Numbers text id) (other : String) : (t.intern other).2.Numbers text id := by
  cases hother : t.ids.lookup other with
  | some n =>
    have hnum : t.Numbers other n := hother
    rw [hnum.intern_eq]
    exact h
  | none =>
    have hid := numbers_iff_getElem?.1 h
    have hlt : id < t.names.size := (Array.getElem?_eq_some_iff.1 hid).1
    rw [intern_eq_push hother, numbers_iff_getElem?, push, Array.getElem?_push, if_neg (by omega)]
    exact hid

/-- No other text gets a number by the way. -/
theorem numbers_of_intern {other : String} (h : (t.intern text).2.Numbers other id) (hne : other ≠ text) :
    t.Numbers other id := by
  cases htext : t.ids.lookup text with
  | some n =>
    have hnum : t.Numbers text n := htext
    rwa [hnum.intern_eq] at h
  | none =>
    rw [intern_eq_push htext, Numbers, push, List.lookup_cons, beq_eq_false_iff_ne.2 hne] at h
    exact h

theorem Numbers.lt_size (h : t.Numbers text id) : id < t.size :=
  (Array.getElem?_eq_some_iff.1 (numbers_iff_getElem?.1 h)).1

theorem size_le_intern (t : SymbolTable) (text : String) : t.size ≤ (t.intern text).2.size := by
  cases h : t.ids.lookup text with
  | some id =>
    have hnum : t.Numbers text id := h
    simp [hnum.intern_eq]
  | none =>
    have hsize : (t.push text h).size = t.size + 1 := Array.size_push _
    simp [intern_eq_push h, hsize]

/-- A text has one number. -/
theorem Numbers.unique {id' : Nat} (h : t.Numbers text id) (h' : t.Numbers text id') : id = id' :=
  Option.some.inj (h.symm.trans h')

/-- A number has one text. -/
theorem Numbers.text_eq {other : String} (h : t.Numbers text id) (h' : t.Numbers other id) : text = other :=
  h.lookup.symm.trans h'.lookup

theorem Issued.numbers (h : t.Issued s) : t.Numbers s.name s.id := by
  induction h with
  | reserved id =>
    have hplace : ∀ id : Fin 4, initial.ids.lookup (Symbol.reserved id).name = some (Symbol.reserved id).id := by decide
    exact hplace id
  | made t dotted text =>
    have hnum := t.numbers_intern text
    simpa [makeSymbol, hnum.lookup] using hnum
  | later text _ ih => exact ih.intern text

/-- **The text of an issued symbol leads back to its number**, and the table stays as it is. -/
theorem Issued.makeSymbol (h : t.Issued s) (dotted : Bool) :
    t.makeSymbol dotted s.name = (⟨s.id, s.name, dotted⟩, t) := by
  rw [SymbolTable.makeSymbol, h.numbers.intern_eq, h.numbers.lookup]

end Zygo.SymbolTable
