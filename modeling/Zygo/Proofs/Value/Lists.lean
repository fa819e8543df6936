import Zygo.Proofs.Render.Loops

/-!
# Lists and their elements

From every value the tails lead along finitely many cells to a value that is no cell (`Value.Linked`), which is the value
itself if that is no cell. A list of values is linked to the empty list. Whether a value is a proper list and what its
elements are is told by the end of its chain, so the two agree on every value.

* `Value.linked_iff`: a value has one chain of heads and one end.
* `Store.elements_spec`: what the elements of a value are, by its chain, and that lists give back their values.
-/

namespace Zygo

namespace Value

variable {v tail last : Value} {heads items : List Value}

/-! ## Chains of cells -/

/-- From `v` on, the tails lead along cells with the heads `heads` to the value `last`, which is no cell. -/
inductive Linked : Value → List Value → Value → Prop
  | last {v : Value} : v.variant ≠ .pair → Linked v [] v
  | cell {cell : Nat} {head tail last : Value} {heads : List Value} :
      Linked tail heads last → Linked (pair cell head tail) (head :: heads) last

theorem linked_null : Linked null [] null :=
  .last nofun

theorem chain_of_variant (h : v.variant ≠ .pair) : v.chain = ([], v) := by
  cases v with
  | pair => exact absurd rfl h
  | _ => rfl

theorem linked_chain : ∀ v : Value, Linked v v.chain.1 v.chain.2
  | pair _ _ tail => .cell (linked_chain tail)
  | int _ | float _ | bool _ | char _ | symbol _ | sentinel _ | text .. | bytes .. | array _ | function _ | record _
  | package _ | error _ | host _ | type _ => .last nofun

theorem Linked.chain_eq (h : Linked v heads last) : v.chain = (heads, last) := by
  induction h with
  | last hv => exact chain_of_variant hv
  | cell _ ih => rw [chain, ih]

/-- A value has one chain of heads and one end. -/
theorem linked_iff : Linked v heads last ↔ v.chain = (heads, last) := by
  constructor
  · exact Linked.chain_eq
  · intro h
    have hv := linked_chain v
    rwa [h] at hv

/-- Only a value that is no cell is the end of its own chain. -/
theorem Linked.nil_iff (h : Linked v heads last) : heads = [] ↔ v.variant ≠ .pair := by
  cases h with
  | last hv => exact iff_of_true rfl hv
  | cell _ => exact iff_of_false nofun fun hv => hv rfl

theorem linked_link (cell : Nat) (items : List Value) (h : Linked tail heads last) :
    Linked (link cell items tail) (items ++ heads) last := by
  rw [linked_iff, chain_link, h.chain_eq]

theorem isNull_iff : v.isNull ↔ v = null := by
  cases v with
  | sentinel s => cases s <;> simp [isNull, null]
  | _ => simp [isNull, null]

/-- A list is proper if its chain ends in the empty list. -/
theorem Linked.isProperList_iff (h : Linked v heads last) : v.isProperList ↔ last = null := by
  induction h with
  | @last v hv =>
    have hproper : v.isProperList = v.isNull := by
      cases v with
      | pair => exact absurd rfl hv
      | _ => rfl
    rw [hproper, isNull_iff]
  | cell _ ih => exact ih

end Value

namespace Store

open Value

variable {v last : Value} {heads items : List Value}

/-! ## Elements -/

/-- A list of values in new cells. -/
theorem linked_list (s : Store) (items : List Value) : Linked (s.list items).1 items null := by
  have h := linked_link s.cells items linked_null
  rwa [List.append_nil] at h

/-- The elements of a chain that ends in the empty list. -/
theorem elements_of_null (h : Linked v heads null) (s : Store) : s.elements v = .ok heads := by
  rw [elements, h.chain_eq]
  rfl

/-- A chain with another end has no elements, whether there are cells in front of the end or not. -/
theorem elements_of_ne_null (h : Linked v heads last) (hlast : last ≠ null) (s : Store) :
    s.elements v =
      .error (if heads = [] then .typeMismatch "list_to_vec" "list" v.variant else .improperList (s.display last)) := by
  rw [elements, h.chain_eq]
  cases h with
  | last hv =>
    -- The value is no cell, so it is the end itself.
    split
    · exact absurd (congrArg Prod.snd ‹_›) hlast
    · rename_i heq
      rw [if_pos rfl, (Prod.mk.inj heq).2]
    · rename_i hcells heq
      exact (hcells (Prod.mk.inj heq).1.symm).elim
  | cell _ =>
    split
    · exact absurd (congrArg Prod.snd ‹_›) hlast
    · rename_i heq
      cases heq
    · rename_i heq
      rw [if_neg (List.cons_ne_nil _ _), (Prod.mk.inj heq).2]

/-- **The elements of a value.** Every value has one chain of heads and one end.

* Values are the elements of the list that is made of them.
* A value is a proper list just when it has elements.
* The elements of a value are the heads of its chain, which ends in the empty list as the chain of a list of them does.
* A value that is neither a cell nor the empty list is refused by its variant.
* A chain of cells that ends in anything but the empty list is refused with the text of its end.
* That end has a text unless something in it reaches itself. -/
theorem elements_spec (s : Store) :
    (∀ v, ∃ heads last, ∀ heads' last', Linked v heads' last' ↔ heads' = heads ∧ last' = last) ∧
    (∀ (t : Store) (items : List Value), s.elements (t.list items).1 = .ok items) ∧
    (∀ v : Value, v.isProperList ↔ ∃ items, s.elements v = .ok items) ∧
    (∀ (v : Value) (items : List Value), s.elements v = .ok items →
      Linked v items null ∧ ∀ t : Store, Linked (t.list items).1 items null) ∧
    (∀ v : Value, v.variant ≠ .pair → v ≠ null →
      s.elements v = .error (.typeMismatch "list_to_vec" "list" v.variant)) ∧
    (∀ (cell : Nat) (head tail last : Value) (heads : List Value), Linked (.pair cell head tail) heads last →
      last ≠ null → ∀ text, s.render? last = some text →
        s.elements (.pair cell head tail) = .error (.improperList text)) ∧
    ∀ last, (∃ text, s.render? last = some text) ↔ ∀ o, s.ShownIn o last → ¬s.Reaches o o := by
  have helements : ∀ v items, s.elements v = .ok items → Linked v items null := by
    intro v items h
    have hv := linked_chain v
    by_cases hlast : v.chain.2 = null
    · rw [hlast] at hv
      rw [elements_of_null hv] at h
      obtain rfl := Except.ok.inj h
      exact hv
    · rw [elements_of_ne_null hv hlast] at h
      cases h
  refine ⟨fun v => ⟨v.chain.1, v.chain.2, fun heads last => ?_⟩, fun t items => ?_, fun v => ?_, fun v items h => ?_,
    fun v hv hnull => ?_, fun cell head tail last heads h hlast text htext => ?_, fun last => exists_render?_iff⟩
  · rw [linked_iff, Prod.ext_iff, eq_comm, eq_comm (a := v.chain.2)]
  · exact elements_of_null (t.linked_list items) s
  · constructor
    · intro hproper
      have hv := linked_chain v
      rw [hv.isProperList_iff.1 hproper] at hv
      exact ⟨_, elements_of_null hv s⟩
    · rintro ⟨items, h⟩
      exact (helements v items h).isProperList_iff.2 rfl
  · exact ⟨helements v items h, fun t => t.linked_list items⟩
  · have h := elements_of_ne_null (.last hv) hnull s
    rwa [if_pos rfl] at h
  · have hcells : heads ≠ [] := fun hnil => h.nil_iff.1 hnil rfl
    rw [elements_of_ne_null h hlast s, if_neg hcells, display, htext, Option.getD_some]

/-- A list of three, one that ends in a number, and a number. -/
theorem elements_spec_ends :
    elements {} (list {} [.int 1, .null, .text "a" false]).1 = .ok [.int 1, .null, .text "a" false] ∧
      elements {} (.pair 0 .null (.pair 1 .null (.int 2))) = .error (.improperList "2") ∧
      elements {} (.int 2) = .error (.typeMismatch "list_to_vec" "list" .int) := by
  obtain ⟨-, hlist, -, -, hvariant, himproper, -⟩ := elements_spec {}
  refine ⟨hlist {} _, ?_, hvariant _ nofun nofun⟩
  exact himproper 0 .null _ (.int 2) [.null, .null] (.cell (.cell (.last nofun))) nofun "2" rfl

end Store

end Zygo
