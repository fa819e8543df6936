import Zygo.Value.Equality

/-!
# Equality and content

`Alike` is the relation of values with the same content: it goes through cells and arrays element by element and does
not look at which cells are the same. `Value.equalThroughout` decides it. Equality takes a shortcut instead: lists that go
on with the same cell are equal from there on. So it agrees with content where that is reflexive, and a NaN is the one
thing that is not like itself.

* `equal_equivalence`: without NaNs, equality is an equivalence, and it is likeness of content.
* `equal_eq_throughout`: the shortcut never shows unless two values share a cell that holds a NaN.
-/

namespace Zygo

namespace Double

variable {x y z : Double}

theorem equal_self (h : x.isNaN = false) : x.equal x = true := by
  simp [equal, h]

theorem equal_comm (x y : Double) : x.equal y = y.equal x := by
  rw [equal, equal, Bool.and_comm (!x.isNaN), Bool.and_comm x.isZero, BEq.comm]

/-- Zeros of either sign are equal to each other and to nothing else. -/
theorem equal_trans (h : x.equal y = true) (h' : y.equal z = true) : x.equal z = true := by
  simp only [equal, Bool.and_eq_true, Bool.or_eq_true, Bool.not_eq_true', beq_iff_eq] at h h' ⊢
  obtain ⟨⟨hx, -⟩, hxy⟩ := h
  obtain ⟨⟨-, hz⟩, hyz⟩ := h'
  refine ⟨⟨hx, hz⟩, ?_⟩
  rcases hxy with rfl | ⟨hx0, hy0⟩
  · exact hyz
  · rcases hyz with rfl | ⟨-, hz0⟩
    · exact Or.inr ⟨hx0, hy0⟩
    · exact Or.inr ⟨hx0, hz0⟩

end Double

namespace Value

variable {a b c v w : Value}

/-! ## What a value holds -/

/-- A value holds itself and what the elements of its cells and arrays hold. -/
inductive Holds : Value → Value → Prop
  | self (v : Value) : Holds v v
  | head (cell : Nat) (tail : Value) {head part : Value} : Holds head part → Holds (pair cell head tail) part
  | tail (cell : Nat) (head : Value) {tail part : Value} : Holds tail part → Holds (pair cell head tail) part
  | item {items : List Value} {v part : Value} : v ∈ items → Holds v part → Holds (array items) part

/-- No element that is reached through cells and arrays is a NaN. -/
def NaNFree (v : Value) : Prop :=
  ∀ x, v.Holds (float x) → x.isNaN = false

/-- The cells that two values have in common hold no NaN. -/
def ShareNoNaN (a b : Value) : Prop :=
  ∀ cell head tail, a.Holds (pair cell head tail) → b.Holds (pair cell head tail) → (pair cell head tail).NaNFree

theorem Holds.trans (h : a.Holds b) (h' : b.Holds c) : a.Holds c := by
  induction h with
  | self => exact h'
  | head cell tail _ ih => exact .head cell tail (ih h')
  | tail cell head _ ih => exact .tail cell head (ih h')
  | item hv _ ih => exact .item hv (ih h')

theorem NaNFree.of_holds (h : a.NaNFree) (hb : a.Holds b) : b.NaNFree :=
  fun x hx => h x (hb.trans hx)

theorem ShareNoNaN.of_holds (h : ShareNoNaN a b) (hv : a.Holds v) (hw : b.Holds w) : ShareNoNaN v w :=
  fun cell head tail hv' hw' => h cell head tail (hv.trans hv') (hw.trans hw')

theorem NaNFree.shareNoNaN (h : a.NaNFree) (b : Value) : ShareNoNaN a b :=
  fun _ _ _ ha _ => h.of_holds ha

theorem nanFree_float {x : Double} (h : x.isNaN = false) : (float x).NaNFree := by
  intro y hy
  cases hy
  exact h

theorem nanFree_pair (cell : Nat) (hv : v.NaNFree) (hw : w.NaNFree) : (pair cell v w).NaNFree := by
  intro x hx
  cases hx with
  | head _ _ hx => exact hv x hx
  | tail _ _ hx => exact hw x hx

theorem nanFree_array {items : List Value} (h : ∀ v ∈ items, v.NaNFree) : (array items).NaNFree := by
  intro x hx
  cases hx with
  | item hv hx => exact h _ hv x hx

/-! ## Content -/

/-- Two values of the same content, whichever cells they share. Texts have the same characters, symbols the same number
and bytes the same data; functions, records, packages, host objects and types are the same. -/
inductive Alike : Value → Value → Prop
  | int (n : Int64) : Alike (int n) (int n)
  | float {x y : Double} : x.equal y = true → Alike (float x) (float y)
  | bool (b : Bool) : Alike (bool b) (bool b)
  | char (c : Char) : Alike (char c) (char c)
  | symbol {s t : Symbol} : s.id = t.id → Alike (symbol s) (symbol t)
  | sentinel (s : Sentinel) : Alike (sentinel s) (sentinel s)
  | text (s : String) (raw raw' : Bool) : Alike (text s raw) (text s raw')
  | bytes (data : List UInt8) (type? type?' : Option TypeHandle) : Alike (bytes data type?) (bytes data type?')
  | pair (cell cell' : Nat) {head head' tail tail' : Value} :
    Alike head head' → Alike tail tail' → Alike (pair cell head tail) (pair cell' head' tail')
  | empty : Alike (array []) (array [])
  | item {v w : Value} {vs ws : List Value} :
    Alike v w → Alike (array vs) (array ws) → Alike (array (v :: vs)) (array (w :: ws))
  | function (id : FunctionId) : Alike (function id) (function id)
  | record (id : RecordId) : Alike (record id) (record id)
  | package (id : PackageId) : Alike (package id) (package id)
  | error (message : String) : Alike (error message) (error message)
  | host (object : HostObject) : Alike (host object) (host object)
  | type (handle : TypeHandle) : Alike (type handle) (type handle)

theorem Alike.symm (h : Alike a b) : Alike b a := by
  induction h with
  | float h => exact .float (Double.equal_comm _ _ ▸ h)
  | symbol h => exact .symbol h.symm
  | text s raw raw' => exact .text s raw' raw
  | bytes data type? type?' => exact .bytes data type?' type?
  | pair cell cell' _ _ ih ih' => exact .pair cell' cell ih ih'
  | item _ _ ih ih' => exact .item ih ih'
  | _ => constructor

theorem Alike.trans (h : Alike a b) (h' : Alike b c) : Alike a c := by
  induction h generalizing c with
  | float h =>
    cases h' with
    | float h' => exact .float (Double.equal_trans h h')
  | symbol h =>
    cases h' with
    | symbol h' => exact .symbol (h.trans h')
  | pair cell cell' _ _ ih ih' =>
    cases h' with
    | pair _ cell'' hhead htail => exact .pair cell cell'' (ih hhead) (ih' htail)
  | item _ _ ih ih' =>
    cases h' with
    | item hitem hitems => exact .item (ih hitem) (ih' hitems)
  | _ =>
    cases h'
    constructor

mutual

/-- Only NaNs are unlike themselves. -/
theorem alike_self : ∀ {v : Value}, v.NaNFree → Alike v v
  | float x, h => .float (Double.equal_self (h x (.self _)))
  | pair cell head tail, h =>
    .pair cell cell (alike_self (h.of_holds (.head cell tail (.self head))))
      (alike_self (h.of_holds (.tail cell head (.self tail))))
  | array _, h => alike_self_items fun _ hv => h.of_holds (.item hv (.self _))
  | int n, _ => .int n
  | bool b, _ => .bool b
  | char c, _ => .char c
  | symbol _, _ => .symbol rfl
  | sentinel s, _ => .sentinel s
  | text s raw, _ => .text s raw raw
  | bytes data type?, _ => .bytes data type? type?
  | function id, _ => .function id
  | record id, _ => .record id
  | package id, _ => .package id
  | error message, _ => .error message
  | host object, _ => .host object
  | type handle, _ => .type handle

theorem alike_self_items : ∀ {vs : List Value}, (∀ v ∈ vs, v.NaNFree) → Alike (array vs) (array vs)
  | [], _ => .empty
  | v :: _, h =>
    .item (alike_self (h v List.mem_cons_self)) (alike_self_items fun w hw => h w (List.mem_cons_of_mem v hw))

end

/-! ## Comparison without the shortcut -/

mutual

/-- Equality that compares the heads of all cells down both lists, also where these go on with the same cell. -/
def equalThroughout : Value → Value → Bool
  | int m, int n => m == n
  | float x, float y => x.equal y
  | bool b, bool c => b == c
  | char c, char d => c == d
  | symbol s, symbol t => s.same t
  | sentinel s, sentinel t => s == t
  | text s _, text t _ => s == t
  | bytes data _, bytes data' _ => data == data'
  | pair _ head tail, pair _ head' tail' => head.equalThroughout head' && tail.equalThroughout tail'
  | array items, array items' => equalThroughoutAll items items'
  | function f, function g => f == g
  | record r, record s => r == s
  | package p, package q => p == q
  | error m, error n => m == n
  | host a, host b => a == b
  | type t, type u => t == u
  | _, _ => false

/-- The same, item by item. -/
def equalThroughoutAll : List Value → List Value → Bool
  | [], [] => true
  | v :: vs, w :: ws => v.equalThroughout w && equalThroughoutAll vs ws
  | _, _ => false

end

mutual

/-- A value with every cell numbered 0, so that which cells are the same does not show. -/
def content : Value → Value
  | pair _ head tail => pair 0 head.content tail.content
  | array items => array (contentAll items)
  | v => v

def contentAll : List Value → List Value
  | [] => []
  | v :: vs => v.content :: contentAll vs

end

mutual

theorem alike_of_equalThroughout : ∀ {a b : Value}, a.equalThroughout b = true → Alike a b
  | pair cell head tail, b, h => by
    cases b with
    | pair cell' head' tail' =>
      rw [equalThroughout, Bool.and_eq_true] at h
      exact .pair cell cell' (alike_of_equalThroughout h.1) (alike_of_equalThroughout h.2)
    | _ => simp [equalThroughout] at h
  | array items, b, h => by
    cases b with
    | array items' => exact alike_of_equalThroughoutAll (by simpa only [equalThroughout] using h)
    | _ => simp [equalThroughout] at h
  | int _, b, h | bool _, b, h | char _, b, h | sentinel _, b, h | text .., b, h | bytes .., b, h | function _, b, h
  | record _, b, h | package _, b, h | error _, b, h | host _, b, h | type _, b, h => by
    cases b <;> simp only [equalThroughout, beq_iff_eq, Bool.false_eq_true] at h
    subst h
    constructor
  | float _, b, h => by
    cases b with
    | float _ => exact .float (by simpa only [equalThroughout] using h)
    | _ => simp [equalThroughout] at h
  | symbol _, b, h => by
    cases b with
    | symbol _ => exact .symbol (by simpa only [equalThroughout, Symbol.same, beq_iff_eq] using h)
    | _ => simp [equalThroughout] at h

theorem alike_of_equalThroughoutAll : ∀ {vs ws : List Value}, equalThroughoutAll vs ws = true →
    Alike (array vs) (array ws)
  | [], [], _ => .empty
  | v :: vs, w :: ws, h => by
    rw [equalThroughoutAll, Bool.and_eq_true] at h
    exact .item (alike_of_equalThroughout h.1) (alike_of_equalThroughoutAll h.2)

end

/-- **The comparison without the shortcut decides likeness.** -/
theorem equalThroughout_iff_alike : a.equalThroughout b = true ↔ Alike a b := by
  refine ⟨alike_of_equalThroughout, fun h => ?_⟩
  induction h with
  | float h => exact h
  | symbol h => simpa [equalThroughout, Symbol.same] using h
  | pair cell cell' _ _ ih ih' => simp [equalThroughout, ih, ih']
  | item _ _ ih ih' =>
    simp only [equalThroughout] at ih'
    simp [equalThroughout, equalThroughoutAll, ih, ih']
  | _ => simp [equalThroughout, equalThroughoutAll]

theorem equal_of_alike (h : Alike a b) : a.equal b = true := by
  induction h with
  | float h => exact h
  | symbol h => simpa [equal, Symbol.same] using h
  | pair cell cell' _ _ ih ih' => simp [equal, ih, ih']
  | item _ _ ih ih' =>
    simp only [equal] at ih'
    simp [equal, equalAll, ih, ih']
  | _ => simp [equal, equalAll]

/-- Where the shortcut is taken, the tails are one list cell. -/
theorem sameCell_eq_true (h : v.sameCell w = true) : v = w ∧ ∃ cell head tail, v = pair cell head tail := by
  cases v with
  | pair cell head tail =>
    cases w with
    | pair cell' head' tail' => exact ⟨(identical_iff _ _).1 h, cell, head, tail, rfl⟩
    | _ => cases h
  | _ => cases h

/-- A shortcut that passes over no NaN gives the answer of the comparison. -/
theorem equalThroughout_of_sameCell (h : ShareNoNaN v w) (hcell : v.sameCell w = true) :
    v.equalThroughout w = true := by
  obtain ⟨rfl, cell, head, tail, rfl⟩ := sameCell_eq_true hcell
  exact equalThroughout_iff_alike.2 (alike_self (h cell head tail (.self _) (.self _)))

mutual

theorem equal_eq_of_shareNoNaN : ∀ {a b : Value}, ShareNoNaN a b → a.equal b = a.equalThroughout b
  | pair cell head tail, b, h => by
    cases b with
    | pair cell' head' tail' =>
      have hhead := equal_eq_of_shareNoNaN (h.of_holds (.head cell tail (.self head)) (.head cell' tail' (.self head')))
      have hshare := h.of_holds (.tail cell head (.self tail)) (.tail cell' head' (.self tail'))
      have htail := equal_eq_of_shareNoNaN hshare
      have hskip : (tail.sameCell tail' || tail.equalThroughout tail') = tail.equalThroughout tail' := by
        simpa using equalThroughout_of_sameCell hshare
      rw [equal, equalThroughout, hhead, htail, hskip]
    | _ => rfl
  | array items, b, h => by
    cases b with
    | array items' =>
      exact equalAll_eq_of_shareNoNaN fun v hv w hw => h.of_holds (.item hv (.self v)) (.item hw (.self w))
    | _ => rfl
  | int _, b, _ | float _, b, _ | bool _, b, _ | char _, b, _ | symbol _, b, _ | sentinel _, b, _ | text .., b, _
  | bytes .., b, _ | function _, b, _ | record _, b, _ | package _, b, _ | error _, b, _ | host _, b, _
  | type _, b, _ => by
    cases b <;> rfl

theorem equalAll_eq_of_shareNoNaN : ∀ {vs ws : List Value}, (∀ v ∈ vs, ∀ w ∈ ws, ShareNoNaN v w) →
    equalAll vs ws = equalThroughoutAll vs ws
  | [], [], _ | [], _ :: _, _ | _ :: _, [], _ => rfl
  | v :: vs, w :: ws, h => by
    have hitem := equal_eq_of_shareNoNaN (h v List.mem_cons_self w List.mem_cons_self)
    have hitems := equalAll_eq_of_shareNoNaN fun v' hv w' hw =>
      h v' (List.mem_cons_of_mem v hv) w' (List.mem_cons_of_mem w hw)
    rw [equalAll, equalThroughoutAll, hitem, hitems]

end

mutual

theorem equalThroughout_content : ∀ a b : Value, a.content.equalThroughout b.content = a.equalThroughout b
  | pair _ head tail, b => by
    cases b with
    | pair _ head' tail' =>
      simp only [content, equalThroughout, equalThroughout_content head head', equalThroughout_content tail tail']
    | _ => rfl
  | array items, b => by
    cases b with
    | array items' => exact equalThroughoutAll_content items items'
    | _ => rfl
  | int _, b | float _, b | bool _, b | char _, b | symbol _, b | sentinel _, b | text .., b | bytes .., b
  | function _, b | record _, b | package _, b | error _, b | host _, b | type _, b => by
    cases b <;> rfl

theorem equalThroughoutAll_content : ∀ vs ws : List Value,
    equalThroughoutAll (contentAll vs) (contentAll ws) = equalThroughoutAll vs ws
  | [], [] | [], _ :: _ | _ :: _, [] => rfl
  | v :: vs, w :: ws => by
    simp only [contentAll, equalThroughoutAll, equalThroughout_content v w, equalThroughoutAll_content vs ws]

end

/-! ## What programs see -/

/-- **Without NaNs, equality is an equivalence**, and two values are equal when their contents are alike. -/
theorem equal_equivalence (ha : a.NaNFree) (hb : b.NaNFree) (c : Value) :
    a.equal a = true ∧ a.equal b = b.equal a ∧ (a.equal b = true → b.equal c = true → a.equal c = true) ∧
      (a.equal b = true ↔ Alike a b) := by
  have hiff : ∀ {v w : Value}, v.NaNFree → (v.equal w = true ↔ Alike v w) := by
    intro v w hv
    rw [equal_eq_of_shareNoNaN (hv.shareNoNaN w), equalThroughout_iff_alike]
  refine ⟨(hiff ha).2 (alike_self ha), ?_, fun hab hbc => ?_, hiff ha⟩
  · rw [Bool.eq_iff_iff, hiff ha, hiff hb]
    exact ⟨Alike.symm, Alike.symm⟩
  · exact (hiff ha).2 (((hiff ha).1 hab).trans ((hiff hb).1 hbc))

/-- Three lists of a zero and an array of a text. They differ in the sign of the zero and in the way the text is written,
and the last two go on with the same cell. -/
theorem equal_equivalence_lists :
    let rest (raw : Bool) := pair 0 (array [text "x" raw]) null
    let a := pair 1 (float ⟨0⟩) (rest false)
    let b := pair 2 (float (.ofMagnitude true 0)) (rest true)
    let c := pair 3 (float ⟨0⟩) (rest true)
    a.NaNFree ∧ b.NaNFree ∧ a.equal b = b.equal a ∧ a.equal c = true ∧ Alike a b := by
  intro rest a b c
  have hrest : ∀ raw, (rest raw).NaNFree := by
    intro raw
    refine nanFree_pair 0 (nanFree_array fun v hv => ?_) (by rintro x ⟨⟩)
    obtain rfl := List.mem_singleton.1 hv
    rintro x ⟨⟩
  have ha : a.NaNFree := nanFree_pair 1 (nanFree_float (by decide)) (hrest false)
  have hb : b.NaNFree := nanFree_pair 2 (nanFree_float (by decide)) (hrest true)
  obtain ⟨-, hcomm, htrans, halike⟩ := equal_equivalence ha hb c
  exact ⟨ha, hb, hcomm, htrans (by decide) (by decide), halike.1 (by decide)⟩

/-- **The shortcut never shows unless two values share a cell that holds a NaN.** If the cells that they share hold none,
equality is the comparison of all heads and items, and this does not depend on which cells are the same. In any case the
shortcut can only make values equal that would not be, and not the other way round. -/
theorem equal_eq_throughout (a b : Value) :
    (ShareNoNaN a b → a.equal b = a.equalThroughout b) ∧ (a.equalThroughout b = true → a.equal b = true) ∧
      a.content.equalThroughout b.content = a.equalThroughout b :=
  ⟨equal_eq_of_shareNoNaN, fun h => equal_of_alike (equalThroughout_iff_alike.1 h), equalThroughout_content a b⟩

/-- Two lists that go on with the same cell, which holds no NaN. -/
theorem equal_eq_throughout_shared_tail :
    let tail := pair 0 (int 1) null
    let a := pair 1 (bool true) tail
    let b := pair 2 (bool true) tail
    ShareNoNaN a b ∧ a.equal b = a.equalThroughout b ∧ a.equal b = true := by
  intro tail a b
  have htail : tail.NaNFree := nanFree_pair 0 (by rintro x ⟨⟩) (by rintro x ⟨⟩)
  have ha : a.NaNFree := nanFree_pair 1 (by rintro x ⟨⟩) htail
  have hshare := ha.shareNoNaN b
  exact ⟨hshare, (equal_eq_throughout a b).1 hshare, (equal_eq_throughout a b).2.1 (by decide)⟩

/-- **A NaN in a shared tail shows the shortcut**: the lists are equal, and their elements are not. -/
theorem not_equal_eq_throughout_nan : ¬ ∀ a b : Value, a.equal b = a.equalThroughout b := by
  intro h
  let tail := pair 0 (float (.nan false)) null
  have heq : (pair 1 null tail).equal (pair 2 null tail) = true := by decide
  have hne : (pair 1 null tail).equalThroughout (pair 2 null tail) = false := by decide
  rw [h, hne] at heq
  cases heq

end Value

end Zygo
