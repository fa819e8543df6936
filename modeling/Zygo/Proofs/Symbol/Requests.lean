import Zygo.Proofs.Symbol

/-!
# Tables that are asked and shared

A table may be held through any number of handles, and every holder may be the first to ask it for a text. A history
(`SharedTables.run`) makes tables, clones handles and asks, in any order. `SharedTables.log` lists what one table was asked
through all of its handles, and what it answered.

* `numbers_of_requests`: the numbers in all answers of a table, read off the texts that it was asked for: the reserved texts
  come first, then the others in the order in which they were first asked for.
-/

namespace Zygo

namespace SymbolTable

/-! ## Requests -/

/-- What a table can be asked for. -/
inductive Request where
  | intern (text : String)
  | tryIntern (text : String)
  | symbol (text : String)
  | dottedSymbol (text : String)

/-- What a table answers. -/
inductive Answer where
  | number (id : Nat)
  | symbol (s : Symbol)
  | refusal (e : InternError)

/-- The text that a request is about. -/
def Request.text : Request → String
  | intern text | tryIntern text | symbol text | dottedSymbol text => text

/-- The right answer to a request when the text has the number `id`. -/
def Request.told (id : Nat) : Request → Answer
  | intern _ | tryIntern _ => .number id
  | symbol text => .symbol ⟨id, text, false⟩
  | dottedSymbol text => .symbol ⟨id, text, true⟩

/-- The number that an answer gives. -/
def Answer.id? : Answer → Option Nat
  | number id => some id
  | symbol s => some s.id
  | refusal _ => none

/-- The answer of a table, and the table after it. -/
def answer (t : SymbolTable) : Request → Answer × SymbolTable
  | .intern text => (.number (t.intern text).1, (t.intern text).2)
  | .tryIntern text =>
    match t.tryIntern text with
    | .ok (id, t) => (.number id, t)
    | .error e => (.refusal e, t)
  | .symbol text => (.symbol (t.symbol text).1, (t.symbol text).2)
  | .dottedSymbol text => (.symbol (t.dottedSymbol text).1, (t.dottedSymbol text).2)

variable {t : SymbolTable} {text : String} {texts : List String}

theorem id?_told (r : Request) (id : Nat) : (r.told id).id? = some id := by
  cases r <;> rfl

/-- As long as there are numbers left, a table answers with the number that interning gives. -/
theorem answer_eq (hcap : (t.intern text).2.size ≤ greatestId + 1) {r : Request} (hr : r.text = text) :
    t.answer r = (r.told (t.intern text).1, (t.intern text).2) := by
  subst hr
  have hname : (t.intern r.text).2.lookup (t.intern r.text).1 = r.text := (t.numbers_intern r.text).lookup
  cases r with
  | intern text => rfl
  | tryIntern text =>
    have hroom : (t.ids.lookup text).isSome ∨ t.names.size ≤ greatestId := by
      cases h : t.ids.lookup text with
      | some id => exact .inl rfl
      | none =>
        right
        rw [Request.text, intern_eq_push h, size, push, Array.size_push] at hcap
        omega
    simp only [answer, tryIntern, if_pos hroom]
    rfl
  | symbol text | dottedSymbol text =>
    simp only [Request.text] at hname
    simp only [answer, symbol, dottedSymbol, makeSymbol, hname]
    rfl

/-! ## Texts in the order of their numbers -/

/-- The texts of a list that are not reserved, each once, in the order in which they come first. -/
def newTexts (texts : List String) : List String :=
  (texts.filter fun text => text ∉ reservedNames).eraseDups

theorem newTexts_append (texts more : List String) : newTexts texts <+: newTexts (texts ++ more) := by
  rw [newTexts, newTexts, List.filter_append, List.eraseDups_append]
  exact List.prefix_append _ _

theorem newTexts_concat (texts : List String) (text : String) :
    newTexts (texts ++ [text]) =
      if text ∈ reservedNames ++ newTexts texts then newTexts texts else newTexts texts ++ [text] := by
  have hmem : text ∈ newTexts texts ↔ text ∈ texts ∧ text ∉ reservedNames := by
    rw [newTexts, List.mem_eraseDups, List.mem_filter, decide_eq_true_iff]
  have happend : newTexts (texts ++ [text]) = newTexts texts ++
      (([text].filter fun text => text ∉ reservedNames).removeAll
        (texts.filter fun text => text ∉ reservedNames)).eraseDups := by
    rw [newTexts, List.filter_append, List.eraseDups_append, newTexts]
  rw [happend]
  by_cases hreserved : text ∈ reservedNames
  · rw [if_pos (List.mem_append_left _ hreserved)]
    simp [hreserved, List.removeAll]
  · by_cases htext : text ∈ texts
    · rw [if_pos (List.mem_append_right _ (hmem.2 ⟨htext, hreserved⟩))]
      simp [hreserved, htext, List.removeAll]
    · rw [if_neg (by simp [hreserved, hmem, htext])]
      simp [hreserved, htext, List.removeAll, List.eraseDups_cons]

/-- The table numbers the reserved texts first, then the others of the list in the order in which they come first. -/
def Lists (t : SymbolTable) (texts : List String) : Prop :=
  t.names.toList = reservedNames ++ newTexts texts

theorem Lists.numbers_iff (h : t.Lists texts) {id : Nat} :
    t.Numbers text id ↔ (reservedNames ++ newTexts texts)[id]? = some text := by
  rw [numbers_iff_getElem?, ← h, Array.getElem?_toList]

theorem lists_initial : initial.Lists [] := rfl

/-- One more text keeps the order. -/
theorem Lists.intern (h : t.Lists texts) (text : String) : (t.intern text).2.Lists (texts ++ [text]) := by
  have hmem : text ∈ reservedNames ++ newTexts texts ↔ ∃ id, t.Numbers text id := by
    simp only [h.numbers_iff, List.mem_iff_getElem?]
  rw [Lists, newTexts_concat]
  cases hnum : t.ids.lookup text with
  | some id =>
    have hnum : t.Numbers text id := hnum
    rw [hnum.intern_eq, if_pos (hmem.2 ⟨id, hnum⟩)]
    exact h
  | none =>
    have hnew : text ∉ reservedNames ++ newTexts texts := by
      rw [hmem]
      rintro ⟨id, hid⟩
      have hid : t.ids.lookup text = some id := hid
      simp [hnum] at hid
    rw [intern_eq_push hnum, if_neg hnew, push, Array.toList_push, ← List.append_assoc, ← h]

end SymbolTable

/-! ## Histories -/

open SymbolTable

/-- Tables, and the handles that hold them. A handle is on the table of its number. -/
structure SharedTables where
  tables : List SymbolTable := []
  handles : List Nat := []

namespace SharedTables

/-- What holders of tables do. A handle is named by its place. -/
inductive Step where
  /-- Makes a table, with a handle on it. -/
  | create
  /-- Makes one more handle on the same table. -/
  | clone (handle : Nat)
  /-- Asks the table of a handle. -/
  | ask (handle : Nat) (request : Request)

/-- The table of a number; an unused number stands for a new table. -/
def table (now : SharedTables) (k : Nat) : SymbolTable :=
  now.tables[k]?.getD .initial

/-- A step. There is nothing to do for a handle that does not exist. -/
def step (now : SharedTables) : Step → SharedTables
  | .create => ⟨now.tables ++ [.initial], now.handles ++ [now.tables.length]⟩
  | .clone handle =>
    match now.handles[handle]? with
    | some k => { now with handles := now.handles ++ [k] }
    | none => now
  | .ask handle request =>
    match now.handles[handle]? with
    | some k => { now with tables := now.tables.set k ((now.table k).answer request).2 }
    | none => now

/-- What a history leads to. The latest step comes first. -/
def run : List Step → SharedTables
  | [] => {}
  | step :: past => (run past).step step

/-- What a table was asked in a history, through any handle, and what it answered, in order. -/
def log : List Step → Nat → List (Request × Answer)
  | [], _ => []
  | .ask handle request :: past, k =>
    if (run past).handles[handle]? = some k then log past k ++ [(request, (((run past).table k).answer request).1)]
    else log past k
  | .create :: past, k => log past k
  | .clone _ :: past, k => log past k

/-- The texts that a table was asked for, in order. -/
def texts (history : List Step) (k : Nat) : List String :=
  (log history k).map fun e => e.1.text

variable {now : SharedTables} {history past : List Step} {k : Nat}

/-- All handles are on tables. -/
theorem lt_of_mem_handles (h : k ∈ (run history).handles) : k < (run history).tables.length := by
  induction history with
  | nil => cases h
  | cons step past ih =>
    cases step with
    | create =>
      simp only [run, SharedTables.step, List.mem_append, List.mem_singleton, List.length_append,
        List.length_singleton] at h ⊢
      rcases h with h | rfl
      · have hlt := ih h
        omega
      · omega
    | clone handle =>
      simp only [run, SharedTables.step] at h ⊢
      cases hk : (run past).handles[handle]? with
      | none =>
        rw [hk] at h
        exact ih h
      | some j =>
        simp only [hk, List.mem_append, List.mem_singleton] at h
        rcases h with h | rfl
        · exact ih h
        · exact ih (List.mem_of_getElem? hk)
    | ask handle request =>
      simp only [run, SharedTables.step] at h ⊢
      cases hk : (run past).handles[handle]? with
      | none =>
        rw [hk] at h
        exact ih h
      | some j =>
        simp only [hk, List.length_set] at h ⊢
        exact ih h

/-- A new table is as an unused one is taken to be. -/
theorem table_create (now : SharedTables) (k : Nat) : (now.step .create).table k = now.table k := by
  rw [table, table, step, List.getElem?_append]
  split
  · rfl
  · rename_i hk
    rw [List.getElem?_eq_none (l := now.tables) (by omega)]
    cases k - now.tables.length <;> rfl

theorem table_clone (now : SharedTables) (handle k : Nat) : (now.step (.clone handle)).table k = now.table k := by
  rw [step]
  split <;> rfl

/-- Asking changes the table of the handle and no other. -/
theorem table_ask (history : List Step) (handle : Nat) (request : Request) (k : Nat) :
    ((run history).step (.ask handle request)).table k =
      if (run history).handles[handle]? = some k then (((run history).table k).answer request).2
      else (run history).table k := by
  cases hj : (run history).handles[handle]? with
  | none => simp [step, hj]
  | some j =>
    have hlt : j < (run history).tables.length := lt_of_mem_handles (List.mem_of_getElem? hj)
    simp only [step, hj, Option.some.injEq]
    by_cases hjk : j = k
    · subst hjk
      rw [if_pos rfl, table, List.getElem?_set_self hlt, Option.getD_some]
    · rw [if_neg hjk, table, List.getElem?_set_ne hjk]
      rfl

/-- What a history has made of a table: it numbers the texts in order, and its answers were right, for good. -/
structure Numbered (history : List Step) (k : Nat) : Prop where
  lists : ((run history).table k).Lists (texts history k)
  told : ∀ e ∈ log history k, ∃ id, ((run history).table k).Numbers e.1.text id ∧ e.2 = e.1.told id

/-- A step that asks the table nothing keeps the invariant. -/
theorem Numbered.idle {step : Step} (h : Numbered past k) (htable : ((run past).step step).table k = (run past).table k)
    (hlog : log (step :: past) k = log past k) : Numbered (step :: past) k := by
  have htexts : texts (step :: past) k = texts past k := by rw [texts, hlog, texts]
  constructor
  · rw [run, htable, htexts]
    exact h.lists
  · rw [run, htable, hlog]
    exact h.told

/-- Every step keeps the invariant, as long as there are numbers left. -/
theorem numbered_step (h : Numbered past k) (step : Step)
    (hcap : 4 + (newTexts (texts (step :: past) k)).length ≤ greatestId + 1) : Numbered (step :: past) k := by
  cases step with
  | create => exact h.idle (table_create _ k) rfl
  | clone handle => exact h.idle (table_clone _ handle k) rfl
  | ask handle request =>
    have htable := table_ask past handle request k
    by_cases hk : (run past).handles[handle]? = some k
    · have hlists := h.lists.intern request.text
      have hlog : log (.ask handle request :: past) k =
          log past k ++ [(request, (((run past).table k).answer request).1)] := by
        rw [log, if_pos hk]
      have htexts : texts (.ask handle request :: past) k = texts past k ++ [request.text] := by
        simp [texts, hlog]
      have hsize : (((run past).table k).intern request.text).2.size ≤ greatestId + 1 := by
        have hnames := congrArg List.length hlists
        rw [htexts] at hcap
        simp only [Array.length_toList, List.length_append] at hnames
        rw [size, hnames]
        exact hcap
      have hanswer := answer_eq hsize (r := request) rfl
      rw [if_pos hk, hanswer] at htable
      constructor
      · rw [run, htable, htexts]
        exact hlists
      · rw [run, htable, hlog, hanswer]
        intro e he
        rcases List.mem_append.1 he with he | he
        · obtain ⟨id, hid, htold⟩ := h.told e he
          exact ⟨id, hid.intern _, htold⟩
        · obtain rfl := List.mem_singleton.1 he
          exact ⟨_, numbers_intern _ _, rfl⟩
    · rw [if_neg hk] at htable
      exact h.idle htable (by rw [log, if_neg hk])

/-- **Tables number texts in the order in which they were first asked for**, after every history. -/
theorem numbered_run (history : List Step) (k : Nat)
    (hcap : 4 + (newTexts (texts history k)).length ≤ greatestId + 1) : Numbered history k := by
  induction history with
  | nil => exact ⟨lists_initial, fun e he => by cases he⟩
  | cons step past ih =>
    have hle : (newTexts (texts past k)).length ≤ (newTexts (texts (step :: past) k)).length := by
      cases step with
      | create | clone => exact Nat.le_refl _
      | ask handle request =>
        rw [texts, texts, log]
        split
        · rw [List.map_append]
          exact (newTexts_append _ _).length_le
        · exact Nat.le_refl _
    exact numbered_step (ih (by omega)) step hcap

/-! ## What the answers say -/

/-- The texts of a table after a history, at the places of their numbers. -/
def order (history : List Step) (k : Nat) : List String :=
  reservedNames ++ newTexts (texts history k)

theorem Numbered.table_names (h : Numbered history k) (id : Nat) :
    ((run history).table k).names[id]? = (order history k)[id]? := by
  rw [order, ← h.lists, Array.getElem?_toList]

/-- A symbol that was answered carries the text and the number of the text. -/
theorem Numbered.symbol (h : Numbered history k) {r : Request} {s : Symbol} (he : (r, .symbol s) ∈ log history k) :
    s.name = r.text ∧ ((run history).table k).Numbers s.name s.id := by
  obtain ⟨id, hid, htold⟩ := h.told _ he
  cases r with
  | intern text | tryIntern text => cases htold
  | symbol text | dottedSymbol text =>
    obtain rfl := Answer.symbol.inj htold
    exact ⟨rfl, hid⟩

/-- Reserved texts have their numbers from the start. -/
theorem Numbered.reserved (h : Numbered history k) (id : Fin 4) :
    ((run history).table k).Numbers (Symbol.reserved id).name (Symbol.reserved id).id := by
  rw [numbers_iff_getElem?, h.table_names, order, List.getElem?_append_left (by exact id.isLt)]
  exact List.getElem?_eq_getElem _

/-- **Interning is a stable dense bijection.** Take any history of tables and their handles, in which some table is asked
for at most as many texts as there are numbers. The table lists the reserved texts and then the others in the order in
which they were first asked for, each at the place of its number, and all answers that it ever gave are read off this
list, so that equal texts, and no others, have equal numbers and equal symbols. -/
theorem numbers_of_requests (history : List Step) (k : Nat)
    (hcap : 4 + (newTexts (texts history k)).length ≤ greatestId + 1) :
    ((run history).table k).size = 4 + (newTexts (texts history k)).length ∧
    (∀ id, ((run history).table k).lookup id = (order history k)[id]?.getD "") ∧
    (∀ e ∈ log history k, ∃ id, e.2 = e.1.told id ∧ (order history k)[id]? = some e.1.text ∧
      ((run history).table k).lookup id = e.1.text ∧
      (∀ n, reservedNames[n]? = some e.1.text → id = n) ∧
      ∀ n, (newTexts (texts history k))[n]? = some e.1.text → id = 4 + n) ∧
    (∀ e ∈ log history k, ∀ e' ∈ log history k, e.2.id? = e'.2.id? ↔ e.1.text = e'.1.text) ∧
    (∀ r s r' s', (r, .symbol s) ∈ log history k → (r', .symbol s') ∈ log history k →
      (s.same s' = true ↔ s.name = s'.name)) ∧
    ∀ r s id, (r, .symbol s) ∈ log history k → r.text = (Symbol.reserved id).name →
      (Symbol.reserved id).same s = true := by
  have h := numbered_run history k hcap
  refine ⟨?_, fun id => ?_, fun e he => ?_, fun e he e' he' => ?_, fun r s r' s' he he' => ?_, fun r s id he htext => ?_⟩
  · rw [size, ← Array.length_toList, h.lists, List.length_append]
    rfl
  · rw [lookup, h.table_names]
  · obtain ⟨id, hid, htold⟩ := h.told e he
    have hplace : (order history k)[id]? = some e.1.text := by
      rw [← h.table_names]
      exact numbers_iff_getElem?.1 hid
    have hplaces : ∀ n, (order history k)[n]? = some e.1.text → id = n := by
      intro n hn
      rw [← h.table_names] at hn
      exact hid.unique (numbers_iff_getElem?.2 hn)
    refine ⟨id, htold, hplace, hid.lookup, fun n hn => hplaces n ?_, fun n hn => hplaces (4 + n) ?_⟩
    · rw [order, List.getElem?_append_left (List.getElem?_eq_some_iff.1 hn).1, hn]
    · rw [order, List.getElem?_append_right (by exact Nat.le_add_right 4 n), ← hn]
      exact congrArg _ (Nat.add_sub_cancel_left 4 n)
  · obtain ⟨id, hid, htold⟩ := h.told e he
    obtain ⟨id', hid', htold'⟩ := h.told e' he'
    rw [htold, htold', id?_told, id?_told, Option.some.injEq]
    constructor
    · rintro rfl
      exact hid.text_eq hid'
    · intro htext
      exact hid.unique (htext ▸ hid')
  · have hs := (h.symbol he).2
    have hs' := (h.symbol he').2
    rw [Symbol.same, beq_iff_eq]
    constructor
    · intro hid
      exact hs.text_eq (hid ▸ hs')
    · intro hname
      exact hs.unique (hname ▸ hs')
  · obtain ⟨hname, hs⟩ := h.symbol he
    rw [Symbol.same, beq_iff_eq]
    exact (h.reserved id).unique (htext ▸ hname ▸ hs)

/-- One table with two handles, asked through both for new, repeated and reserved texts. -/
theorem numbers_of_requests_two_handles :
    let history : List Step := [.ask 1 (.dottedSymbol "y"), .ask 0 (.tryIntern ".x"), .ask 1 (.symbol ".parent"),
      .ask 1 (.symbol ".x"), .ask 0 (.intern "y"), .clone 0, .create]
    4 + (newTexts (texts history 0)).length ≤ greatestId + 1 ∧ order history 0 = reservedNames ++ ["y", ".x"] ∧
    ((run history).table 0).size = 6 ∧ ((run history).table 0).lookup 6 = "" ∧
    ∀ e ∈ log history 0, ∀ e' ∈ log history 0, e.2.id? = e'.2.id? ↔ e.1.text = e'.1.text := by
  intro history
  have htexts : texts history 0 = ["y", ".x", ".parent", ".x", "y"] := rfl
  have hnew : newTexts (texts history 0) = ["y", ".x"] := by
    rw [htexts]
    decide
  have hcap : 4 + (newTexts (texts history 0)).length ≤ greatestId + 1 := by
    rw [hnew]
    decide
  obtain ⟨hsize, hlookup, -, htext, -, -⟩ := numbers_of_requests history 0 hcap
  have horder : order history 0 = reservedNames ++ ["y", ".x"] := by rw [order, hnew]
  refine ⟨hcap, horder, by rw [hsize, hnew]; rfl, ?_, htext⟩
  rw [hlookup, horder]
  rfl

end SharedTables

end Zygo
