import Mathlib.Tactic.SplitIfs
import Zygo.Command.Config

/-!
# Flags among the arguments

Arguments come in three roles (`Config.items`): an expression with the `-c` before it, a `-c` with nothing behind it, and
any other argument. Reading takes one item after the other (`read_eq_foldlM`). A flag changes its field of the draft and
nothing else, and commutes with every other item (`take_withFlag`), so it does not matter where it stands.

* `ofArgs_flags`: a flag sets its field wherever it is put, and nothing else depends on flags.
-/

namespace Zygo.Config

variable {d : Draft} {args xs : List String} {a word : String}

/-! ## Items -/

/-- One or two arguments in their role. -/
inductive Item where
  /-- A `-c` and the expression behind it. -/
  | expr (text : String)
  /-- A `-c` with nothing behind it. -/
  | bare
  /-- Any other argument. -/
  | other (a : String)

/-- The arguments in their roles. -/
def items : List String → List Item
  | [] => []
  | a :: args =>
    if a = "-c" then
      match args with
      | [] => [.bare]
      | text :: args => .expr text :: items args
    else .other a :: items args

/-- Takes one item. -/
def Draft.take (d : Draft) : Item → Except ConfigError Draft
  | .expr text => .ok { d with expr? := some text }
  | .bare => .error .missingExpr
  | .other a => d.argument a

theorem items_other (h : a ≠ "-c") (args : List String) : items (a :: args) = .other a :: items args := by
  rw [items.eq_def]
  exact if_neg h

theorem read_other (d : Draft) (h : a ≠ "-c") (args : List String) :
    d.read (a :: args) = (d.argument a).bind (·.read args) := by
  rw [Draft.read.eq_def]
  simp only [if_neg h]
  cases d.argument a <;> rfl

theorem read_eq_foldlM (d : Draft) (args : List String) : d.read args = (items args).foldlM Draft.take d := by
  fun_induction Draft.read d args with
  | case1 d => rfl
  | case2 d => rfl
  | case3 d expr args ih => exact ih
  | case4 d a args ha e harg =>
    rw [items_other ha, List.foldlM_cons, Draft.take, harg]
    rfl
  | case5 d a args ha d' harg ih =>
    rw [items_other ha, List.foldlM_cons, Draft.take, harg]
    exact ih

/-! ## Arguments that go on -/

/-- The arguments end in a `-c` that waits for its expression: those before it are taken, and none of them waits. -/
def Waits (args : List String) : Prop :=
  ∃ before d, args = before ++ ["-c"] ∧ Draft.read {} before = .ok d

theorem argument_ne_missingExpr (d : Draft) (a : String) : d.argument a ≠ .error .missingExpr := by
  unfold Draft.argument Draft.word
  repeat' split
  all_goals simp

/-- Only a `-c` that waits makes an expression missing. -/
theorem waits_of_missingExpr (h : d.read args = .error .missingExpr) :
    ∃ before d', args = before ++ ["-c"] ∧ d.read before = .ok d' := by
  fun_induction Draft.read d args with
  | case1 d => cases h
  | case2 d => exact ⟨[], d, rfl, rfl⟩
  | case3 d expr args ih =>
    obtain ⟨before, d', rfl, hread⟩ := ih h
    exact ⟨"-c" :: expr :: before, d', rfl, hread⟩
  | case4 d a args ha e harg =>
    obtain rfl := Except.error.inj h
    exact absurd harg (argument_ne_missingExpr d a)
  | case5 d a args ha d₁ harg ih =>
    obtain ⟨before, d', rfl, hread⟩ := ih h
    refine ⟨a :: before, d', rfl, ?_⟩
    rw [read_other d ha, harg]
    exact hread

/-- If none of the arguments waits, those behind them are read as they would be without them. -/
theorem read_append (h : d.read xs ≠ .error .missingExpr) (ys : List String) :
    d.read (xs ++ ys) = (d.read xs).bind (·.read ys) := by
  fun_induction Draft.read d xs with
  | case1 d => rfl
  | case2 d => exact absurd rfl h
  | case3 d expr args ih => exact ih h
  | case4 d a args ha e harg =>
    rw [List.cons_append, read_other d ha, harg]
    rfl
  | case5 d a args ha d' harg ih =>
    rw [List.cons_append, read_other d ha, harg]
    exact ih h

/-! ## Flags -/

/-- What may be asked for besides a command. -/
inductive Flag where
  /-- No greeting and no prompts. -/
  | quiet
  /-- The first error ends the listing. -/
  | exitOnFail
  deriving DecidableEq

/-- The words for a flag. -/
def Flag.spellings : Flag → List String
  | quiet => ["--quiet", "-quiet"]
  | exitOnFail => ["--exitonfail", "-exitonfail"]

/-- The configuration with the field of a flag set. -/
def withFlag (c : Config) : Flag → Config
  | .quiet => { c with quiet := true }
  | .exitOnFail => { c with exitOnFail := true }

/-- The draft with the field of a flag set. -/
def Draft.withFlag (d : Draft) : Flag → Draft
  | .quiet => { d with quiet := true }
  | .exitOnFail => { d with exitOnFail := true }

/-- The draft with the fields of some flags set. -/
def Draft.withFlags (d : Draft) (flags : List Flag) : Draft :=
  flags.foldr (fun flag d => d.withFlag flag) d

/-- The flag that an item is. -/
def Item.flag? : Item → Option Flag
  | .other a =>
    if a ∈ Flag.quiet.spellings then some .quiet else if a ∈ Flag.exitOnFail.spellings then some .exitOnFail else none
  | .expr _ => none
  | .bare => none

/-- The flags among the arguments. An expression is none. -/
def flags (args : List String) : List Flag :=
  (items args).filterMap Item.flag?

/-- The arguments without the flags among them. -/
def withoutFlags (args : List String) : List Item :=
  (items args).filter fun item => item.flag?.isNone

theorem argument_flag (d : Draft) {flag : Flag} (h : word ∈ flag.spellings) : d.argument word = .ok (d.withFlag flag) := by
  cases flag <;> simp only [Flag.spellings, List.mem_cons, List.not_mem_nil, or_false] at h <;>
    rcases h with rfl | rfl <;> rfl

theorem mem_spellings_of_flag? {a : String} {flag : Flag} (h : (Item.other a).flag? = some flag) :
    a ∈ flag.spellings := by
  simp only [Item.flag?] at h
  split at h
  · obtain rfl := Option.some.inj h
    assumption
  · split at h
    · obtain rfl := Option.some.inj h
      assumption
    · cases h

/-- A flag sets its field, and nothing else. -/
theorem take_of_flag? {item : Item} {flag : Flag} (d : Draft) (h : item.flag? = some flag) :
    d.take item = .ok (d.withFlag flag) := by
  cases item with
  | other a => exact argument_flag d (mem_spellings_of_flag? h)
  | expr | bare => cases h

theorem word_withFlag (d : Draft) (flag : Flag) (w : String) :
    (d.withFlag flag).word w = (d.word w).map (·.withFlag flag) := by
  obtain ⟨command?, file?, expr?, quiet, exitOnFail⟩ := d
  cases command? with
  | none =>
    cases flag <;> simp only [Draft.word, Draft.withFlag] <;> split_ifs <;> rfl
  | some command => cases flag <;> cases command <;> cases file? <;> rfl

/-- It does not matter to any item whether a flag has been taken before or is taken afterwards. -/
theorem take_withFlag (d : Draft) (flag : Flag) (item : Item) :
    (d.withFlag flag).take item = (d.take item).map (·.withFlag flag) := by
  cases item with
  | expr text => cases flag <;> rfl
  | bare => rfl
  | other a =>
    simp only [Draft.take, Draft.argument]
    split_ifs
    · cases flag <;> rfl
    · cases flag <;> rfl
    · cases flag <;> rfl
    · cases flag <;> rfl
    · rfl
    · exact word_withFlag d flag a

theorem foldlM_withFlag (d : Draft) (flag : Flag) (l : List Item) :
    l.foldlM Draft.take (d.withFlag flag) = (l.foldlM Draft.take d).map (·.withFlag flag) := by
  induction l generalizing d with
  | nil => rfl
  | cons item l ih =>
    rw [List.foldlM_cons, List.foldlM_cons, take_withFlag]
    cases d.take item with
    | error e => rfl
    | ok d => exact ih d

theorem read_withFlag (d : Draft) (flag : Flag) (args : List String) :
    (d.withFlag flag).read args = (d.read args).map (·.withFlag flag) := by
  rw [read_eq_foldlM, read_eq_foldlM, foldlM_withFlag]

/-- The flags among the items can be taken at the end. -/
theorem foldlM_flags (d : Draft) (l : List Item) :
    l.foldlM Draft.take d =
      ((l.filter fun item => item.flag?.isNone).foldlM Draft.take d).map (·.withFlags (l.filterMap Item.flag?)) := by
  induction l generalizing d with
  | nil => rfl
  | cons item l ih =>
    cases hflag : item.flag? with
    | some flag =>
      rw [List.foldlM_cons, take_of_flag? d hflag, List.filter_cons_of_neg (by simp [hflag]),
        List.filterMap_cons_some hflag]
      have hrest : l.foldlM Draft.take (d.withFlag flag) = (l.foldlM Draft.take d).map (·.withFlag flag) :=
        foldlM_withFlag d flag l
      rw [ih d] at hrest
      refine hrest.trans ?_
      cases (l.filter fun item => item.flag?.isNone).foldlM Draft.take d <;> rfl
    | none =>
      rw [List.foldlM_cons, List.filter_cons_of_pos (by simp [hflag]), List.filterMap_cons_none hflag, List.foldlM_cons]
      cases d.take item with
      | error e => rfl
      | ok d => exact ih d

/-- Only which flags are set matters, not how often or in which order. -/
theorem withFlags_eq (d : Draft) (flags : List Flag) :
    d.withFlags flags =
      { d with
        quiet := d.quiet || decide (.quiet ∈ flags)
        exitOnFail := d.exitOnFail || decide (.exitOnFail ∈ flags) } := by
  induction flags with
  | nil => simp [Draft.withFlags]
  | cons flag flags ih =>
    have hcons : d.withFlags (flag :: flags) = (d.withFlags flags).withFlag flag := rfl
    rw [hcons, ih]
    cases flag <;> simp [Draft.withFlag]

/-! ## Configurations -/

theorem settle_withFlag (d : Draft) (flag : Flag) : (d.withFlag flag).settle = d.settle.withFlag flag := by
  cases flag <;> rfl

theorem validate_withFlag (c : Config) (flag : Flag) : (c.withFlag flag).validate = c.validate := by
  cases flag <;> rfl

/-- A flag sets its field in the configuration, wherever it is put. -/
theorem ofArgs_insert {flag : Flag} (hword : word ∈ flag.spellings) (h : ¬Waits xs) (ys : List String) :
    ofArgs (xs ++ word :: ys) = (ofArgs (xs ++ ys)).map (·.withFlag flag) := by
  have hxs : Draft.read {} xs ≠ .error .missingExpr := fun hmissing => h (waits_of_missingExpr hmissing)
  have hne : word ≠ "-c" := by
    rintro rfl
    cases flag <;> simp [Flag.spellings] at hword
  have hread : Draft.read {} (xs ++ word :: ys) = (Draft.read {} (xs ++ ys)).map (·.withFlag flag) := by
    rw [read_append hxs, read_append hxs]
    cases Draft.read {} xs with
    | error e => rfl
    | ok d =>
      change d.read (word :: ys) = (d.read ys).map (·.withFlag flag)
      rw [read_other d hne, argument_flag d hword]
      exact read_withFlag d flag ys
  rw [ofArgs, ofArgs, hread]
  cases Draft.read {} (xs ++ ys) with
  | error e => rfl
  | ok d =>
    simp only [Except.map, settle_withFlag, validate_withFlag]
    cases d.settle.validate <;> rfl

/-- **Flags may stand anywhere.** Take any arguments, and put a flag at any place among them where no `-c` waits for its
expression. If the arguments are refused without it, they are refused with it for the same reason; else they ask for the
same with the field of the flag set.

So it does not matter where flags stand and how often: arguments that are the same but for the flags among them, and among
which there are the same flags, ask for the same or are refused for the same reason. -/
theorem ofArgs_flags :
    (∀ xs ys flag word, word ∈ Flag.spellings flag → ¬Waits xs →
      ofArgs (xs ++ word :: ys) = (ofArgs (xs ++ ys)).map (·.withFlag flag)) ∧
    ∀ args args', withoutFlags args = withoutFlags args' → (∀ flag, flag ∈ flags args ↔ flag ∈ flags args') →
      ofArgs args = ofArgs args' := by
  refine ⟨fun xs ys flag word hword hxs => ofArgs_insert hword hxs ys, ?_⟩
  intro args args' hitems hflags
  have hread : ∀ args, Draft.read {} args =
      ((withoutFlags args).foldlM Draft.take {}).map (·.withFlags (flags args)) := by
    intro args
    rw [read_eq_foldlM, foldlM_flags]
    rfl
  have hsame : Draft.read {} args = Draft.read {} args' := by
    rw [hread, hread, hitems]
    simp only [withFlags_eq, hflags]
  rw [ofArgs, ofArgs, hsame]

/-- The word behind `-c` is an expression even if it is that of a flag; behind it flags count again. -/
theorem ofArgs_flags_expression :
    "-quiet" ∈ Flag.quiet.spellings ∧ ¬Waits ["-c", "--quiet"] ∧
      ofArgs ["-c", "--quiet", "-quiet", "lex"] =
        .ok { command := .lex, expr? := some "--quiet", quiet := true } ∧
      withoutFlags ["--quiet", "repl", "-quiet"] = withoutFlags ["repl", "--quiet"] ∧
      (∀ flag, flag ∈ flags ["--quiet", "repl", "-quiet"] ↔ flag ∈ flags ["repl", "--quiet"]) ∧
      ofArgs ["--quiet", "repl", "-quiet"] = ofArgs ["repl", "--quiet"] := by
  have hword : "-quiet" ∈ Flag.quiet.spellings := by decide
  have hwaits : ¬Waits ["-c", "--quiet"] := by
    rintro ⟨before, d, hargs, -⟩
    have hlast := congrArg List.getLast? hargs
    rw [List.getLast?_concat] at hlast
    simp at hlast
  have hitems : withoutFlags ["--quiet", "repl", "-quiet"] = withoutFlags ["repl", "--quiet"] := rfl
  have hflags : ∀ flag, flag ∈ flags ["--quiet", "repl", "-quiet"] ↔ flag ∈ flags ["repl", "--quiet"] := by
    intro flag
    simp [flags, items, Item.flag?, Flag.spellings]
  obtain ⟨hinsert, hsame⟩ := ofArgs_flags
  refine ⟨hword, hwaits, ?_, hitems, hflags, hsame _ _ hitems hflags⟩
  exact (hinsert ["-c", "--quiet"] ["lex"] .quiet "-quiet" hword hwaits).trans rfl

end Zygo.Config
