import Zygo.Command.Run
import Zygo.Proofs.Command.Flags

/-!
# Accepted configurations

What a draft holds is told by the words among the arguments that are no options, and by the expressions
(`Draft.Reflects`): every item that is taken keeps it so, in whatever order the items come. With what `validate` refuses,
an accepted configuration has just what its command needs.

* `input?_of_ofArgs`: where the input of an accepted configuration comes from, so that a listing always has one.
-/

namespace Zygo

namespace Config

variable {d d' : Draft} {args ws es : List String} {a w : String}

/-! ## Words and expressions -/

/-- The word that an item is, if it is no option. -/
def Item.word? : Item → Option String
  | .other a => if a.toList.head? = some '-' then none else some a
  | .expr _ => none
  | .bare => none

/-- The expression of an item. -/
def Item.expr? : Item → Option String
  | .expr text => some text
  | .bare => none
  | .other _ => none

/-- The words among the arguments that are no options, in order. An expression is none of them. -/
def words (args : List String) : List String :=
  (items args).filterMap Item.word?

/-- The expressions among the arguments, in order. -/
def exprs (args : List String) : List String :=
  (items args).filterMap Item.expr?

/-! ## What an argument does -/

theorem word_cases (h : d.word w = .ok d') :
    (d.command? = none ∧ w = "lex" ∧ d' = { d with command? := some .lex }) ∨
      (d.command? = none ∧ w = "repl" ∧ d' = { d with command? := some .repl }) ∨
      (d.command? = some .lex ∧ d.file? = none ∧ d' = { d with file? := some w }) := by
  unfold Draft.word at h
  split at h
  · rename_i hcommand
    split_ifs at h with hlex hrepl
    · exact .inl ⟨hcommand, hlex, (Except.ok.inj h).symm⟩
    · exact .inr (.inl ⟨hcommand, hrepl, (Except.ok.inj h).symm⟩)
  · rename_i hcommand hfile
    exact .inr (.inr ⟨hcommand, hfile, (Except.ok.inj h).symm⟩)
  · cases h

/-- An argument is a flag, asks for help or the version, or is a word that is no option. -/
theorem argument_cases (h : d.argument a = .ok d') :
    (∃ flag, a ∈ Flag.spellings flag ∧ d' = d.withFlag flag) ∨
      (∃ command, (command = .help ∨ command = .version) ∧ d' = { d with command? := some command }) ∨
      (a.toList.head? ≠ some '-' ∧ d.word a = .ok d') := by
  unfold Draft.argument at h
  split_ifs at h with hquiet hexit hhelp hversion hoption
  · exact .inl ⟨.quiet, by simpa [Flag.spellings] using hquiet, (Except.ok.inj h).symm⟩
  · exact .inl ⟨.exitOnFail, by simpa [Flag.spellings] using hexit, (Except.ok.inj h).symm⟩
  · exact .inr (.inl ⟨.help, .inl rfl, (Except.ok.inj h).symm⟩)
  · exact .inr (.inl ⟨.version, .inr rfl, (Except.ok.inj h).symm⟩)
  · exact .inr (.inr ⟨hoption, h⟩)

theorem head?_of_mem_spellings {flag : Flag} (h : a ∈ flag.spellings) : a.toList.head? = some '-' := by
  cases flag <;> simp only [Flag.spellings, List.mem_cons, List.not_mem_nil, or_false] at h <;>
    rcases h with rfl | rfl <;> rfl

/-! ## Drafts -/

/-- The command and the file of a draft are told by the words so far. Once help or the version is asked for, no word
counts. -/
def Draft.NamedBy (d : Draft) (ws : List String) : Prop :=
  match d.command? with
  | none => ws = [] ∧ d.file? = none
  | some .lex => ws = "lex" :: d.file?.toList
  | some .repl => d.file? = none
  | some .help => True
  | some .version => True

/-- A draft is told by the words and the expressions so far. -/
structure Draft.Reflects (d : Draft) (ws es : List String) : Prop where
  named : d.NamedBy ws
  expr : d.expr? = es.getLast?

theorem reflects_start : Draft.Reflects {} [] [] :=
  ⟨⟨rfl, rfl⟩, rfl⟩

theorem Draft.NamedBy.word (h : d.NamedBy ws) (hw : d.word w = .ok d') : d'.NamedBy (ws ++ [w]) := by
  rcases word_cases hw with ⟨hcommand, rfl, rfl⟩ | ⟨hcommand, rfl, rfl⟩ | ⟨hcommand, hfile, rfl⟩
  · rw [Draft.NamedBy, hcommand] at h
    obtain ⟨rfl, hfile⟩ := h
    simp [Draft.NamedBy, hfile]
  · rw [Draft.NamedBy, hcommand] at h
    exact h.2
  · rw [Draft.NamedBy, hcommand, hfile] at h
    simp [Draft.NamedBy, hcommand, h]

/-- Every item that is taken is reflected. -/
theorem Draft.Reflects.take (h : d.Reflects ws es) {item : Item} (ht : d.take item = .ok d') :
    d'.Reflects (ws ++ item.word?.toList) (es ++ item.expr?.toList) := by
  cases item with
  | expr text =>
    obtain rfl := Except.ok.inj ht
    refine ⟨?_, by simp [Item.expr?]⟩
    rw [Item.word?, Option.toList_none, List.append_nil]
    exact h.named
  | bare => cases ht
  | other a =>
    simp only [Item.expr?, Item.word?, Option.toList_none, List.append_nil]
    rcases argument_cases ht with ⟨flag, hflag, rfl⟩ | ⟨command, hcommand, rfl⟩ | ⟨hoption, hword⟩
    · rw [if_pos (head?_of_mem_spellings hflag), Option.toList_none, List.append_nil]
      cases flag <;> exact ⟨h.named, h.expr⟩
    · refine ⟨?_, h.expr⟩
      rcases hcommand with rfl | rfl <;> trivial
    · rw [if_neg hoption, Option.toList_some]
      refine ⟨h.named.word hword, ?_⟩
      rw [← h.expr]
      rcases word_cases hword with ⟨-, -, rfl⟩ | ⟨-, -, rfl⟩ | ⟨-, -, rfl⟩ <;> rfl

theorem Draft.Reflects.foldlM (h : d.Reflects ws es) {l : List Item} (hl : l.foldlM Draft.take d = .ok d') :
    d'.Reflects (ws ++ l.filterMap Item.word?) (es ++ l.filterMap Item.expr?) := by
  induction l generalizing d ws es with
  | nil =>
    obtain rfl := Except.ok.inj hl
    simpa using h
  | cons item l ih =>
    rw [List.foldlM_cons] at hl
    cases ht : d.take item with
    | error e =>
      rw [ht] at hl
      cases hl
    | ok next =>
      rw [ht] at hl
      have hrest := ih (h.take ht) hl
      have hsplit : ∀ f : Item → Option String, (item :: l).filterMap f = (f item).toList ++ l.filterMap f := by
        intro f
        rw [List.filterMap_cons]
        cases f item <;> rfl
      rwa [hsplit, hsplit, ← List.append_assoc, ← List.append_assoc]

/-- **A draft reflects the arguments that it was read from.** -/
theorem reflects_read (h : Draft.read {} args = .ok d) : d.Reflects (words args) (exprs args) := by
  rw [read_eq_foldlM] at h
  exact reflects_start.foldlM h

/-! ## Configurations -/

theorem ofArgs_eq_ok {c : Config} (h : ofArgs args = .ok c) :
    ∃ d, Draft.read {} args = .ok d ∧ c = d.settle ∧ c.validate = .ok () := by
  unfold ofArgs at h
  split at h
  · cases h
  · rename_i d hread
    split at h
    · cases h
    · rename_i hvalid
      obtain rfl := Except.ok.inj h
      exact ⟨d, hread, rfl, hvalid⟩

/-- What a listing is of: the only word behind `lex`, or the last expression. -/
def ListsOneInput (c : Config) (ws es : List String) : Prop :=
  (∃ path, ws = ["lex", path] ∧ es = [] ∧ c.file? = some path ∧ c.expr? = none ∧ c.input? = some (.file path)) ∨
    ∃ text, (ws = ["lex"] ∨ ws = []) ∧ es.getLast? = some text ∧
      c.file? = none ∧ c.expr? = some text ∧ c.input? = some (.text text)

/-- A draft that is settled and not refused has just what its command needs. -/
theorem Draft.Reflects.settle (h : d.Reflects ws es) (hvalid : d.settle.validate = .ok ()) :
    (d.settle.command = .lex → d.settle.ListsOneInput ws es) ∧
      (d.settle.command = .repl → d.settle.file? = none ∧ d.settle.expr? = none) := by
  obtain ⟨hnamed, hexpr⟩ := h
  obtain ⟨command?, file?, expr?, quiet, exitOnFail⟩ := d
  cases command? with
  | none =>
    obtain ⟨rfl, rfl⟩ : ws = [] ∧ file? = none := hnamed
    cases expr? with
    | none => exact ⟨nofun, fun _ => ⟨rfl, rfl⟩⟩
    | some text => exact ⟨fun _ => .inr ⟨text, .inr rfl, hexpr.symm, rfl, rfl, rfl⟩, nofun⟩
  | some command =>
    cases command with
    | lex =>
      obtain rfl : ws = "lex" :: file?.toList := hnamed
      refine ⟨fun _ => ?_, nofun⟩
      cases file? with
      | none =>
        cases expr? with
        | none => cases hvalid
        | some text => exact .inr ⟨text, .inl rfl, hexpr.symm, rfl, rfl, rfl⟩
      | some path =>
        cases expr? with
        | none => exact .inl ⟨path, rfl, List.getLast?_eq_none_iff.1 hexpr.symm, rfl, rfl, rfl⟩
        | some text => cases hvalid
    | repl =>
      obtain rfl : file? = none := hnamed
      refine ⟨nofun, fun _ => ?_⟩
      cases expr? with
      | none => exact ⟨rfl, rfl⟩
      | some text => cases hvalid
    | help | version => exact ⟨nofun, nofun⟩

theorem input?_of_ne_lex {c : Config} (h : c.command ≠ .lex) : c.input? = none := by
  unfold input?
  split <;> simp_all

theorem ListsOneInput.input? {c : Config} (h : c.ListsOneInput ws es) : ∃ input, c.input? = some input := by
  rcases h with ⟨path, -, -, -, -, hinput⟩ | ⟨text, -, -, -, -, hinput⟩
  · exact ⟨_, hinput⟩
  · exact ⟨_, hinput⟩

end Config

namespace Command

open Config

/-! ## Runs -/

theorem code_runText (text : String) (exitOnFail : Bool) : (runText text exitOnFail).code ≠ 2 := by
  unfold runText
  split
  · simp
  · split <;> simp

theorem code_runLex (input : Input) (exitOnFail : Bool) (read : String → Except FileError String) :
    (runLex input exitOnFail read).code ≠ 2 := by
  unfold runLex
  split
  · exact code_runText _ _
  · split
    · exact code_runText _ _
    · simp

theorem code_runRepl (input : List UInt8) (quiet exitOnFail : Bool) : (runRepl input quiet exitOnFail).code ≠ 2 := by
  unfold runRepl
  split <;> simp

variable {args : List String} {c : Config}

/-- An accepted configuration that lists is run as the listing of its input. -/
theorem run_lex (h : ofArgs args = .ok c) (hcommand : c.command = .lex) {source : Zygo.Input}
    (hinput : c.input? = some source) (input : List UInt8) (read : String → Except FileError String) :
    run args input read = runLex source c.exitOnFail read := by
  simp only [run, h, hcommand, hinput]

/-- **An accepted configuration can be run.** If arguments are accepted, then a listing has either a file or an expression
and is of that one: the file is the only word behind `lex` that is no option, and the expression is the last one; the loop
over lines has neither; and only a listing has an input.

So a listing always has its input, and no run of an accepted configuration ends with code 2, as it would for want of an
input. -/
theorem input?_of_ofArgs (h : ofArgs args = .ok c) :
    (c.command = .lex → c.ListsOneInput (words args) (exprs args)) ∧
      (c.command = .repl → c.file? = none ∧ c.expr? = none) ∧
      (c.command ≠ .lex → c.input? = none) ∧
      (c.command = .lex → ∃ source, c.input? = some source ∧
        ∀ input read, run args input read = runLex source c.exitOnFail read) ∧
      ∀ input read, (run args input read).code ≠ 2 := by
  obtain ⟨d, hread, rfl, hvalid⟩ := ofArgs_eq_ok h
  obtain ⟨hlex, hrepl⟩ := (reflects_read hread).settle hvalid
  have hsource : d.settle.command = .lex → ∃ source, d.settle.input? = some source ∧
      ∀ input read, run args input read = runLex source d.settle.exitOnFail read := by
    intro hcommand
    obtain ⟨source, hinput⟩ := (hlex hcommand).input?
    exact ⟨source, hinput, run_lex h hcommand hinput⟩
  refine ⟨hlex, hrepl, input?_of_ne_lex, hsource, ?_⟩
  intro input read
  cases hcommand : d.settle.command with
  | lex =>
    obtain ⟨source, -, hrun⟩ := hsource hcommand
    rw [hrun]
    exact code_runLex source _ read
  | repl =>
    simp only [run, h, hcommand]
    exact code_runRepl input _ _
  | help | version =>
    simp only [run, h, hcommand]
    decide

/-- The command may come behind the expressions, of which the last one counts, and help may be asked for behind a file. -/
theorem input?_of_ofArgs_late :
    ofArgs ["-c", "lex", "lex", "-c", "help"] = .ok { command := .lex, expr? := some "help" } ∧
      words ["-c", "lex", "lex", "-c", "help"] = ["lex"] ∧
      (exprs ["-c", "lex", "lex", "-c", "help"]).getLast? = some "help" ∧
      (∀ input read, run ["-c", "lex", "lex", "-c", "help"] input read = runLex (.text "help") false read) ∧
      ofArgs ["lex", "repl", "help"] = .ok { command := .help, file? := some "repl" } ∧
      ({ command := .help, file? := some "repl" } : Config).input? = none := by
  have hexpr : ofArgs ["-c", "lex", "lex", "-c", "help"] = .ok { command := .lex, expr? := some "help" } := rfl
  have hhelp : ofArgs ["lex", "repl", "help"] = .ok { command := .help, file? := some "repl" } := rfl
  obtain ⟨-, -, -, hrun, -⟩ := input?_of_ofArgs hexpr
  obtain ⟨-, -, hnone, -, -⟩ := input?_of_ofArgs hhelp
  obtain ⟨source, hsource, hlex⟩ := hrun rfl
  obtain rfl : Input.text "help" = source := Option.some.inj hsource
  exact ⟨hexpr, rfl, rfl, hlex, hhelp, hnone (by decide)⟩

end Command

end Zygo
