import Zygo.Proofs.Lexer.Append

/-!
# Layout

Outside strings and comments an automaton is between tokens, inside an atom or undecided about `~` or `:`. Separators,
`;`, `$` and brackets do to it what the end of the input does, and only then what they do between tokens
(`step_of_settles`). So a piece of text that such a character starts may be replaced by another one as soon as both are
read alike between tokens (`lex_congr`).

* `lex_layout`: comments up to the end of a line, spaces beside brackets and the choice of separators change neither the
  tokens nor the error of a text.
-/

namespace Zygo

namespace Lexer

/-- Whether a mode is outside strings, raw strings and comments. -/
def Mode.isOutside : Mode → Bool
  | .normal | .unquote | .assign => true
  | .comment | .string | .escaped | .rawString => false

/-- Whether characters of a class settle what is unfinished outside strings and comments. -/
def CharClass.settles : CharClass → Bool
  | .separator | .comment | .dollar | .bracket _ => true
  | .colon | .quote | .caret | .tilde | .doubleQuote | .backtick | .plain => false

namespace Automaton

variable {a b : Automaton} {c : Char} {s t rest : List Char}

/-! ## Characters that settle -/

/-- A pending atom is completed before the character has its own effect. -/
theorem stepNormal_of_settles (hc : (CharClass.of c).settles) (a : Automaton) :
    a.stepNormal c = match a.flush with
      | .error stuck => .error stuck
      | .ok b => b.stepNormal c := by
  cases hf : a.flush with
  | error stuck =>
    unfold stepNormal
    cases h : CharClass.of c <;> simp_all [CharClass.settles, Except.map]
  | ok b =>
    have hb : b.flush = .ok b := flush_of_pending (flush_ok hf).1
    unfold stepNormal
    cases h : CharClass.of c <;> simp_all [CharClass.settles, Except.map]

theorem ne_of_settles (hc : (CharClass.of c).settles) : c ≠ '@' ∧ c ≠ '=' := by
  constructor <;> rintro rfl <;> cases hc

/-- Outside strings and comments the end of the input leaves nothing unfinished. -/
theorem isIdle_of_finish (hm : a.mode.isOutside) (ha : a.Tidy) (h : a.finish = .ok b) : b.isIdle := by
  rw [isIdle_iff]
  unfold finish at h
  split at h
  case h_1 hn =>
    obtain ⟨hp, hmode, -⟩ := flush_ok h
    exact ⟨hmode.trans hn, hp⟩
  case h_2 hn => rw [hn] at hm; cases hm
  case h_3 hn =>
    obtain rfl := Except.ok.inj h
    exact ⟨rfl, ha (.inr hn)⟩
  case h_4 =>
    cases hf : (a.enter .normal).flush with
    | error stuck => rw [hf] at h; cases h
    | ok d =>
      rw [hf] at h
      obtain rfl := Except.ok.inj h
      obtain ⟨hp, hmode, -⟩ := flush_ok hf
      exact ⟨hmode, hp⟩
  case h_5 | h_6 | h_7 => cases h

/-- Outside strings and comments such a character first does what the end of the input does. -/
theorem step_of_settles (hm : a.mode.isOutside) (hc : (CharClass.of c).settles) :
    a.step c = match a.finish with
      | .error stuck => .error stuck
      | .ok b => b.stepNormal c := by
  obtain ⟨hat, hequal⟩ := ne_of_settles hc
  unfold step finish
  cases hmode : a.mode with
  | normal => exact stepNormal_of_settles hc a
  | unquote => simp only [if_neg hat]; rfl
  | assign =>
    simp only [if_neg hequal]
    cases (a.enter .normal).flush <;> rfl
  | comment | string | escaped | rawString => rw [hmode] at hm; cases hm

theorem outcome_of_settles (hm : a.mode.isOutside) (ha : a.Tidy) (hc : (CharClass.of c).settles) :
    a.outcome (c :: s) = match a.finish with
      | .error stuck => .error stuck.error
      | .ok b => b.outcome (c :: s) := by
  have hstep := step_of_settles hm hc
  cases hf : a.finish with
  | error stuck => simp [outcome, advance, hstep, hf]
  | ok b =>
    have hb : b.step c = b.stepNormal c := by
      obtain ⟨hmode, -⟩ := isIdle_iff.1 (isIdle_of_finish hm ha hf)
      simp only [step, hmode]
    simp only [outcome, advance, hstep, hf, hb]

/-! ## Pieces of text -/

theorem outcome_append (a : Automaton) (s t : List Char) :
    a.outcome (s ++ t) = match a.readAll s with
      | .error stuck => .error stuck.error
      | .ok b => b.outcome t := by
  cases h : a.readAll s with
  | error stuck => exact (readAll_error h).append.outcome_eq
  | ok b => exact (readAll_ok h).append.outcome_eq

/-- Two pieces that idle automata read alike are alike outside strings and comments, if a character that settles starts
each of them. -/
theorem outcome_congr (hm : a.mode.isOutside) (ha : a.Tidy) (hs : ∃ c u, s = c :: u ∧ (CharClass.of c).settles)
    (ht : ∃ c u, t = c :: u ∧ (CharClass.of c).settles) (h : ∀ b : Automaton, b.isIdle → b.readAll s = b.readAll t)
    (rest : List Char) : a.outcome (s ++ rest) = a.outcome (t ++ rest) := by
  obtain ⟨c, u, rfl, hc⟩ := hs
  obtain ⟨d, v, rfl, hd⟩ := ht
  rw [List.cons_append, List.cons_append, outcome_of_settles hm ha hc, outcome_of_settles hm ha hd]
  cases hf : a.finish with
  | error stuck => rfl
  | ok b =>
    have hb := h b (isIdle_of_finish hm ha hf)
    simp only [← List.cons_append, outcome_append, hb]

/-! ## Layout between tokens -/

/-- The automaton some lines further down. -/
def down (a : Automaton) (lines : Nat) : Automaton :=
  { a with line := a.line + lines }

/-- Separators only count lines. -/
theorem readAll_separators (ha : a.isIdle) (hs : ∀ c ∈ s, CharClass.of c = .separator) :
    a.readAll s = .ok (a.down (s.count '\n')) := by
  induction s generalizing a with
  | nil => rfl
  | cons c s ih =>
    obtain ⟨hmode, hp⟩ := isIdle_iff.1 ha
    have hstep : a.step c = .ok a := by
      simp only [step, hmode, stepNormal, hs c List.mem_cons_self, flush_of_pending hp]
    have hdown : (a.down ([c].count '\n')).isIdle := ha
    rw [readAll, advance_of_step hstep]
    show (a.down ([c].count '\n')).readAll s = _
    rw [ih hdown fun d hd => hs d (List.mem_cons_of_mem _ hd), count_cons_add c s]
    simp [down, Nat.add_assoc]

/-- A comment is read up to its newline. -/
theorem readAll_comment (ha : a.mode = .comment) (hs : '\n' ∉ s) : a.readAll s = .ok a := by
  induction s with
  | nil => rfl
  | cons c s ih =>
    obtain ⟨hc, hs⟩ : '\n' ≠ c ∧ '\n' ∉ s := by simpa using hs
    have hstep : a.advance c = .ok a := by simp [advance, step, ha, hc.symm]
    rw [readAll, hstep]
    exact ih hs

/-- A comment with its newline only counts a line. -/
theorem readAll_commentLine (ha : a.isIdle) (hs : '\n' ∉ s) : a.readAll (';' :: s ++ ['\n']) = .ok (a.down 1) := by
  obtain ⟨hmode, hp⟩ := isIdle_iff.1 ha
  have hopen : a.advance ';' = .ok (a.enter .comment) := by
    simp [advance, step, hmode, stepNormal, CharClass.of, flush_of_pending hp, Except.map]
  have hclose : (a.enter .comment).readAll ['\n'] = .ok (a.down 1) := by
    simp [readAll, advance, step, enter, down, hmode]
  rw [List.cons_append, readAll, hopen]
  show (a.enter .comment).readAll (s ++ ['\n']) = _
  rw [readAll_append, readAll_comment rfl hs]
  exact hclose

/-- Brackets and `$` are tokens wherever they stand, with spaces beside them or without. -/
theorem readAll_spaced (ha : a.isIdle) (hc : c ∈ ['(', ')', '[', ']', '{', '}', '$']) :
    a.readAll [c] = a.readAll [' ', c, ' '] := by
  obtain ⟨mode, pending, ready, line⟩ := a
  obtain ⟨rfl, rfl⟩ := isIdle_iff.1 ha
  simp only [List.mem_cons, List.not_mem_nil, or_false] at hc
  rcases hc with rfl | rfl | rfl | rfl | rfl | rfl | rfl <;> rfl

end Automaton

open Automaton

/-! ## Texts -/

/-- A lexer that reads the text to its end fails, or it ends outside strings, raw strings and comments. -/
def EndsOutside (text : String) : Prop :=
  (initial.addText text).drain.error? = none → (initial.addText text).drain.lexer.automaton.mode.isOutside

instance : DecidablePred EndsOutside := fun _ => inferInstanceAs (Decidable (_ → _))

theorem EndsOutside.isOutside {text : String} (h : EndsOutside text) {a : Automaton}
    (ha : Automaton.initial.readAll text.toList = .ok a) : a.mode.isOutside := by
  have hd := drain_eq (initial.addText text)
  have hunread : (initial.addText text).unread = text.toList := unread_add initial (Source.ofString text)
  have hautomaton : (initial.addText text).automaton = Automaton.initial := automaton_add _ _
  rw [hunread, hautomaton, ha] at hd
  simp only at hd
  rw [EndsOutside, hd] at h
  exact h rfl

end Lexer

open Lexer Automaton

/-- Two pieces that are read alike between tokens are alike in every text, outside strings and comments. -/
theorem lex_congr {a b s t : String} (ha : EndsOutside a)
    (hs : ∃ c u, s.toList = c :: u ∧ (CharClass.of c).settles)
    (ht : ∃ c u, t.toList = c :: u ∧ (CharClass.of c).settles)
    (h : ∀ d : Automaton, d.isIdle → d.readAll s.toList = d.readAll t.toList) :
    lex (a ++ s ++ b) = lex (a ++ t ++ b) := by
  simp only [lex_eq_outcome, String.toList_append, List.append_assoc]
  rw [outcome_append, outcome_append]
  cases hread : Automaton.initial.readAll a.toList with
  | error stuck => rfl
  | ok d =>
    have htidy := (readAll_line tidy_initial hread).1
    exact outcome_congr (ha.isOutside hread) htidy hs ht h b.toList

/-- A non-empty run of separators starts with one. -/
theorem settles_of_separators {r : String} (hr : r ≠ "") (h : ∀ c ∈ r.toList, c ∈ ['\n', ',', ' ', '\t', '\r']) :
    ∃ c u, r.toList = c :: u ∧ (CharClass.of c).settles := by
  obtain ⟨c, u, hcons⟩ := List.exists_cons_of_ne_nil (l := r.toList) (by simpa using hr)
  refine ⟨c, u, hcons, ?_⟩
  have hc := h c (by simp [hcons])
  simp only [List.mem_cons, List.not_mem_nil, or_false] at hc
  rcases hc with rfl | rfl | rfl | rfl | rfl <;> rfl

theorem class_of_separator {c : Char} (h : c ∈ ['\n', ',', ' ', '\t', '\r']) : CharClass.of c = .separator := by
  simp only [List.mem_cons, List.not_mem_nil, or_false] at h
  rcases h with rfl | rfl | rfl | rfl | rfl <;> rfl

/-- **Layout does not matter outside literals.** Where a text fails or ends outside strings, raw strings and comments, a
comment before a newline, spaces beside a bracket or `$`, and the separators of a run, as long as there is one and the
newlines are as many, may be changed: the tokens are the same, or the error is, on the same line. -/
theorem lex_layout {a : String} (ha : EndsOutside a) (b : String) :
    (∀ c : String, '\n' ∉ c.toList → lex (a ++ ";" ++ c ++ "\n" ++ b) = lex (a ++ "\n" ++ b)) ∧
    (∀ d ∈ ['(', ')', '[', ']', '{', '}', '$'],
      lex (a ++ d.toString ++ b) = lex (a ++ " " ++ d.toString ++ " " ++ b)) ∧
    ∀ r₁ r₂ : String, r₁ ≠ "" → r₂ ≠ "" →
      (∀ c ∈ r₁.toList ++ r₂.toList, c ∈ ['\n', ',', ' ', '\t', '\r']) →
      r₁.toList.count '\n' = r₂.toList.count '\n' → lex (a ++ r₁ ++ b) = lex (a ++ r₂ ++ b) := by
  refine ⟨fun c hc => ?_, fun d hd => ?_, fun r₁ r₂ h₁ h₂ hsep hcount => ?_⟩
  · have hpiece : a ++ ";" ++ c ++ "\n" ++ b = a ++ (";" ++ c ++ "\n") ++ b := by simp only [String.append_assoc]
    rw [hpiece]
    refine lex_congr ha ⟨';', c.toList ++ ['\n'], by simp, rfl⟩ ⟨'\n', [], rfl, rfl⟩ fun e he => ?_
    have hcomment := readAll_commentLine he hc
    have hnewline := readAll_separators he (s := ['\n']) (by simp [CharClass.of])
    simpa [hnewline] using hcomment
  · have hpiece : a ++ " " ++ d.toString ++ " " ++ b = a ++ (" " ++ d.toString ++ " ") ++ b := by
      simp only [String.append_assoc]
    have hsettles : (CharClass.of d).settles := by
      simp only [List.mem_cons, List.not_mem_nil, or_false] at hd
      rcases hd with rfl | rfl | rfl | rfl | rfl | rfl | rfl <;> rfl
    rw [hpiece]
    refine lex_congr ha ⟨d, [], by simp, hsettles⟩ ⟨' ', [d, ' '], by simp, rfl⟩ fun e he => ?_
    simpa using readAll_spaced he hd
  · have hclass : ∀ c ∈ r₁.toList ++ r₂.toList, CharClass.of c = .separator := fun c hc => class_of_separator (hsep c hc)
    have hsep₁ := fun c hc => hsep c (List.mem_append_left _ hc)
    have hsep₂ := fun c hc => hsep c (List.mem_append_right _ hc)
    refine lex_congr ha (settles_of_separators h₁ hsep₁) (settles_of_separators h₂ hsep₂) fun e he => ?_
    rw [readAll_separators he fun c hc => hclass c (List.mem_append_left _ hc),
      readAll_separators he fun c hc => hclass c (List.mem_append_right _ hc), hcount]

/-- Behind an atom and an undecided `:`. -/
theorem lex_layout_undecided :
    EndsOutside "(f key:" ∧
      lex ("(f key:" ++ ";" ++ "(\"=" ++ "\n" ++ "=)") = lex ("(f key:" ++ "\n" ++ "=)") ∧
      lex ("(f key:" ++ "[" ++ "=)") = lex ("(f key:" ++ " " ++ "[" ++ " " ++ "=)") ∧
      lex ("(f key:" ++ "\n" ++ "0x)") = lex ("(f key:" ++ ", \n\t" ++ "0x)") ∧
      lex ("(f key:" ++ "\n" ++ "0x)") = .error ⟨.unrecognizedAtom "0x", 2⟩ := by
  have hends : EndsOutside "(f key:" := by decide
  obtain ⟨hcomment, hspaces, -⟩ := lex_layout hends "=)"
  obtain ⟨-, -, hruns⟩ := lex_layout hends "0x)"
  exact ⟨hends, hcomment "(\"=" (by decide), hspaces '[' (by decide),
    hruns "\n" ", \n\t" (by decide) (by decide) (by simp) (by decide), rfl⟩

end Zygo
