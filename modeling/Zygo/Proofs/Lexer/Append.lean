import Zygo.Proofs.Lexer.Drain

/-!
# Texts behind one another

A newline completes what the end of the input would complete: a pending atom, an undecided `~` or `:`, a comment. So
behind a text that has tokens and a newline, an automaton is idle, and an idle automaton differs from one before any
input in its ready tokens and in its line only.

* `advance_newline_of_finish`: a newline makes the same tokens ready as the end of the input does.
* `outcome_of_isIdle`: an idle automaton reads what is left as if nothing stood before it.
* `run_reaches` and `pull_reaches`: calls on a lexer read ahead, and the tokens taken are what it has made ready.
* `lex_append`: a text behind a newline, or behind a text that leaves the lexer idle, is lexed by itself.
-/

namespace Zygo

namespace Lexer

namespace Automaton

variable {a b : Automaton} {s rest : List Char} {ts us : List Token}

/-! ## Idle automata -/

theorem isIdle_iff : a.isIdle = true ↔ a.mode = .normal ∧ a.pending = "" := by
  simp [isIdle]

/-- An idle automaton is one before any input, behind the tokens that are ready. -/
theorem eq_behind_of_isIdle (h : a.isIdle) {lines : Nat} (hline : a.line = lines + 1) :
    a = initial.behind a.ready lines := by
  obtain ⟨mode, pending, ready, line⟩ := a
  obtain ⟨rfl, rfl⟩ := isIdle_iff.1 h
  obtain rfl : line = lines + 1 := hline
  simp [behind, initial]

/-- The end of the input completes nothing for an idle automaton. -/
theorem finish_of_isIdle (h : a.isIdle) : a.finish = .ok a := by
  obtain ⟨hm, hp⟩ := isIdle_iff.1 h
  simp [finish, hm, flush_of_pending hp]

/-- **An idle automaton reads what is left as if nothing stood before it**: the tokens that are ready stand in front, and
an error is as many lines further down as have been read. -/
theorem outcome_of_isIdle (h : a.isIdle) {lines : Nat} (hline : a.line = lines + 1) (text : List Char) :
    a.outcome text =
      match initial.outcome text with
      | .ok us => .ok (a.ready.toList ++ us)
      | .error e => .error (e.shift lines) := by
  have ha := eq_behind_of_isIdle h hline
  have hb := outcome_behind a.ready lines initial text
  rwa [← ha] at hb

/-! ## Newlines -/

theorem step_of_flush (hm : a.mode = .normal) (h : a.flush = .ok b) : a.step '\n' = .ok b ∧ b.isIdle := by
  obtain ⟨hp, hmode, -⟩ := flush_ok h
  constructor
  · have hstep : a.step '\n' = a.flush := by
      simp only [step, hm]
      rfl
    rw [hstep, h]
  · exact isIdle_iff.2 ⟨hmode.trans hm, hp⟩

/-- A newline makes ready what the end of the input makes ready, and leaves nothing unfinished. -/
theorem step_newline_of_finish (ha : a.Tidy) (h : a.finish = .ok b) :
    ∃ d, a.step '\n' = .ok d ∧ d.isIdle ∧ d.ready = b.ready := by
  have hnewline : ∀ d : Automaton, d.pending = "" → d.stepNormal '\n' = .ok d := fun d hd => flush_of_pending hd
  unfold finish at h
  split at h
  case h_1 hm =>
    obtain ⟨hstep, hidle⟩ := step_of_flush hm h
    exact ⟨b, hstep, hidle, rfl⟩
  case h_2 hm =>
    obtain rfl := Except.ok.inj h
    have hp := ha (.inl hm)
    refine ⟨a.enter .normal, ?_, isIdle_iff.2 ⟨rfl, hp⟩, rfl⟩
    simp [step, hm]
  case h_3 hm =>
    obtain rfl := Except.ok.inj h
    have hp := ha (.inr hm)
    refine ⟨(a.emit (.bare .tilde)).enter .normal, ?_, isIdle_iff.2 ⟨rfl, hp⟩, rfl⟩
    simp only [step, hm]
    rw [if_neg (by decide)]
    exact hnewline _ hp
  case h_4 hm =>
    cases hf : (a.enter .normal).flush with
    | error stuck =>
      rw [hf] at h
      cases h
    | ok d =>
      rw [hf] at h
      obtain rfl := Except.ok.inj h
      obtain ⟨hp, hmode, -⟩ := flush_ok hf
      refine ⟨d.emit (.bare .colon), ?_, isIdle_iff.2 ⟨hmode, hp⟩, rfl⟩
      simp only [step, hm, hf]
      rw [if_neg (by decide)]
      exact hnewline _ hp
  case h_5 | h_6 | h_7 => cases h

/-- A newline in the place of the end of the input: the same tokens are ready, nothing is unfinished, and the line has
been counted. -/
theorem advance_newline_of_finish (ha : a.Tidy) (h : a.finish = .ok b) :
    ∃ d, a.advance '\n' = .ok d ∧ d.isIdle ∧ d.ready = b.ready ∧ d.line = a.line + 1 := by
  obtain ⟨d, hstep, hidle, hready⟩ := step_newline_of_finish ha h
  have hadvance := advance_of_step hstep
  obtain ⟨-, hline⟩ := advance_ok ha hadvance
  exact ⟨_, hadvance, hidle, hready, hline⟩

/-! ## Reading behind tokens -/

theorem behind_behind (ts us : List Token) (a : Automaton) :
    (a.behind us.toArray 0).behind ts.toArray 0 = a.behind (ts ++ us).toArray 0 := by
  simp [behind, ← Array.append_assoc]

theorem behind_nil (a : Automaton) : a.behind #[] 0 = a := by
  simp [behind]

/-- Tokens that are ready do not keep an automaton from reading ahead. -/
theorem Reaches.behind (h : Reaches a s b rest) (before : Array Token) (lines : Nat) :
    Reaches (a.behind before lines) s (b.behind before lines) rest := by
  induction h with
  | refl => exact .refl _ _
  | step hc _ ih =>
    refine .step ?_ ih
    rw [advance_behind, hc]
    rfl

end Automaton

open Automaton

/-! ## Calls that succeed -/

section Calls

variable {l l' : Lexer} {t : Token} {ts us : List Token} {calls : List Call}

/-- When filling makes tokens ready, the first of them is the next one. -/
theorem next_of_ready {mode : Mode} {pending : String} {line : Nat} {active : Source} {queued : List Source}
    (h : fill l.automaton l.active l.queued = .ok ⟨⟨mode, pending, (t :: ts).toArray, line⟩, active, queued⟩) :
    l.next = .ok (t, ⟨⟨mode, pending, ts.toArray, line⟩, active, queued⟩) := by
  simp [next, peek, h, Array.eraseIdxIfInBounds]

theorem pull_of_next (h : l.next = .ok (t, l')) :
    l.pull = if t.isEnd then .ok ([], l') else l'.pull.map fun (ts, last) => (t :: ts, last) := by
  rw [pull]
  split
  · rename_i hn
    rw [h] at hn
    cases hn
  · rename_i hn
    rw [h] at hn
    cases hn
    split <;> rfl

theorem next_reaches (hl : l.automaton.Proper) (h : l.next = .ok (t, l')) (ht : t.isEnd) :
    Reaches l.automaton l.unread l'.automaton [] := by
  rcases next_ok h with hr | ⟨-, -, -, hr⟩
  · have hproper := (proper_behind.1 (hr.proper hl)).1 t (by simp)
    rw [hproper] at ht
    cases ht
  · exact hr

theorem next_reaches_token (h : l.next = .ok (t, l')) (ht : ¬t.isEnd) :
    Reaches l.automaton l.unread (l'.automaton.behind #[t] 0) l'.unread := by
  rcases next_ok h with hr | ⟨rfl, -⟩
  · exact hr
  · exact absurd rfl ht

/-- Calls read ahead in what waits and what they add, and the tokens taken are what has been made ready by then. -/
theorem run_reaches (hl : l.automaton.Proper) (h : l.run calls = .ok (ts, l')) :
    Reaches l.automaton (l.unread ++ (Call.added calls).toList) (l'.automaton.behind ts.toArray 0) l'.unread := by
  induction calls generalizing l ts with
  | nil =>
    obtain ⟨rfl, rfl⟩ := Prod.mk.inj (Except.ok.inj h)
    rw [behind_nil]
    simpa [Call.added] using Reaches.refl l.automaton l.unread
  | cons call calls ih =>
    cases call with
    | add text =>
      have hp : (l.addText text).automaton.Proper := by rwa [addText, automaton_add]
      have hr := ih hp h
      rw [addText, automaton_add, unread_add, Source.rest_ofString, List.append_assoc] at hr
      rwa [Call.added, String.toList_append]
    | peek =>
      rw [run] at h
      cases hd : l.peek with
      | error stuck => simp [hd] at h
      | ok p =>
        rw [hd] at h
        have hr := peek_ok hd
        exact hr.append.trans (ih (hr.proper hl) h)
    | next =>
      rw [run] at h
      cases hd : l.next with
      | error stuck => simp [hd] at h
      | ok p =>
        obtain ⟨t, d⟩ := p
        simp only [hd] at h
        have hp := next_proper hl hd
        split at h
        · rename_i ht
          have hunread := (next_end hl hd ht).2.2
          have hr := next_reaches hl hd ht
          rw [← hunread] at hr
          exact hr.append.trans (ih hp h)
        · rename_i ht
          cases hrun : d.run calls with
          | error e => simp [hrun, Except.map] at h
          | ok q =>
            obtain ⟨us, last⟩ := q
            obtain ⟨rfl, rfl⟩ : t :: us = ts ∧ last = l' := by simpa [hrun, Except.map] using h
            have hrest := (ih hp hrun).behind #[t] 0
            rw [behind_behind] at hrest
            exact (next_reaches_token hd ht).append.trans hrest

/-- Taking all tokens reads everything that waits. -/
theorem pull_reaches (hl : l.automaton.Proper) (h : l.pull = .ok (ts, l')) :
    Reaches l.automaton l.unread (l'.automaton.behind ts.toArray 0) [] := by
  fun_induction pull l generalizing ts with
  | case1 => cases h
  | case2 l t d hn ht =>
    obtain ⟨rfl, rfl⟩ := Prod.mk.inj (Except.ok.inj h)
    rw [behind_nil]
    exact next_reaches hl hn ht
  | case3 l t d hn ht ih =>
    cases hp : d.pull with
    | error e => simp [hp, Except.map] at h
    | ok p =>
      obtain ⟨us, last⟩ := p
      obtain ⟨rfl, rfl⟩ : t :: us = ts ∧ last = l' := by simpa [hp, Except.map] using h
      have hrest := (ih (next_proper hl hn) hp).behind #[t] 0
      rw [behind_behind] at hrest
      exact (next_reaches_token hn ht).trans hrest

end Calls

end Lexer

open Lexer Automaton

/-! ## Texts -/

section Texts

variable {text : String} {ts taken pulled : List Token} {a : Automaton} {calls : List Call} {l l' : Lexer}

/-- A text has tokens just when it can be read and its end completes what it leaves unfinished. -/
theorem readAll_of_lex (h : lex text = .ok ts) :
    ∃ a b, Automaton.initial.readAll text.toList = .ok a ∧ a.finish = .ok b ∧ b.ready.toList = ts := by
  rw [lex_eq_outcome] at h
  cases hr : Automaton.initial.readAll text.toList with
  | error stuck =>
    rw [(readAll_error hr).outcome_eq] at h
    cases h
  | ok a =>
    rw [(readAll_ok hr).outcome_eq, outcome] at h
    cases hf : a.finish with
    | error stuck => simp [hf] at h
    | ok b => exact ⟨a, b, rfl, hf, by simpa [hf] using h⟩

/-- Behind a text that leaves the automaton idle, another text is lexed by itself. -/
theorem lex_append_of_isIdle (h : Automaton.initial.readAll text.toList = .ok a) (hidle : a.isIdle) :
    lex text = .ok a.ready.toList ∧
    ∀ more, lex (text ++ more) =
      match lex more with
      | .ok us => .ok (a.ready.toList ++ us)
      | .error e => .error (e.shift (text.toList.count '\n')) := by
  have hr := readAll_ok h
  have hline : a.line = text.toList.count '\n' + 1 := by
    rw [(readAll_line tidy_initial h).2, Nat.add_comm]
    rfl
  constructor
  · rw [lex_eq_outcome, hr.outcome_eq, outcome, finish_of_isIdle hidle]
  · intro more
    rw [lex_eq_outcome, lex_eq_outcome, String.toList_append, hr.append.outcome_eq]
    exact outcome_of_isIdle hidle hline more.toList

/-- A text that has tokens leaves the automaton idle when a newline follows. -/
theorem readAll_newline_of_lex (h : lex text = .ok ts) :
    ∃ a, Automaton.initial.readAll (text ++ "\n").toList = .ok a ∧ a.isIdle ∧ a.ready.toList = ts := by
  obtain ⟨a, b, hread, hfinish, rfl⟩ := readAll_of_lex h
  have htidy := (readAll_line tidy_initial hread).1
  obtain ⟨d, hadvance, hidle, hready, -⟩ := advance_newline_of_finish htidy hfinish
  refine ⟨d, ?_, hidle, by rw [hready]⟩
  rw [String.toList_append, readAll_append, hread]
  show a.readAll ['\n'] = .ok d
  simp [readAll, hadvance]

/-- After any calls and after all tokens have been taken, the automaton has read what was added. -/
theorem readAll_of_calls (hrun : Lexer.initial.run calls = .ok (taken, l)) (hpull : l.pull = .ok (pulled, l')) :
    Automaton.initial.readAll (Call.added calls).toList = .ok (l'.automaton.behind (taken ++ pulled).toArray 0) := by
  have hproper : Lexer.initial.automaton.Proper := proper_initial
  have hreach := run_reaches hproper hrun
  have hrest := (pull_reaches (run_proper hproper hrun) hpull).behind taken.toArray 0
  rw [behind_behind] at hrest
  exact (hreach.trans hrest).readAll_eq

/-- **Texts are lexed one behind the other.** Behind a text that has tokens and a newline, another text is lexed by itself:
its tokens follow, or its error is one more line further down than the first text has newlines. Behind the texts that any
calls have added to a lexer which is idle when all its tokens have been taken, not even a newline is needed: what was
added has just the tokens taken, and another text is lexed by itself behind it. -/
theorem lex_append :
    (∀ text more ts, lex text = .ok ts →
      lex (text ++ "\n" ++ more) =
        match lex more with
        | .ok us => .ok (ts ++ us)
        | .error e => .error (e.shift (1 + text.toList.count '\n'))) ∧
    ∀ calls taken l pulled l', Lexer.initial.run calls = .ok (taken, l) → l.pull = .ok (pulled, l') → l'.isIdle →
      lex (Call.added calls) = .ok (taken ++ pulled) ∧
      ∀ more, lex (Call.added calls ++ more) =
        match lex more with
        | .ok us => .ok (taken ++ pulled ++ us)
        | .error e => .error (e.shift ((Call.added calls).toList.count '\n')) := by
  constructor
  · intro text more ts h
    obtain ⟨a, hread, hidle, rfl⟩ := readAll_newline_of_lex h
    have happend := (lex_append_of_isIdle hread hidle).2 more
    have hcount : (text ++ "\n").toList.count '\n' = 1 + text.toList.count '\n' := by
      rw [String.toList_append, List.count_append, Nat.add_comm]
      rfl
    rwa [hcount] at happend
  · intro calls taken l pulled l' hrun hpull hidle
    obtain ⟨hready, -⟩ := pull_dry (run_proper proper_initial hrun) hpull
    have hread := readAll_of_calls hrun hpull
    have hall : (l'.automaton.behind (taken ++ pulled).toArray 0).ready.toList = taken ++ pulled := by
      simp [hready]
    have hboth := lex_append_of_isIdle hread hidle
    rwa [hall] at hboth

/-- An undecided `:` is decided by a newline, and a string that is left open behind `~@[`, which was added in three parts,
is open on the line below. -/
theorem lex_append_undecided :
    lex ("a:" ++ "\n" ++ "=") = .ok [⟨.symbol, "a"⟩, .bare .colon, ⟨.symbol, "="⟩] ∧
    ∃ l l', Lexer.initial.run [.add "~", .peek, .add "@", .add "[\n"] = .ok ([], l) ∧
      l.pull = .ok ([.bare .tildeAt, .bare .lsquare], l') ∧ l'.isIdle ∧
      lex (Call.added [.add "~", .peek, .add "@", .add "[\n"]) = .ok [.bare .tildeAt, .bare .lsquare] ∧
      lex (Call.added [.add "~", .peek, .add "@", .add "[\n"] ++ "\"") = .error ⟨.unterminatedString, 2⟩ := by
  constructor
  · exact (lex_append.1 "a:" "=" [⟨.symbol, "a"⟩, .bare .colon] rfl).trans rfl
  · obtain ⟨l, hrun⟩ : ∃ l, Lexer.initial.run [.add "~", .peek, .add "@", .add "[\n"] = .ok ([], l) := ⟨_, rfl⟩
    have hpull : l.pull = .ok ([.bare .tildeAt, .bare .lsquare], ⟨{ line := 2 }, { rest := [] }, []⟩) := by
      obtain rfl := (Prod.mk.inj (Except.ok.inj hrun)).2
      rw [pull_of_next (t := .bare .tildeAt) (next_of_ready rfl), if_neg (by decide),
        pull_of_next (t := .bare .lsquare) (next_of_ready rfl), if_neg (by decide),
        pull_of_next (t := Token.endOfInput) rfl, if_pos (by rfl)]
      rfl
    obtain ⟨hlex, happend⟩ := lex_append.2 _ _ _ _ _ hrun hpull rfl
    exact ⟨l, _, hrun, hpull, rfl, hlex, (happend "\"").trans rfl⟩

end Texts

end Zygo
