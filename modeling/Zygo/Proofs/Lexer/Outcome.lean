import Zygo.Lexer.Basic

/-!
# What a lexer still has to say

`Automaton.outcome a text` is what comes of an automaton when `text` is all the input that is left: the tokens that are
ready and still to come, or the first error. It is the view of the automaton that every operation of the lexer keeps.

* `Automaton.outcome_behind`: tokens that are ready only stand in front, and the line is only a number that counts up.
* `Automaton.Reaches.outcome_eq`: reading ahead does not change the outcome, and `fill_ok` and `exhaust_ok` say that
  filling and exhausting only read ahead.
* `lex_eq_outcome`: `lex` gives the outcome of the initial automaton.
-/

namespace Zygo.Lexer

namespace Automaton

/-- The tokens that are ready or still to come when `text` is all that is left of the input, or the first error. -/
def outcome (a : Automaton) : List Char → Except LexError (List Token)
  | [] =>
    match a.finish with
    | .error stuck => .error stuck.error
    | .ok a => .ok a.ready.toList
  | c :: text =>
    match a.advance c with
    | .error stuck => .error stuck.error
    | .ok a => a.outcome text

/-! ## Earlier tokens and lines -/

/-- The automaton with more tokens ready in front of its own, some lines further down. -/
def behind (before : Array Token) (lines : Nat) (a : Automaton) : Automaton :=
  { a with ready := before ++ a.ready, line := lines + a.line }

/-- What a step of the automaton gives, with more tokens in front and some lines further down. -/
def resultBehind (before : Array Token) (lines : Nat) :
    Except (Stuck Automaton) Automaton → Except (Stuck Automaton) Automaton
  | .ok a => .ok (a.behind before lines)
  | .error stuck => .error ⟨stuck.error.shift lines, stuck.state.behind before lines⟩

section Behind

variable (before : Array Token) (lines : Nat) (a : Automaton)

@[simp] theorem behind_mode : (a.behind before lines).mode = a.mode := rfl

@[simp] theorem behind_pending : (a.behind before lines).pending = a.pending := rfl

@[simp] theorem behind_ready : (a.behind before lines).ready = before ++ a.ready := rfl

@[simp] theorem behind_line : (a.behind before lines).line = lines + a.line := rfl

@[simp] theorem emit_behind (t : Token) : (a.behind before lines).emit t = (a.emit t).behind before lines := by
  simp [emit, behind]

@[simp] theorem enter_behind (mode : Mode) : (a.behind before lines).enter mode = (a.enter mode).behind before lines :=
  rfl

@[simp] theorem collect_behind (c : Char) : (a.behind before lines).collect c = (a.collect c).behind before lines :=
  rfl

@[simp] theorem emitPending_behind (kind : TokenKind) :
    (a.behind before lines).emitPending kind = (a.emitPending kind).behind before lines := by
  simp [emitPending, emit, behind]

@[simp] theorem fail_behind (cause : LexError.Cause) :
    (a.behind before lines).fail cause = resultBehind before lines (a.fail cause) := rfl

theorem flush_behind : (a.behind before lines).flush = resultBehind before lines a.flush := by
  unfold flush
  by_cases hp : a.pending.isEmpty
  · simp [hp, resultBehind]
  · simp only [behind_pending, hp, Bool.false_eq_true, if_false]
    cases Atom.classify a.pending with
    | ok t => simp [resultBehind, behind, emit]
    | error cause => exact fail_behind before lines a cause

theorem apart_behind (mark : Mark) (next : Automaton) :
    (a.behind before lines).apart mark (next.behind before lines) = resultBehind before lines (a.apart mark next) := by
  unfold apart
  by_cases hp : a.pending.isEmpty
  · simp [hp, resultBehind]
  · simp [hp]

/-- What follows a flush may be done before or after the tokens are put in front. -/
theorem map_resultBehind {f : Automaton → Automaton} (hf : ∀ b, f (b.behind before lines) = (f b).behind before lines)
    (r : Except (Stuck Automaton) Automaton) :
    (resultBehind before lines r).map f = resultBehind before lines (r.map f) := by
  cases r with
  | ok b => simp [resultBehind, Except.map, hf]
  | error stuck => rfl

theorem stepNormal_behind (c : Char) :
    (a.behind before lines).stepNormal c = resultBehind before lines (a.stepNormal c) := by
  unfold stepNormal
  cases CharClass.of c with
  | separator => exact flush_behind before lines a
  | comment | dollar | bracket =>
    simp only [flush_behind]
    exact map_resultBehind _ _ (by simp) _
  | colon | plain => rfl
  | quote | caret | tilde | doubleQuote | backtick => simp [apart_behind]

theorem step_behind (c : Char) : (a.behind before lines).step c = resultBehind before lines (a.step c) := by
  unfold step
  cases hm : a.mode with
  | normal => simp [hm, stepNormal_behind]
  | comment =>
    by_cases hc : c = '\n' <;> simp [hm, hc, resultBehind]
  | rawString =>
    by_cases hc : c = '`' <;> simp [hm, hc, resultBehind]
  | string =>
    by_cases hs : c = '\\' <;> by_cases hq : c = '"' <;> simp [hm, hs, hq, resultBehind]
  | escaped =>
    simp only [behind_mode, hm]
    cases Escape.meaning? c <;> simp [resultBehind]
  | unquote =>
    by_cases hc : c = '@' <;> simp [hm, hc, stepNormal_behind, resultBehind]
  | assign =>
    simp only [behind_mode, hm, enter_behind, flush_behind]
    cases (a.enter .normal).flush with
    | error stuck => rfl
    | ok b =>
      by_cases hc : c = '=' <;> simp [hc, stepNormal_behind, resultBehind]

theorem advance_behind (c : Char) : (a.behind before lines).advance c = resultBehind before lines (a.advance c) := by
  unfold advance
  rw [step_behind]
  cases a.step c with
  | error stuck => rfl
  | ok b =>
    by_cases hc : c = '\n'
    · simp [resultBehind, hc, behind, Nat.add_assoc]
    · simp [resultBehind, hc]

theorem finish_behind : (a.behind before lines).finish = resultBehind before lines a.finish := by
  unfold finish
  cases hm : a.mode with
  | normal => simp [hm, flush_behind]
  | comment | unquote => simp [hm, resultBehind]
  | assign =>
    simp only [behind_mode, hm, enter_behind, flush_behind]
    exact map_resultBehind _ _ (by simp) _
  | string | escaped | rawString => simp [hm]

/-- Tokens that are ready stand in front of the outcome, and an error is as many lines further down as the automaton. -/
theorem outcome_behind (text : List Char) :
    (a.behind before lines).outcome text =
      match a.outcome text with
      | .ok ts => .ok (before.toList ++ ts)
      | .error e => .error (e.shift lines) := by
  induction text generalizing a with
  | nil =>
    simp only [outcome, finish_behind]
    cases a.finish with
    | ok b => simp [resultBehind]
    | error stuck => rfl
  | cons c text ih =>
    simp only [outcome, advance_behind]
    cases a.advance c with
    | ok b => exact ih b
    | error stuck => rfl

end Behind

/-! ## Newlines -/

theorem advance_of_step {a b : Automaton} {c : Char} (h : a.step c = .ok b) :
    a.advance c = .ok { b with line := b.line + [c].count '\n' } := by
  rw [advance, h]
  by_cases hc : c = '\n' <;> simp [hc]

theorem count_cons_add (c : Char) (s : List Char) : (c :: s).count '\n' = [c].count '\n' + s.count '\n' := by
  rw [← List.count_append, List.singleton_append]

/-! ## Reading ahead -/

/-- Reading `text` without an error takes the automaton to `b` with `rest` left over. -/
inductive Reaches : Automaton → List Char → Automaton → List Char → Prop
  | refl (a : Automaton) (text : List Char) : Reaches a text a text
  | step {a a' b : Automaton} {c : Char} {text rest : List Char} :
      a.advance c = .ok a' → Reaches a' text b rest → Reaches a (c :: text) b rest

/-- Reading `text` fails on a character behind which `rest` is left over, and leaves `b`. -/
def FailsAt (a : Automaton) (text : List Char) (e : LexError) (b : Automaton) (rest : List Char) : Prop :=
  ∃ a' c, Reaches a text a' (c :: rest) ∧ a'.advance c = .error ⟨e, b⟩

section Reaches

variable {a b d : Automaton} {text rest rest' more : List Char} {e : LexError}

theorem Reaches.trans (h : Reaches a text b rest) (h' : Reaches b rest d rest') : Reaches a text d rest' := by
  induction h with
  | refl => exact h'
  | step hc _ ih => exact .step hc (ih h')

theorem Reaches.append (h : Reaches a text b rest) : Reaches a (text ++ more) b (rest ++ more) := by
  induction h with
  | refl => exact .refl _ _
  | step hc _ ih => exact .step hc ih

/-- Either nothing has been read or less is left. -/
theorem Reaches.eq_or_lt (h : Reaches a text b rest) : (b = a ∧ rest = text) ∨ rest.length < text.length := by
  induction h with
  | refl => exact .inl ⟨rfl, rfl⟩
  | step _ _ ih =>
    rcases ih with ⟨_, rfl⟩ | hlt
    · exact .inr (by simp)
    · exact .inr (by simp only [List.length_cons]; omega)

/-- Reading ahead does not change the outcome. -/
theorem Reaches.outcome_eq (h : Reaches a text b rest) : a.outcome text = b.outcome rest := by
  induction h with
  | refl => rfl
  | step hc _ ih => rw [outcome, hc]; exact ih

theorem FailsAt.outcome_eq (h : FailsAt a text e b rest) : a.outcome text = .error e := by
  obtain ⟨a', c, hr, hc⟩ := h
  rw [hr.outcome_eq, outcome, hc]

theorem FailsAt.append (h : FailsAt a text e b rest) : FailsAt a (text ++ more) e b (rest ++ more) := by
  obtain ⟨a', c, hr, hc⟩ := h
  exact ⟨a', c, hr.append, hc⟩

theorem Reaches.failsAt (h : Reaches a text b rest) (h' : FailsAt b rest e d rest') : FailsAt a text e d rest' := by
  obtain ⟨a', c, hr, hc⟩ := h'
  exact ⟨a', c, h.trans hr, hc⟩

/-- Reading up to a token stops for a token or at the end of the text. -/
theorem readToken_ok (h : a.readToken text = .ok (b, rest)) :
    Reaches a text b rest ∧ (b.ready.isEmpty → rest = []) := by
  fun_induction readToken a text with
  | case1 a =>
    obtain ⟨rfl, rfl⟩ := Prod.mk.inj (Except.ok.inj h)
    exact ⟨.refl _ _, fun _ => rfl⟩
  | case2 => cases h
  | case3 a c text _ a' hc ih => exact ⟨.step hc (ih h).1, (ih h).2⟩
  | case4 a c text hr =>
    obtain ⟨rfl, rfl⟩ := Prod.mk.inj (Except.ok.inj h)
    exact ⟨.refl _ _, fun hb => absurd hb hr⟩

theorem readToken_error (h : a.readToken text = .error ⟨e, b, rest⟩) : FailsAt a text e b rest := by
  fun_induction readToken a text with
  | case2 a c text _ stuck hc =>
    obtain ⟨rfl, rfl, rfl⟩ : stuck.error = e ∧ stuck.state = b ∧ text = rest := by simpa using h
    exact ⟨a, c, .refl _ _, hc⟩
  | case3 a c text _ a' hc ih => exact (Reaches.step hc (.refl _ _)).failsAt (ih h)
  | case1 | case4 => cases h

theorem readAll_ok (h : a.readAll text = .ok b) : Reaches a text b [] := by
  fun_induction readAll a text with
  | case1 a =>
    obtain rfl := Except.ok.inj h
    exact .refl _ _
  | case2 => cases h
  | case3 a c text a' hc ih => exact .step hc (ih h)

theorem readAll_error (h : a.readAll text = .error ⟨e, b, rest⟩) : FailsAt a text e b rest := by
  fun_induction readAll a text with
  | case1 => cases h
  | case2 a c text stuck hc =>
    obtain ⟨rfl, rfl, rfl⟩ : stuck.error = e ∧ stuck.state = b ∧ text = rest := by simpa using h
    exact ⟨a, c, .refl _ _, hc⟩
  | case3 a c text a' hc ih => exact (Reaches.step hc (.refl _ _)).failsAt (ih h)

end Reaches

end Automaton

/-! ## Lexers -/

open Automaton

section Sources

variable {a b : Automaton} {active : Source} {queued : List Source} {l : Lexer} {stuck : Stuck Lexer}

/-- A new source stands behind everything that waits to be read. -/
theorem unread_add (l : Lexer) (source : Source) : (l.add source).unread = l.unread ++ source.rest := by
  obtain ⟨a, active, queued⟩ := l
  cases hr : active.rest with
  | nil => cases queued <;> simp [add, unread, Source.hasMore, hr]
  | cons c text => simp [add, unread, Source.hasMore, hr]

theorem automaton_add (l : Lexer) (source : Source) : (l.add source).automaton = l.automaton := by
  unfold add
  split <;> rfl

/-- Filling reads ahead and stops for a token or at the end of all sources. -/
theorem fill_ok (h : fill a active queued = .ok l) :
    Reaches a (unread ⟨a, active, queued⟩) l.automaton l.unread ∧ (l.automaton.ready.isEmpty → l.unread = []) := by
  fun_induction fill a active queued with
  | case1 => cases h
  | case2 a active _ b rest ht =>
    obtain rfl := Except.ok.inj h
    obtain ⟨hb, hrest⟩ := readToken_ok ht
    exact ⟨hb.append, by simpa [unread] using hrest⟩
  | case3 a active _ b rest ht hr source queued ih =>
    obtain ⟨hb, hrest⟩ := readToken_ok ht
    obtain rfl := hrest hr
    obtain ⟨hl, hend⟩ := ih h
    exact ⟨hb.append.trans (by simpa [unread] using hl), hend⟩
  | case4 queued a active _ b rest ht hr =>
    obtain rfl := Except.ok.inj h
    exact ⟨(readToken_ok ht).1.append, fun he => absurd he hr⟩
  | case5 queued a active hr =>
    obtain rfl := Except.ok.inj h
    exact ⟨.refl _ _, fun he => absurd he hr⟩

theorem fill_error (h : fill a active queued = .error stuck) :
    FailsAt a (unread ⟨a, active, queued⟩) stuck.error stuck.state.automaton stuck.state.unread := by
  fun_induction fill a active queued with
  | case1 queued a active _ error b rest ht =>
    obtain rfl := Except.error.inj h
    exact (readToken_error ht).append
  | case3 a active _ b rest ht hr source queued ih =>
    obtain ⟨hb, hrest⟩ := readToken_ok ht
    obtain rfl := hrest hr
    exact hb.append.failsAt (by simpa [unread] using ih h)
  | case2 | case4 | case5 => cases h

/-- Exhausting reads everything that waits. -/
theorem exhaust_ok (h : exhaust a active queued = .ok l) :
    Reaches a (unread ⟨a, active, queued⟩) l.automaton [] ∧ l = ⟨l.automaton, { rest := [] }, []⟩ := by
  fun_induction exhaust a active queued with
  | case1 => cases h
  | case2 a active b ht =>
    obtain rfl := Except.ok.inj h
    exact ⟨(readAll_ok ht).append, rfl⟩
  | case3 a active b ht source queued ih =>
    obtain ⟨hl, hend⟩ := ih h
    exact ⟨(readAll_ok ht).append.trans (by simpa [unread] using hl), hend⟩

theorem exhaust_error (h : exhaust a active queued = .error stuck) :
    FailsAt a (unread ⟨a, active, queued⟩) stuck.error stuck.state.automaton stuck.state.unread := by
  fun_induction exhaust a active queued with
  | case1 queued a active error b rest ht =>
    obtain rfl := Except.error.inj h
    exact (readAll_error ht).append
  | case2 => cases h
  | case3 a active b ht source queued ih =>
    exact (readAll_ok ht).append.failsAt (by simpa [unread] using ih h)

end Sources

/-! ## Complete texts -/

/-- The ready tokens of an automaton may be set aside and put in front again. -/
theorem Automaton.behind_ready_zero (a : Automaton) : ({ a with ready := #[] } : Automaton).behind a.ready 0 = a := by
  simp [behind]

/-- A complete text is read by the initial automaton. -/
theorem lex_eq_outcome (text : String) : lex text = Automaton.initial.outcome text.toList := by
  have hstart : unread ⟨Automaton.initial, Source.ofString text, []⟩ = text.toList := by simp [unread]
  have hinitial : initial.addText text = ⟨Automaton.initial, Source.ofString text, []⟩ := rfl
  unfold lex
  cases h : exhaust Automaton.initial (Source.ofString text) [] with
  | error stuck =>
    have he := (exhaust_error h).outcome_eq
    rw [hstart] at he
    simp only [drain, hinitial, h, he]
  | ok l =>
    obtain ⟨hr, hl⟩ := exhaust_ok h
    have ho := hr.outcome_eq
    rw [hstart] at ho
    have hf := finish_behind l.automaton.ready 0 { l.automaton with ready := #[] }
    rw [behind_ready_zero] at hf
    simp only [drain, hinitial, h, ho, outcome, hf, finish, takeReady]
    cases ({ l.automaton with ready := #[] } : Automaton).finish with
    | error stuck => simp [resultBehind, LexError.shift]
    | ok b =>
      rw [hl]
      simp [resultBehind, exhaust, readAll]

end Zygo.Lexer
