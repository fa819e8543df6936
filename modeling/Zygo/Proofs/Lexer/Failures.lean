import Zygo.Proofs.Lexer.Append

/-!
# Failures lose nothing

A client may go on with a lexer after a failure, so what a failing call leaves behind counts. `Usage` follows a client
through calls of any kind, failing ones included, with the text added, all that the automaton has been given of it and all
the tokens handed out since the last reset. Neither failures nor the taking of tokens disturb the account
(`Usage.Sound`): the text is what has been given and what is unread, and an automaton that is given the same, with no
client to take a token, has ready the tokens handed out and behind them those of the queue. Where a call fails the queue
is empty, so all that has been completed by then has been handed out.

* `sound_apply`, `sound_after`: one call and all calls keep a usage sound.
* `failure_loses_nothing`: a failing `peek` or `next` leaves the lexer as it was before the failing character.
-/

namespace Zygo

/-- The state after a step, whether it succeeds or fails. -/
def Stuck.stateOf {σ : Type} : Except (Stuck σ) σ → σ
  | .ok s => s
  | .error stuck => stuck.state

namespace Lexer

/-- What an automaton is given. -/
inductive Input where
  | char (c : Char)
  /-- The end of all input. -/
  | finish

/-- The character that is given, if one is. -/
def Input.char? : Input → Option Char
  | char c => some c
  | finish => none

theorem filterMap_char? (s : List Char) : (s.map Input.char).filterMap Input.char? = s := by
  induction s with
  | nil => rfl
  | cons c s ih => simpa [Input.char?] using ih

namespace Automaton

/-- The automaton after an input, whether it takes it or not. -/
def give (a : Automaton) : Input → Automaton
  | .char c => Stuck.stateOf (a.advance c)
  | .finish => Stuck.stateOf a.finish

/-- The automaton after all of the inputs. -/
def giveAll (a : Automaton) (inputs : List Input) : Automaton :=
  inputs.foldl give a

variable {a b : Automaton} {c : Char} {s rest : List Char} {e : LexError}

theorem stateOf_resultBehind (before : Array Token) (lines : Nat) (r : Except (Stuck Automaton) Automaton) :
    Stuck.stateOf (resultBehind before lines r) = (Stuck.stateOf r).behind before lines := by
  cases r <;> rfl

theorem give_behind (before : Array Token) (lines : Nat) (a : Automaton) (input : Input) :
    (a.behind before lines).give input = (a.give input).behind before lines := by
  cases input with
  | char c => rw [give, advance_behind, stateOf_resultBehind]; rfl
  | finish => rw [give, finish_behind, stateOf_resultBehind]; rfl

theorem giveAll_behind (before : Array Token) (lines : Nat) (a : Automaton) (inputs : List Input) :
    (a.behind before lines).giveAll inputs = (a.giveAll inputs).behind before lines := by
  induction inputs generalizing a with
  | nil => rfl
  | cons input inputs ih => rw [giveAll, List.foldl_cons, give_behind]; exact ih _

theorem giveAll_append (a : Automaton) (inputs inputs' : List Input) :
    a.giveAll (inputs ++ inputs') = (a.giveAll inputs).giveAll inputs' :=
  List.foldl_append

/-- A text that is read is given character by character. -/
theorem giveAll_of_readAll (h : a.readAll s = .ok b) : a.giveAll (s.map .char) = b := by
  fun_induction readAll a s with
  | case1 => exact Except.ok.inj h
  | case2 => cases h
  | case3 a c s d hc ih =>
    have hgive : a.give (.char c) = d := by rw [give, hc]; rfl
    rw [List.map_cons, giveAll, List.foldl_cons, hgive]
    exact ih h

/-- What has been read stands in front of what is left. -/
theorem Reaches.exists_readAll (h : Reaches a s b rest) : ∃ used, s = used ++ rest ∧ a.readAll used = .ok b := by
  induction h with
  | refl a s => exact ⟨[], rfl, rfl⟩
  | @step a a' b c s rest hc _ ih =>
    obtain ⟨used, rfl, hread⟩ := ih
    exact ⟨c :: used, rfl, by rw [readAll, hc]; exact hread⟩

theorem Tidy.give (ha : a.Tidy) (input : Input) : (a.give input).Tidy := by
  cases input with
  | char c =>
    cases h : a.advance c with
    | ok b => rw [Automaton.give, h]; exact (advance_ok ha h).1
    | error stuck =>
      have hstate : a.give (.char c) = a.refused := by
        rw [Automaton.give, h]
        exact (advance_error ha h).2
      exact hstate ▸ ha.refused
  | finish =>
    cases h : a.finish with
    | ok b => rw [Automaton.give, h]; exact (finish_ok h).1
    | error stuck =>
      have hstate : a.give .finish = a.refused := by
        rw [Automaton.give, h]
        exact (finish_error h).2
      exact hstate ▸ ha.refused

theorem Proper.give (ha : a.Proper) (input : Input) : (a.give input).Proper := by
  have hall : ∀ r : Except (Stuck Automaton) Automaton, ResultProper r → (Stuck.stateOf r).Proper := by
    rintro (stuck | b) hr <;> exact hr
  cases input with
  | char c => exact hall _ (ha.advance c)
  | finish => exact hall _ ha.finish

end Automaton

/-! ## Clients -/

/-- A call on a lexer. -/
inductive Operation where
  | add (source : Source)
  | peek
  | next
  | finish
  | reset

/-- A lexer in use: the characters added to it, what its automaton has been given and the tokens that it has handed out,
all since the last reset. -/
structure Usage where
  lexer : Lexer := initial
  added : List Char := []
  given : List Input := []
  taken : Array Token := #[]

open Automaton

theorem automaton_finish (l : Lexer) : (Stuck.stateOf l.finish).automaton = l.automaton.give .finish := by
  unfold finish give
  cases l.automaton.finish <;> rfl

theorem unread_finish (l : Lexer) : (Stuck.stateOf l.finish).unread = l.unread := by
  unfold finish
  cases l.automaton.finish <;> rfl

/-- Filling that fails leaves sources untouched that it has not come to. -/
theorem fill_error_queued {a : Automaton} {active : Source} {queued : List Source} {stuck : Stuck Lexer}
    (h : fill a active queued = .error stuck) : stuck.state.queued <:+ queued := by
  fun_induction fill a active queued with
  | case1 =>
    obtain rfl := Except.error.inj h
    exact List.suffix_refl _
  | case3 a active _ b rest ht hr source queued ih => exact (ih h).trans (List.suffix_cons _ _)
  | case2 | case4 | case5 => cases h

theorem peek_error_queued {l : Lexer} {stuck : Stuck Lexer} (h : l.peek = .error stuck) :
    stuck.state.queued <:+ l.queued := by
  unfold peek at h
  cases hf : fill l.automaton l.active l.queued with
  | error stuck' =>
    obtain rfl : stuck' = stuck := by simpa [hf] using h
    exact fill_error_queued hf
  | ok m => simp [hf] at h

namespace Usage

/-- The usage after the lexer has read ahead as far as `l` and handed out tokens. What it no longer has before it has been
given to the automaton. -/
def proceed (u : Usage) (l : Lexer) (tokens : Array Token) : Usage :=
  { u with
    lexer := l
    given := u.given ++ (u.lexer.unread.take (u.lexer.unread.length - l.unread.length)).map .char
    taken := u.taken ++ tokens }

/-- The usage after a call, whether it succeeds or fails. The end token is not taken out of the lexer. -/
def apply (u : Usage) : Operation → Usage
  | .add source => { u with lexer := u.lexer.add source, added := u.added ++ source.rest }
  | .peek =>
    match u.lexer.peek with
    | .ok (_, l) => u.proceed l #[]
    | .error stuck => u.proceed stuck.state #[]
  | .next =>
    match u.lexer.next with
    | .ok (t, l) => u.proceed l (if t.isEnd then #[] else #[t])
    | .error stuck => u.proceed stuck.state #[]
  | .finish => { u with lexer := Stuck.stateOf u.lexer.finish, given := u.given ++ [.finish] }
  | .reset => { lexer := u.lexer.reset }

/-- The usage of a fresh lexer after the calls, in order. -/
def after (calls : List Operation) : Usage :=
  calls.foldl apply {}

/-- The tokens that are completed when an automaton is given what this one has been given and `more`, with no client to
take any. -/
def completed (u : Usage) (more : List Char) : Array Token :=
  (Automaton.initial.giveAll (u.given ++ more.map .char)).ready

/-- The text added is what has been given and what is unread, and the tokens handed out are all that the automaton lacks
of what has been completed. -/
structure Sound (u : Usage) : Prop where
  tidy : u.lexer.automaton.Tidy
  proper : u.lexer.automaton.Proper
  added : u.added = u.given.filterMap Input.char? ++ u.lexer.unread
  giveAll : Automaton.initial.giveAll u.given = u.lexer.automaton.behind u.taken 0

variable {u : Usage} {l : Lexer} {tokens : Array Token} {used rest : List Char}

theorem sound_start : ({} : Usage).Sound :=
  ⟨tidy_initial, proper_initial, rfl, rfl⟩

/-- Reading ahead keeps a usage sound, if what the automaton lacks afterwards has been handed out. -/
theorem Sound.proceed (hu : u.Sound) (hunread : u.lexer.unread = used ++ l.unread) (htidy : l.automaton.Tidy)
    (hproper : l.automaton.Proper) (hgive : u.lexer.automaton.giveAll (used.map .char) = l.automaton.behind tokens 0) :
    (u.proceed l tokens).Sound := by
  have htake : u.lexer.unread.take (u.lexer.unread.length - l.unread.length) = used := by
    rw [hunread, List.length_append, Nat.add_sub_cancel, List.take_left]
  have hgiven : (u.proceed l tokens).given = u.given ++ used.map .char := by rw [Usage.proceed, htake]
  refine ⟨htidy, hproper, ?_, ?_⟩
  · rw [hgiven, List.filterMap_append, filterMap_char?, List.append_assoc]
    show u.added = u.given.filterMap Input.char? ++ (used ++ l.unread)
    rw [← hunread, hu.added]
  · rw [hgiven, giveAll_append, hu.giveAll, giveAll_behind, hgive]
    simp [Usage.proceed, behind, Array.append_assoc]

theorem Sound.proceed_of_reaches (hu : u.Sound)
    (h : Reaches u.lexer.automaton u.lexer.unread (l.automaton.behind tokens 0) l.unread) : (u.proceed l tokens).Sound := by
  obtain ⟨used, hunread, hread⟩ := h.exists_readAll
  exact hu.proceed hunread (h.tidy hu.tidy) (proper_behind.1 (h.proper hu.proper)).2 (giveAll_of_readAll hread)

theorem Sound.proceed_of_failsAt {e : LexError} (hu : u.Sound)
    (h : FailsAt u.lexer.automaton u.lexer.unread e l.automaton l.unread) : (u.proceed l #[]).Sound := by
  obtain ⟨d, c, hreach, hc⟩ := h
  obtain ⟨read, hunread, hread⟩ := hreach.exists_readAll
  have hlast : d.give (.char c) = l.automaton := by rw [give, hc]; rfl
  have htidy := (hreach.tidy hu.tidy).give (.char c)
  have hproper := (hreach.proper hu.proper).give (.char c)
  rw [hlast] at htidy hproper
  have hused : u.lexer.unread = (read ++ [c]) ++ l.unread := by simp [hunread]
  refine hu.proceed hused htidy hproper ?_
  rw [List.map_append, giveAll_append, giveAll_of_readAll hread]
  simpa [Automaton.giveAll, behind] using hlast

theorem Sound.finish (hu : u.Sound) : (u.apply .finish).Sound := by
  have hautomaton := automaton_finish u.lexer
  refine ⟨?_, ?_, ?_, ?_⟩
  · exact hautomaton ▸ hu.tidy.give .finish
  · exact hautomaton ▸ hu.proper.give .finish
  · have hchars : (u.given ++ [Input.finish]).filterMap Input.char? = u.given.filterMap Input.char? := by
      rw [List.filterMap_append]
      exact List.append_nil _
    simpa only [apply, unread_finish, hchars] using hu.added
  · simp only [apply, giveAll_append, hu.giveAll, hautomaton]
    exact give_behind u.taken 0 u.lexer.automaton .finish

/-- **A call keeps a usage sound**, whether it succeeds or fails. -/
theorem sound_apply (hu : u.Sound) (call : Operation) : (u.apply call).Sound := by
  cases call with
  | add source =>
    have hautomaton := automaton_add u.lexer source
    refine ⟨?_, ?_, ?_, ?_⟩
    · exact hautomaton ▸ hu.tidy
    · exact hautomaton ▸ hu.proper
    · simp [apply, unread_add, hu.added]
    · simpa only [apply, hautomaton] using hu.giveAll
  | peek =>
    rw [apply]
    cases h : u.lexer.peek with
    | ok p => exact hu.proceed_of_reaches (by simpa [behind] using peek_ok h)
    | error stuck => exact hu.proceed_of_failsAt (peek_error h)
  | next =>
    rw [apply]
    cases h : u.lexer.next with
    | ok p =>
      obtain ⟨t, l⟩ := p
      by_cases ht : t.isEnd
      · simp only [ht, if_true]
        obtain ⟨-, -, hunread⟩ := next_end hu.proper h ht
        have hreach := next_reaches hu.proper h ht
        rw [← hunread] at hreach
        exact hu.proceed_of_reaches (by simpa [behind] using hreach)
      · simp only [ht]
        exact hu.proceed_of_reaches (next_reaches_token h ht)
    | error stuck => exact hu.proceed_of_failsAt (next_error h)
  | finish => exact hu.finish
  | reset => exact sound_start

theorem sound_foldl (hu : u.Sound) (calls : List Operation) : (calls.foldl apply u).Sound := by
  induction calls generalizing u with
  | nil => exact hu
  | cons call calls ih => exact ih (sound_apply hu call)

/-- **Calls keep a usage sound.** -/
theorem sound_after (calls : List Operation) : (after calls).Sound :=
  sound_foldl sound_start calls

/-- The tokens completed are those handed out and behind them those of the queue, once the lexer has read ahead. -/
theorem Sound.completed_eq (hu : u.Sound) {d : Automaton} (h : u.lexer.automaton.readAll used = .ok d) :
    u.completed used = u.taken ++ d.ready := by
  rw [completed, giveAll_append, hu.giveAll, giveAll_behind, giveAll_of_readAll h, behind_ready]

end Usage

open Usage

/-- **A failure swallows no token.** Whatever calls have been made on a lexer, failing ones included: if there is no next
token to look at or to take, the reading ahead has come through some text to a character that the automaton cannot take.
By then the queue is empty, and the tokens handed out are all that the input up to that character completes. The
character queues none and is all that is lost: the pending text, the line and the mode are as they were before it, except
that an undecided `:` is given up, and behind it the input is unread as before. -/
theorem failure_loses_nothing {calls : List Operation} {u : Usage} {stuck : Stuck Lexer} (hu : Usage.after calls = u)
    (h : u.lexer.peek = .error stuck ∨ u.lexer.next = .error stuck) :
    ∃ read c d, u.lexer.unread = read ++ c :: stuck.state.unread ∧ stuck.state.queued <:+ u.lexer.queued ∧
      u.lexer.automaton.readAll read = .ok d ∧ d.advance c = .error ⟨stuck.error, stuck.state.automaton⟩ ∧
      d.ready = #[] ∧ u.added = u.given.filterMap Input.char? ++ u.lexer.unread ∧ u.completed read = u.taken ∧
      stuck.state.automaton = { d with mode := if d.mode = .assign then .normal else d.mode } := by
  have hsound : u.Sound := hu ▸ sound_after calls
  have hpeek : u.lexer.peek = .error stuck := h.elim id peek_of_next_error
  obtain ⟨d, c, hreach, hc⟩ := peek_error hpeek
  obtain ⟨read, hunread, hread⟩ := hreach.exists_readAll
  have hstate := (advance_error (hreach.tidy hsound.tidy) hc).2
  have hready : d.ready = #[] := by
    have hqueue := peek_error_ready hsound.tidy hpeek
    rwa [show stuck.state.automaton = d.refused from hstate] at hqueue
  refine ⟨read, c, d, hunread, peek_error_queued hpeek, hread, hc, hready, hsound.added, ?_, hstate⟩
  rw [hsound.completed_eq hread, hready, Array.append_empty]

/-- The second failure of a lexer that is used on: the atom `0y` is pending when the quote fails, and it still is when the
newline behind `:` fails. -/
theorem failure_loses_nothing_twice :
    ∃ u stuck, Usage.after [.add (.ofString "(0y\":\n)"), .next, .peek] = u ∧ u.lexer.next = .error stuck ∧
      stuck.error = ⟨.unrecognizedAtom "0y", 1⟩ ∧ stuck.state.automaton = ⟨.normal, "0y", #[], 1⟩ ∧
      ∃ (read : List Char) (c : Char) (d : Automaton), u.lexer.unread = read ++ c :: stuck.state.unread ∧
        d.advance c = .error ⟨stuck.error, stuck.state.automaton⟩ ∧ u.completed read = u.taken ∧
        stuck.state.automaton = { d with mode := if d.mode = .assign then .normal else d.mode } := by
  have hnext : (Usage.after [.add (.ofString "(0y\":\n)"), .next, .peek]).lexer.next =
      .error ⟨⟨.unrecognizedAtom "0y", 1⟩, ⟨⟨.normal, "0y", #[], 1⟩, { rest := [')'] }, []⟩⟩ := by
    with_unfolding_all rfl
  obtain ⟨read, c, d, hunread, -, -, hc, -, -, hcompleted, hstate⟩ := failure_loses_nothing rfl (.inr hnext)
  exact ⟨_, _, rfl, hnext, rfl, rfl, read, c, d, hunread, hc, hcompleted, hstate⟩

end Lexer

end Zygo
