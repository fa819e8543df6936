import Zygo.Proofs.Atom
import Zygo.Proofs.Lexer.Outcome

/-!
# Calls in any order

A client adds texts to a lexer, looks at the next token and takes it, in any order; at the end it takes all tokens,
declares the end of the input and takes what comes of that. What the lexer owes, the outcome of its automaton on all
that it has not read, is what every call keeps: adding a text adds to what is owed, looking ahead leaves it as it is,
and taking a token takes its first token away. The end token is never ready, so it is handed out only by a lexer that
has nothing left to read.

* `session_eq_lex`: the tokens handed out are those of the texts put together, or both fail alike.
-/

namespace Zygo.Lexer

/-! ## The end token is never ready -/

namespace Automaton

/-- No token that is ready stands for the end of all input. -/
def Proper (a : Automaton) : Prop :=
  ∀ t ∈ a.ready, t.isEnd = false

/-- A step leaves no end token ready, whether it succeeds or fails. -/
def ResultProper : Except (Stuck Automaton) Automaton → Prop
  | .ok a => a.Proper
  | .error stuck => stuck.state.Proper

variable {a b : Automaton} {c : Char}

theorem classify_isEnd {s : String} {t : Token} (h : Atom.classify s = .ok t) : t.isEnd = false := by
  have hd := Atom.classify_denotes h
  generalize s.toList = cs at hd
  cases hd with
  | dollar | backslash | char => rfl
  | symbol cs => unfold Atom.symbolKind; split <;> rfl
  | @verbatim _ kind hk => cases kind <;> first | rfl | cases hk
  | @radix _ kind _ hk => cases kind <;> first | rfl | cases hk

theorem bracket_isEnd {kind : TokenKind} (h : CharClass.of c = .bracket kind) : (Token.bare kind).isEnd = false := by
  unfold CharClass.of at h
  split at h <;> cases h <;> rfl

theorem proper_initial : initial.Proper := by simp [Proper, initial]

theorem Proper.emit (ha : a.Proper) {t : Token} (ht : t.isEnd = false) : (a.emit t).Proper := by
  intro u hu
  rcases Array.mem_push.1 hu with hu | rfl
  · exact ha u hu
  · exact ht

theorem Proper.enter (ha : a.Proper) (mode : Mode) : (a.enter mode).Proper := ha

theorem Proper.collect (ha : a.Proper) (c : Char) : (a.collect c).Proper := ha

theorem Proper.emitPending (ha : a.Proper) {kind : TokenKind} (hk : kind ≠ .endOfInput) :
    (a.emitPending kind).Proper :=
  ha.emit (by simpa [Token.isEnd] using hk)

theorem Proper.flush (ha : a.Proper) : ResultProper a.flush := by
  unfold Automaton.flush
  split
  · exact ha
  · split
    · rename_i t hc
      exact Proper.emit (a := { a with pending := "" }) ha (classify_isEnd hc)
    · exact ha

theorem ResultProper.map {r : Except (Stuck Automaton) Automaton} (hr : ResultProper r) {f : Automaton → Automaton}
    (hf : ∀ d : Automaton, d.Proper → (f d).Proper) : ResultProper (r.map f) := by
  cases r with
  | ok d => exact hf d hr
  | error stuck => exact hr

theorem Proper.apart (ha : a.Proper) (hb : b.Proper) (mark : Mark) : ResultProper (a.apart mark b) := by
  unfold Automaton.apart
  split
  · exact hb
  · exact ha

theorem Proper.stepNormal (ha : a.Proper) (c : Char) : ResultProper (a.stepNormal c) := by
  unfold Automaton.stepNormal
  split
  case h_1 => exact ha.flush
  case h_2 => exact ha.flush.map fun d hd => hd.enter _
  case h_3 => exact ha.enter _
  case h_4 => exact ha.flush.map fun d hd => hd.emit rfl
  case h_5 kind hc => exact ha.flush.map fun d hd => hd.emit (bracket_isEnd hc)
  case h_6 | h_7 => exact ha.apart (ha.emit rfl) _
  case h_8 | h_9 | h_10 => exact ha.apart (ha.enter _) _
  case h_11 => exact ha.collect c

theorem Proper.step (ha : a.Proper) (c : Char) : ResultProper (a.step c) := by
  unfold Automaton.step
  split
  case h_1 => exact ha.stepNormal c
  case h_2 =>
    show Proper _
    split
    · exact ha.enter _
    · exact ha
  case h_3 =>
    show Proper _
    split
    · exact (ha.emitPending (by decide)).enter _
    · exact ha.collect c
  case h_4 =>
    show Proper _
    split
    · exact ha.enter _
    · split
      · exact (ha.emitPending (by decide)).enter _
      · exact ha.collect c
  case h_5 =>
    split
    · exact (ha.collect _).enter _
    · exact ha
  case h_6 =>
    split
    · exact (ha.emit rfl).enter _
    · exact ((ha.emit rfl).enter _).stepNormal c
  case h_7 =>
    have hf := (ha.enter .normal).flush
    split
    · rename_i stuck h
      rwa [h] at hf
    · rename_i d h
      rw [h] at hf
      split
      · exact Proper.emit hf rfl
      · exact (Proper.emit hf rfl).stepNormal c

theorem Proper.advance (ha : a.Proper) (c : Char) : ResultProper (a.advance c) := by
  have hs := ha.step c
  unfold Automaton.advance
  split
  · rename_i stuck h
    rwa [h] at hs
  · rename_i d h
    rw [h] at hs
    show Proper _
    split <;> exact hs

theorem Proper.finish (ha : a.Proper) : ResultProper a.finish := by
  unfold Automaton.finish
  split
  case h_1 => exact ha.flush
  case h_2 => exact ha.enter _
  case h_3 => exact (ha.enter _).emit rfl
  case h_4 => exact (ha.enter _).flush.map fun d hd => hd.emit rfl
  case h_5 | h_6 | h_7 => exact ha

theorem Reaches.proper {text rest : List Char} (h : Reaches a text b rest) (ha : a.Proper) : b.Proper := by
  induction h with
  | refl => exact ha
  | @step a _ _ c _ _ hc _ ih =>
    have hs := ha.advance c
    rw [hc] at hs
    exact ih hs

end Automaton

open Automaton

/-! ## The next token -/

section Next

variable {l l' : Lexer} {t : Token} {stuck : Stuck Lexer}

/-- The next token is in front of what the lexer owes; the end token comes only when it has nothing left. -/
theorem next_ok (h : l.next = .ok (t, l')) :
    Reaches l.automaton l.unread (l'.automaton.behind #[t] 0) l'.unread ∨
      (t = Token.endOfInput ∧ l'.automaton.ready = #[] ∧ l'.unread = [] ∧
        Reaches l.automaton l.unread l'.automaton []) := by
  unfold next peek at h
  cases hf : fill l.automaton l.active l.queued with
  | error stuck => simp [hf] at h
  | ok m =>
    obtain ⟨hr, hend⟩ := fill_ok hf
    obtain ⟨⟨mode, pending, ready, line⟩, active, queued⟩ := m
    obtain ⟨_ | ⟨u, us⟩⟩ := ready
    · right
      obtain ⟨rfl, rfl⟩ : Token.endOfInput = t ∧ _ = l' := by simpa [hf, Array.eraseIdxIfInBounds] using h
      have hu := hend rfl
      exact ⟨rfl, rfl, hu, hu ▸ hr⟩
    · left
      obtain ⟨rfl, rfl⟩ : u = t ∧ _ = l' := by simpa [hf, Array.eraseIdxIfInBounds] using h
      have hb : behind #[u] 0 ⟨mode, pending, us.toArray, line⟩ = ⟨mode, pending, (u :: us).toArray, line⟩ := by
        simp [behind]
      rw [hb]
      exact hr

theorem peek_ok (h : l.peek = .ok (t, l')) : Reaches l.automaton l.unread l'.automaton l'.unread := by
  unfold peek at h
  cases hf : fill l.automaton l.active l.queued with
  | error stuck => simp [hf] at h
  | ok m =>
    obtain ⟨-, rfl⟩ : _ ∧ m = l' := by simpa [hf] using h
    exact (fill_ok hf).1

/-- When there is no next token to look at, reading ahead has failed; the failing character is spent. -/
theorem peek_error (h : l.peek = .error stuck) :
    FailsAt l.automaton l.unread stuck.error stuck.state.automaton stuck.state.unread := by
  unfold peek at h
  cases hf : fill l.automaton l.active l.queued with
  | error stuck' =>
    obtain rfl : stuck' = stuck := by simpa [hf] using h
    exact fill_error hf
  | ok m => simp [hf] at h

/-- Taking the next token fails as looking at it does. -/
theorem peek_of_next_error (h : l.next = .error stuck) : l.peek = .error stuck := by
  unfold next at h
  cases hp : l.peek with
  | error stuck' => simpa [hp] using h
  | ok p => simp [hp] at h

theorem next_error (h : l.next = .error stuck) :
    FailsAt l.automaton l.unread stuck.error stuck.state.automaton stuck.state.unread :=
  peek_error (peek_of_next_error h)

/-- A token that is not the end token leaves less to read, or as much with fewer tokens ready. -/
theorem next_lt (h : l.next = .ok (t, l')) (ht : ¬t.isEnd) :
    Prod.Lex (· < ·) (· < ·) (l'.unread.length, l'.automaton.ready.size) (l.unread.length, l.automaton.ready.size) := by
  rcases next_ok h with hr | ⟨rfl, -⟩
  · rcases hr.eq_or_lt with ⟨ha, hu⟩ | hlt
    · rw [← ha, ← hu]
      exact .right _ (by simp [behind])
    · exact .left _ _ hlt
  · exact absurd rfl ht

end Next

/-- Takes tokens until the end token comes. -/
def pull (l : Lexer) : Except LexError (List Token × Lexer) :=
  match _h : l.next with
  | .error stuck => .error stuck.error
  | .ok (t, l') => if _ht : t.isEnd then .ok ([], l') else (pull l').map fun (ts, last) => (t :: ts, last)
termination_by (l.unread.length, l.automaton.ready.size)
decreasing_by exact next_lt _h _ht

/-! ## Calls -/

/-- What a client does with a lexer before the end of the input. -/
inductive Call where
  /-- Adds a text behind those that wait. -/
  | add (text : String)
  /-- Looks at the next token. -/
  | peek
  /-- Takes the next token. -/
  | next

/-- The texts that the calls add, one behind the other. -/
def Call.added : List Call → String
  | [] => ""
  | add text :: calls => text ++ added calls
  | peek :: calls => added calls
  | next :: calls => added calls

/-- Makes the calls in order, up to the first that fails. Gives the tokens taken, end tokens left out. -/
def run (l : Lexer) : List Call → Except LexError (List Token × Lexer)
  | [] => .ok ([], l)
  | .add text :: calls => (l.addText text).run calls
  | .peek :: calls =>
    match l.peek with
    | .error stuck => .error stuck.error
    | .ok (_, l) => l.run calls
  | .next :: calls =>
    match l.next with
    | .error stuck => .error stuck.error
    | .ok (t, l) => if t.isEnd then l.run calls else (l.run calls).map fun (ts, last) => (t :: ts, last)

/-- All that a client gets from a fresh lexer: the tokens that it takes by its calls, then all the tokens there are,
then, after the end of the input has been declared, all the tokens again; or the error of the first call that fails. -/
def session (calls : List Call) : Except LexError (List Token) :=
  match initial.run calls with
  | .error e => .error e
  | .ok (taken, l) =>
    match l.pull with
    | .error e => .error e
    | .ok (pulled, l) =>
      match l.finish with
      | .error stuck => .error stuck.error
      | .ok l => l.pull.map fun (completed, _) => taken ++ pulled ++ completed

/-! ## What a lexer owes -/

/-- The outcome of a lexer when `more` is all that comes behind the input it has. -/
def owed (l : Lexer) (more : List Char) : Except LexError (List Token) :=
  l.automaton.outcome (l.unread ++ more)

section Owed

variable {l l' : Lexer} {t : Token} {stuck : Stuck Lexer} {more : List Char}

theorem owed_addText (text : String) : (l.addText text).owed more = l.owed (text.toList ++ more) := by
  simp only [owed, addText, automaton_add, unread_add, Source.rest_ofString, List.append_assoc]

theorem owed_of_reaches (h : Reaches l.automaton l.unread l'.automaton l'.unread) : l.owed more = l'.owed more :=
  h.append.outcome_eq

theorem owed_of_failsAt {e : LexError} {b : Automaton} {rest : List Char} (h : FailsAt l.automaton l.unread e b rest) :
    l.owed more = .error e :=
  h.append.outcome_eq

/-- The outcome of an automaton with a token in front. -/
theorem outcome_behind_one (t : Token) (a : Automaton) (text : List Char) :
    (a.behind #[t] 0).outcome text = (a.outcome text).map (t :: ·) := by
  rw [outcome_behind]
  cases a.outcome text with
  | ok ts => rfl
  | error e => simp [LexError.shift, Except.map]

theorem proper_behind {before : Array Token} {lines : Nat} {a : Automaton} :
    (a.behind before lines).Proper ↔ (∀ t ∈ before, t.isEnd = false) ∧ a.Proper := by
  simp [Proper, or_imp, forall_and]

theorem next_proper (hl : l.automaton.Proper) (h : l.next = .ok (t, l')) : l'.automaton.Proper := by
  rcases next_ok h with hr | ⟨-, -, -, hr⟩
  · exact (proper_behind.1 (hr.proper hl)).2
  · exact hr.proper hl

/-- Taking the end token changes nothing that is owed, and there is nothing left. -/
theorem next_end (hl : l.automaton.Proper) (h : l.next = .ok (t, l')) (ht : t.isEnd) :
    (∀ more, l.owed more = l'.owed more) ∧ l'.automaton.ready = #[] ∧ l'.unread = [] := by
  rcases next_ok h with hr | ⟨-, hready, hunread, hr⟩
  · have := (proper_behind.1 (hr.proper hl)).1 t (by simp)
    rw [this] at ht
    cases ht
  · exact ⟨fun _ => owed_of_reaches (by rwa [hunread]), hready, hunread⟩

theorem next_owed (h : l.next = .ok (t, l')) (ht : ¬t.isEnd) : l.owed more = (l'.owed more).map (t :: ·) := by
  rcases next_ok h with hr | ⟨rfl, -⟩
  · rw [owed, hr.append.outcome_eq, outcome_behind_one, owed]
  · exact absurd rfl ht

/-- Taking all tokens hands out the front of what is owed. -/
theorem pull_owed (l : Lexer) (hl : l.automaton.Proper) (more : List Char) :
    l.owed more = l.pull.bind fun (ts, l') => (l'.owed more).map (ts ++ ·) := by
  -- Each token taken is the first that is owed, and the end token changes nothing.
  fun_induction pull l with
  | case1 l stuck h => exact owed_of_failsAt (next_error h)
  | case2 l t l' h ht =>
    rw [(next_end hl h ht).1]
    cases hm : l'.owed more <;> simp [Except.bind, Except.map, hm]
  | case3 l t l' h ht ih =>
    rw [next_owed h ht, ih (next_proper hl h)]
    cases l'.pull with
    | error e => rfl
    | ok p => cases hm : p.2.owed more <;> simp [Except.bind, Except.map, hm]

/-- After all tokens have been taken nothing is ready and nothing waits. -/
theorem pull_dry {ts : List Token} (hl : l.automaton.Proper) (h : l.pull = .ok (ts, l')) :
    l'.automaton.ready = #[] ∧ l'.unread = [] ∧ l'.automaton.Proper := by
  fun_induction pull l generalizing ts with
  | case1 => cases h
  | case2 l t d hn ht =>
    obtain ⟨rfl, rfl⟩ := Prod.mk.inj (Except.ok.inj h)
    obtain ⟨-, hready, hunread⟩ := next_end hl hn ht
    exact ⟨hready, hunread, next_proper hl hn⟩
  | case3 l t d hn ht ih =>
    cases hp : d.pull with
    | error e => simp [hp, Except.map] at h
    | ok p =>
      obtain ⟨us, last⟩ := p
      obtain ⟨-, rfl⟩ : t :: us = ts ∧ last = l' := by simpa [hp, Except.map] using h
      exact ih (next_proper hl hn) hp

/-- With nothing left to read, the next token is the first that is ready. -/
theorem next_of_unread_nil (hu : l.unread = []) (h : l.next = .ok (t, l')) :
    l.automaton = l'.automaton.behind #[t] 0 ∧ l'.unread = [] ∨ t = Token.endOfInput ∧ l.automaton.ready = #[] := by
  rcases next_ok h with hr | ⟨ht, hready, -, hr⟩
  · rcases hr.eq_or_lt with ⟨ha, hu'⟩ | hlt
    · exact .inl ⟨ha.symm, hu'.trans hu⟩
    · simp [hu] at hlt
  · rcases hr.eq_or_lt with ⟨ha, -⟩ | hlt
    · exact .inr ⟨ht, ha ▸ hready⟩
    · simp [hu] at hlt

/-- With nothing left to read, the tokens that are ready are all there are. -/
theorem pull_ready (hl : l.automaton.Proper) (hu : l.unread = []) :
    ∃ l', l.pull = .ok (l.automaton.ready.toList, l') := by
  fun_induction pull l with
  | case1 l stuck h =>
    obtain ⟨a', c, hr, -⟩ := next_error h
    rcases hr.eq_or_lt with ⟨-, hc⟩ | hlt
    · rw [hu] at hc
      cases hc
    · simp [hu] at hlt
  | case2 l t l' h ht =>
    rcases next_of_unread_nil hu h with ⟨ha, -⟩ | ⟨-, hready⟩
    · have := hl t (by simp [ha])
      rw [this] at ht
      cases ht
    · exact ⟨l', by rw [hready]⟩
  | case3 l t l' h ht ih =>
    rcases next_of_unread_nil hu h with ⟨ha, hu'⟩ | ⟨rfl, -⟩
    · obtain ⟨last, hp⟩ := ih (next_proper hl h) hu'
      exact ⟨last, by simp [hp, Except.map, ha]⟩
    · exact absurd rfl ht

/-- The calls hand out the front of what is owed for the texts that they add. -/
theorem run_owed (l : Lexer) (hl : l.automaton.Proper) (calls : List Call) (more : List Char) :
    l.owed ((Call.added calls).toList ++ more) =
      (l.run calls).bind fun (ts, l') => (l'.owed more).map (ts ++ ·) := by
  induction calls generalizing l with
  | nil => cases hm : l.owed more <;> simp [run, Call.added, Except.bind, Except.map, hm]
  | cons call calls ih =>
    cases call with
    | add text =>
      have hp : (l.addText text).automaton.Proper := by rwa [addText, automaton_add]
      rw [run, ← ih _ hp, owed_addText, Call.added, String.toList_append, List.append_assoc]
    | peek =>
      rw [run, Call.added]
      cases h : l.peek with
      | error stuck => exact owed_of_failsAt (peek_error h)
      | ok p =>
        have hr := peek_ok h
        rw [owed_of_reaches hr, ih _ (hr.proper hl)]
    | next =>
      rw [run, Call.added]
      cases h : l.next with
      | error stuck => exact owed_of_failsAt (next_error h)
      | ok p =>
        obtain ⟨t, l'⟩ := p
        have hp := next_proper hl h
        by_cases ht : t.isEnd
        · rw [(next_end hl h ht).1, ih _ hp]
          simp [ht]
        · rw [next_owed h ht, ih _ hp]
          simp only [ht]
          cases l'.run calls with
          | error e => rfl
          | ok q => cases hm : q.2.owed more <;> simp [Except.bind, Except.map, hm]

theorem run_proper {calls : List Call} {ts : List Token} (hl : l.automaton.Proper) (h : l.run calls = .ok (ts, l')) :
    l'.automaton.Proper := by
  induction calls generalizing l ts with
  | nil =>
    obtain ⟨-, rfl⟩ := Prod.mk.inj (Except.ok.inj h)
    exact hl
  | cons call calls ih =>
    cases call with
    | add text => exact ih (l := l.addText text) (by rwa [addText, automaton_add]) h
    | peek =>
      rw [run] at h
      cases hp : l.peek with
      | error stuck => simp [hp] at h
      | ok p =>
        rw [hp] at h
        exact ih ((peek_ok hp).proper hl) h
    | next =>
      rw [run] at h
      cases hn : l.next with
      | error stuck => simp [hn] at h
      | ok p =>
        obtain ⟨t, d⟩ := p
        simp only [hn] at h
        have hd := next_proper hl hn
        split at h
        · exact ih hd h
        · cases hr : d.run calls with
          | error e => simp [hr, Except.map] at h
          | ok q =>
            obtain ⟨us, last⟩ := q
            obtain ⟨-, rfl⟩ : t :: us = ts ∧ last = l' := by simpa [hr, Except.map] using h
            exact ih hd hr

end Owed

/-! ## Sessions -/

/-- **Splits do not show.** In whatever order texts are added and tokens are looked at and taken, the tokens handed out
up to the end, or the first error, are those of the one text that the added texts make up. -/
theorem session_eq_lex (calls : List Call) : session calls = lex (Call.added calls) := by
  have hl : initial.automaton.Proper := proper_initial
  have hrun := run_owed initial hl calls []
  have hstart : initial.owed ((Call.added calls).toList ++ []) = lex (Call.added calls) := by
    rw [lex_eq_outcome, List.append_nil]
    rfl
  rw [← hstart, hrun, session]
  -- From here on both sides have handed out the same tokens, and what is still owed is compared.
  cases h : initial.run calls with
  | error e => rfl
  | ok p =>
    obtain ⟨taken, l⟩ := p
    have hp := run_proper hl h
    have hpull := pull_owed l hp []
    simp only [Except.bind, hpull]
    cases hq : l.pull with
    | error e => rfl
    | ok q =>
      obtain ⟨pulled, d⟩ := q
      obtain ⟨hready, hunread, hproper⟩ := pull_dry hp hq
      -- Nothing is left to read, so what is owed is what the end of the input makes ready.
      have hfinish := hproper.finish
      simp only [owed, hunread, Automaton.outcome, finish, List.nil_append]
      cases hf : d.automaton.finish with
      | error stuck => rfl
      | ok b =>
        rw [hf] at hfinish
        obtain ⟨last, hlast⟩ := pull_ready (l := { d with automaton := b }) hfinish hunread
        simp [hlast, Except.map]

end Zygo.Lexer
