import Zygo.Proofs.Lexer.Grammar

/-!
# The automaton reads by the grammar

`Automaton.Agrees` compares the automaton in some mode, with some pending text, with the rest of a lexeme. A character
that completes nothing moves both on (`Agrees.cons`), so each lexeme is one induction over its characters, and a text is
one over its lexemes. What the automaton finds out one character late, after `~`, after `:` and behind an atom, it
finds out before that character is taken in.

* `lex_eq_read`: lexing and reading by the grammar give the same tokens, or the same error on the line where the
  reading fails.
-/

namespace Zygo.Lexer.Automaton

open Grammar

/-! ## From a state to a lexeme -/

/-- What the automaton makes of `s`, from a mode with a pending text on, is the lexeme: it goes on behind it between
tokens, with the token ready and the newlines counted, or fails as the lexeme does, on the line that the reading has
come to. -/
def Agrees (mode : Mode) (pending : String) (s : List Char) : Lexeme → Prop
  | .ok (t?, rest) => ∃ used, s = used ++ rest ∧ ∀ ready line,
      outcome ⟨mode, pending, ready, line⟩ s =
        outcome ⟨.normal, "", ready ++ t?.toArray, line + used.count '\n'⟩ rest
  | .error f => ∃ before, s = before ++ f.rest ∧ ∀ ready line,
      outcome ⟨mode, pending, ready, line⟩ s = .error ⟨f.cause, line + before.count '\n'⟩

section Agrees

variable {mode : Mode} {pending : String} {c : Char} {s : List Char} {r : Lexeme} {cause : LexError.Cause}
  {t? : Option Token}

/-- A character that completes no token. -/
theorem Agrees.cons (mode' : Mode) (pending' : String)
    (hc : ∀ ready line, step ⟨mode, pending, ready, line⟩ c = .ok ⟨mode', pending', ready, line⟩)
    (h : Agrees mode' pending' s r) : Agrees mode pending (c :: s) r := by
  cases r with
  | ok p =>
    obtain ⟨used, rfl, h⟩ := h
    refine ⟨c :: used, rfl, fun ready line => ?_⟩
    rw [outcome, advance_of_step (hc ready line), count_cons_add c used, ← Nat.add_assoc]
    exact h _ _
  | error f =>
    obtain ⟨before, hb, h⟩ := h
    refine ⟨c :: before, by rw [hb]; rfl, fun ready line => ?_⟩
    rw [outcome, advance_of_step (hc ready line), count_cons_add c before, ← Nat.add_assoc]
    exact h _ _

/-- A character that ends the lexeme. -/
theorem agrees_last
    (hc : ∀ ready line, step ⟨mode, pending, ready, line⟩ c = .ok ⟨.normal, "", ready ++ t?.toArray, line⟩) :
    Agrees mode pending (c :: s) (.ok (t?, s)) :=
  ⟨[c], rfl, fun ready line => by rw [outcome, advance_of_step (hc ready line)]⟩

/-- A lexeme that has ended before the first character of what is left. -/
theorem agrees_end (h : ∀ ready line, outcome ⟨mode, pending, ready, line⟩ s =
      outcome ⟨.normal, "", ready ++ t?.toArray, line⟩ s) : Agrees mode pending s (.ok (t?, s)) :=
  ⟨[], rfl, h⟩

/-- A failure before the first character of what is left is taken in. -/
theorem agrees_fail (h : ∀ ready line, outcome ⟨mode, pending, ready, line⟩ s = .error ⟨cause, line⟩) :
    Agrees mode pending s (.error ⟨cause, s⟩) :=
  ⟨[], rfl, h⟩

end Agrees

/-! ## Comments and literals -/

theorem agrees_comment (s : List Char) : Agrees .comment "" s (.ok (none, (s.dropWhile (· ≠ '\n')).tail)) := by
  induction s with
  | nil => exact agrees_end fun _ _ => rfl
  | cons c s ih =>
    by_cases hc : c = '\n'
    · subst hc
      exact agrees_last fun ready line => by simp [step, enter]
    · rw [List.dropWhile_cons_of_pos (by simpa using hc)]
      exact ih.cons _ _ fun ready line => by simp [step, hc]

theorem extend_extend (before before' : List Char) (r : Except Fault (List Char × List Char)) :
    extend before (extend before' r) = extend (before ++ before') r := by
  cases r <;> simp [extend]

theorem extend_nil (r : Except Fault (List Char × List Char)) : extend [] r = r := by
  cases r <;> rfl

/-- Quoted strings are read from any part of their payload on. -/
theorem agrees_quoted (s : List Char) (pending : String) :
    Agrees .string pending s (literal .string (extend pending.toList (quoted s))) := by
  -- The payload so far is what is pending, so each character moves from the text to the end of it.
  fun_induction quoted s generalizing pending with
  | case1 => exact agrees_fail fun _ _ => rfl
  | case2 => exact Agrees.cons .escaped pending (fun _ _ => rfl) (agrees_fail fun _ _ => rfl)
  | case3 s => exact agrees_last fun ready line => by simp [step, enter, emitPending, emit]
  | case4 letter s c hc ih =>
    rw [extend_extend]
    refine Agrees.cons .escaped pending (fun _ _ => rfl) ?_
    refine Agrees.cons .string (pending.push c) (fun ready line => ?_) ?_
    · simp [step, enter, hc, collect]
    · simpa using ih (pending.push c)
  | case5 letter s hc =>
    refine Agrees.cons .escaped pending (fun _ _ => rfl) (agrees_fail fun _ _ => ?_)
    simp [outcome, advance, step, hc, fail]
  | case6 c s hlast hquote hletter ih =>
    have hslash : c ≠ '\\' := by
      rintro rfl
      cases s with
      | nil => exact hlast rfl rfl
      | cons letter s => exact hletter letter s rfl rfl
    rw [extend_extend]
    refine Agrees.cons .string (pending.push c) (fun ready line => ?_) ?_
    · have hq : c ≠ '"' := hquote
      simp [step, hslash, hq, collect]
    · simpa using ih (pending.push c)

theorem agrees_raw (s : List Char) (pending : String) :
    Agrees .rawString pending s (literal .rawString (extend pending.toList (raw s))) := by
  induction s generalizing pending with
  | nil => exact agrees_fail fun _ _ => rfl
  | cons c s ih =>
    by_cases hc : c = '`'
    · subst hc
      exact agrees_last fun ready line => by simp [step, enter, emitPending, emit]
    · have hraw : raw (c :: s) = extend [c] (raw s) := by
        simp only [raw]
        rw [List.dropWhile_cons_of_pos (by simpa using hc), List.takeWhile_cons_of_pos (by simpa using hc)]
        split <;> rfl
      rw [hraw, extend_extend]
      refine Agrees.cons .rawString (pending.push c) (fun ready line => ?_) ?_
      · simp [step, hc, collect]
      · simpa using ih (pending.push c)

/-! ## Deferred decisions -/

/-- `~` waits for the next character. -/
theorem agrees_unquote (s : List Char) :
    Agrees .unquote "" s (if s.head? = some '@' then .of (.bare .tildeAt) s.tail else .of (.bare .tilde) s) := by
  cases s with
  | nil => exact agrees_end fun ready line => by simp [outcome, finish, enter, emit, flush]
  | cons c s =>
    by_cases hc : c = '@'
    · subst hc
      exact agrees_last fun ready line => by simp [step, enter, emit]
    · simp only [List.head?_cons, Option.some.injEq, hc, if_false]
      exact agrees_end fun ready line => by simp [outcome, advance, step, hc, enter, emit]

/-- The outcome of an atom that has ended. -/
def flushed (pending : String) (ready : Array Token) (line : Nat)
    (next : Array Token → Except LexError (List Token)) : Except LexError (List Token) :=
  match Atom.classify pending with
  | .ok t => next (ready.push t)
  | .error cause => .error ⟨cause, line⟩

section Atoms

variable {pending : String} {ready : Array Token} {line : Nat} {c : Char} {s : List Char}

/-- After `:` the atom before it is completed first. -/
theorem outcome_assign (hp : pending ≠ "") :
    outcome ⟨.assign, pending, ready, line⟩ s =
      flushed pending ready line fun ready => outcome ⟨.assign, "", ready, line⟩ s := by
  unfold flushed
  cases s with
  | nil => cases h : Atom.classify pending <;> simp [outcome, finish, enter, flush, hp, h, fail, Except.map, emit]
  | cons c s =>
    cases h : Atom.classify pending <;>
      simp [outcome, advance, step, enter, flush, hp, h, fail, emit]

/-- `:` waits for the next character. -/
theorem agrees_assign (s : List Char) :
    Agrees .assign "" s (if s.head? = some '=' then .of ⟨.freshAssign, ":="⟩ s.tail else .of (.bare .colon) s) := by
  cases s with
  | nil => exact agrees_end fun ready line => by simp [outcome, finish, enter, emit, flush, Except.map]
  | cons c s =>
    by_cases hc : c = '='
    · subst hc
      exact agrees_last fun ready line => by simp [step, enter, emit, flush]
    · simp only [List.head?_cons, Option.some.injEq, hc, if_false]
      exact agrees_end fun ready line => by simp [outcome, advance, step, hc, enter, emit, flush]

/-- What may follow an atom directly. -/
theorem class_after_atom (hw : isWordChar c = false) (hm : mark? c = none) :
    c = ':' ∨ CharClass.of c = .separator ∨ CharClass.of c = .comment ∨ CharClass.of c = .dollar ∨
      ∃ kind, CharClass.of c = .bracket kind := by
  unfold CharClass.of
  split <;> simp_all [mark?, isWordChar, special]

/-- Before a character that may follow an atom, or at the end, the atom is completed. -/
theorem outcome_atom (hp : pending ≠ "") (hm : s.head?.bind mark? = none) (hw : ∀ c ∈ s.head?, isWordChar c = false) :
    outcome ⟨.normal, pending, ready, line⟩ s =
      flushed pending ready line fun ready => outcome ⟨.normal, "", ready, line⟩ s := by
  cases s with
  | nil =>
    unfold flushed
    cases h : Atom.classify pending <;> simp [outcome, finish, flush, hp, h, fail, emit]
  | cons c s =>
    rcases class_after_atom (hw c rfl) hm with rfl | hc | hc | hc | ⟨kind, hc⟩
    · exact outcome_assign hp
    all_goals
      unfold flushed
      cases h : Atom.classify pending <;>
        simp [outcome, advance, step, stepNormal, hc, flush, hp, h, fail, emit, enter, Except.map]

/-- A mark right behind an atom. -/
theorem outcome_mark (hp : pending ≠ "") {mark : Mark} (hm : mark? c = some mark) :
    outcome ⟨.normal, pending, ready, line⟩ (c :: s) = .error ⟨.unexpected mark, line⟩ := by
  unfold mark? at hm
  split at hm <;> cases hm <;>
    simp [outcome, advance, step, stepNormal, CharClass.of, apart, hp, fail]

theorem agrees_atom (hp : pending ≠ "") (hw : ∀ c ∈ s.head?, isWordChar c = false) :
    Agrees .normal pending s (Grammar.atom pending s) := by
  unfold Grammar.atom
  split
  · rename_i mark hm
    cases s with
    | nil => cases hm
    | cons c s => exact agrees_fail fun _ _ => outcome_mark hp hm
  · rename_i hm
    split
    · rename_i t ht
      exact agrees_end fun _ _ => by rw [outcome_atom hp hm hw, flushed, ht]; rfl
    · rename_i cause hc
      exact agrees_fail fun _ _ => by rw [outcome_atom hp hm hw, flushed, hc]

theorem class_of_word (hc : isWordChar c) : CharClass.of c = .plain := by
  unfold CharClass.of
  split <;> first | rfl | simp [isWordChar, special] at hc

theorem step_word (hc : isWordChar c) :
    step ⟨.normal, pending, ready, line⟩ c = .ok ⟨.normal, pending.push c, ready, line⟩ := by
  simp [step, stepNormal, class_of_word hc, collect]

/-- The characters of an atom are collected. -/
theorem agrees_word (s : List Char) (hp : pending ≠ "") :
    Agrees .normal pending s
      (Grammar.atom (pending ++ String.ofList (s.takeWhile isWordChar)) (s.dropWhile isWordChar)) := by
  induction s generalizing pending with
  | nil => simpa using agrees_atom hp (by simp)
  | cons c s ih =>
    by_cases hc : isWordChar c
    · rw [List.takeWhile_cons_of_pos hc, List.dropWhile_cons_of_pos hc]
      refine Agrees.cons .normal (pending.push c) (fun _ _ => step_word hc) ?_
      have hpush : pending ++ String.ofList (c :: s.takeWhile isWordChar) =
          pending.push c ++ String.ofList (s.takeWhile isWordChar) := by
        rw [← String.toList_inj]
        simp
      rw [hpush]
      exact ih String.push_ne_empty
    · rw [List.takeWhile_cons_of_neg hc, List.dropWhile_cons_of_neg hc]
      simpa using agrees_atom hp (s := c :: s) (by simpa using hc)

end Atoms

/-! ## Lexemes and texts -/

/-- Between tokens the automaton reads the lexeme that comes next. -/
theorem agrees_lexeme (c : Char) (s : List Char) : Agrees .normal "" (c :: s) (lexeme c s) := by
  unfold lexeme
  split
  case h_6 => exact (agrees_comment s).cons _ _ fun _ _ => rfl
  case h_16 => exact (agrees_unquote s).cons _ _ fun _ _ => rfl
  case h_17 => exact (agrees_assign s).cons _ _ fun _ _ => rfl
  case h_18 =>
    refine Agrees.cons .string "" (fun _ _ => rfl) ?_
    simpa [extend_nil] using agrees_quoted s ""
  case h_19 =>
    refine Agrees.cons .rawString "" (fun _ _ => rfl) ?_
    simpa [extend_nil] using agrees_raw s ""
  case h_20 =>
    have hw : isWordChar c := by simp_all [isWordChar, special]
    refine Agrees.cons .normal (String.ofList [c]) (fun _ _ => step_word hw) ?_
    have hc : String.ofList (c :: s.takeWhile isWordChar) =
        String.ofList [c] ++ String.ofList (s.takeWhile isWordChar) := by
      rw [← String.ofList_append, List.singleton_append]
    rw [hc]
    exact agrees_word s fun h => by simpa using congrArg String.toList h
  all_goals exact agrees_last fun ready line => by simp [step, stepNormal, CharClass.of, flush, emit, apart, Except.map]

/-- Between tokens the automaton reads the rest of the text by the grammar, behind the tokens that are ready. -/
theorem outcome_read (s : List Char) (ready : Array Token) (line : Nat) :
    match read s with
    | .ok ts => outcome ⟨.normal, "", ready, line⟩ s = .ok (ready.toList ++ ts)
    | .error f => ∃ before, s = before ++ f.rest ∧
        outcome ⟨.normal, "", ready, line⟩ s = .error ⟨f.cause, line + before.count '\n'⟩ := by
  -- The tokens that are ready and the line only build up, so they are free in the induction.
  fun_induction read s generalizing ready line with
  | case1 => simp [outcome, finish, flush]
  | case2 c s f h =>
    have ha := agrees_lexeme c s
    rw [h] at ha
    obtain ⟨before, hb, ho⟩ := ha
    exact ⟨before, hb, ho ready line⟩
  | case3 c s t? rest h ih =>
    have ha := agrees_lexeme c s
    rw [h] at ha
    obtain ⟨used, hu, ho⟩ := ha
    have hrest := ih (ready ++ t?.toArray) (line + used.count '\n')
    cases hr : read rest with
    | ok ts =>
      rw [hr] at hrest
      simp only [Except.map]
      rw [ho, hrest]
      cases t? <;> simp
    | error f =>
      rw [hr] at hrest
      obtain ⟨before, rfl, hb⟩ := hrest
      refine ⟨used ++ before, by rw [hu, List.append_assoc], ?_⟩
      rw [ho, hb, List.count_append, Nat.add_assoc]

end Zygo.Lexer.Automaton

namespace Zygo

open Lexer

theorem lex_ok_iff {text : String} {ts : List Token} : lex text = .ok ts ↔ Grammar.read text.toList = .ok ts := by
  have h := Automaton.outcome_read text.toList #[] 1
  rw [lex_eq_outcome, show Automaton.initial = ⟨.normal, "", #[], 1⟩ from rfl]
  cases hr : Grammar.read text.toList with
  | ok us =>
    rw [hr] at h
    simp [h]
  | error f =>
    rw [hr] at h
    obtain ⟨before, -, h⟩ := h
    simp [h]

/-- **The automaton reads by the grammar.** Both give the same tokens, or fail for the same cause, and then the line is
that of the character at which the reading fails. -/
theorem lex_eq_read (text : String) :
    match Grammar.read text.toList with
    | .ok ts => lex text = .ok ts
    | .error f => ∃ before, text.toList = before ++ f.rest ∧ lex text = .error ⟨f.cause, 1 + before.count '\n'⟩ := by
  rw [lex_eq_outcome]
  exact Automaton.outcome_read text.toList #[] 1

end Zygo
