import Zygo.Proofs.Lexer.Calls

/-!
# Draining a lexer

* A step counts lines and leaves an automaton in good order (`advance_ok`). A failing step fails on the line it stands on
  and changes nothing, except that it gives up an undecided `:` (`advance_error`); this holds because nothing is pending
  after `~` and in comments (`Tidy`), so that a character handed back to the normal mode with a token already queued
  cannot fail.
* `readAll` takes a text in parts (`readAll_append`) and stops at one character (`readAll_line`, `readAll_breaks`).
* `drain_eq`: draining reads everything that waits, in whatever sources it lies, and hands out all that is ready.
* `takeAll_eq_drain`: these are the tokens that come when they are taken one by one.
-/

namespace Zygo.Lexer

namespace Automaton

variable {a b : Automaton} {c : Char} {s t rest : List Char} {stuck : Stuck Automaton} {e : LexError}

/-! ## One character -/

/-- Text is pending in atoms and literals only. -/
def Tidy (a : Automaton) : Prop :=
  a.mode = .comment ∨ a.mode = .unquote → a.pending = ""

theorem tidy_initial : initial.Tidy := by simp [Tidy, initial]

theorem tidy_of_pending (h : a.pending = "") : a.Tidy := fun _ => h

theorem tidy_of_mode (hc : a.mode ≠ .comment) (hu : a.mode ≠ .unquote) : a.Tidy := by
  rintro (h | h)
  · exact absurd h hc
  · exact absurd h hu

theorem flush_of_pending (h : a.pending = "") : a.flush = .ok a := by
  simp [flush, h]

theorem flush_ok (h : a.flush = .ok b) : b.pending = "" ∧ b.mode = a.mode ∧ b.line = a.line := by
  unfold flush at h
  split at h
  · rename_i hp
    obtain rfl := Except.ok.inj h
    exact ⟨by simpa using hp, rfl, rfl⟩
  · split at h
    · obtain rfl := Except.ok.inj h
      exact ⟨rfl, rfl, rfl⟩
    · cases h

theorem flush_error (h : a.flush = .error stuck) : stuck.error.line = a.line ∧ stuck.state = a := by
  unfold flush at h
  split at h
  · cases h
  · split at h
    · cases h
    · obtain rfl := Except.error.inj h
      exact ⟨rfl, rfl⟩

/-- What a failing step leaves: the automaton as it was, but for an undecided `:`, which is given up. -/
def refused (a : Automaton) : Automaton :=
  { a with mode := if a.mode = .assign then .normal else a.mode }

theorem refused_of_mode (h : a.mode ≠ .assign) : a.refused = a := by
  simp [refused, h]

theorem refused_of_assign (h : a.mode = .assign) : a.refused = a.enter .normal := by
  simp [refused, h, enter]

theorem Tidy.refused (ha : a.Tidy) : a.refused.Tidy := by
  by_cases hm : a.mode = .assign
  · rw [refused_of_assign hm]
    exact tidy_of_mode (by simp [enter]) (by simp [enter])
  · rwa [refused_of_mode hm]

/-- What a step from `a` may give: the line stays, and a failing step changes nothing else than its decision on `:`. -/
def Kept (a : Automaton) : Except (Stuck Automaton) Automaton → Prop
  | .ok b => b.Tidy ∧ b.line = a.line
  | .error stuck => stuck.error.line = a.line ∧ stuck.state = a.refused

theorem kept_flush (hm : a.mode ≠ .assign) {f : Automaton → Automaton} (hp : ∀ d, (f d).pending = d.pending)
    (hl : ∀ d, (f d).line = d.line) : Kept a (a.flush.map f) := by
  cases h : a.flush with
  | ok d =>
    obtain ⟨hd, -, hline⟩ := flush_ok h
    exact ⟨tidy_of_pending ((hp d).trans hd), (hl d).trans hline⟩
  | error stuck =>
    obtain ⟨hline, hstate⟩ := flush_error h
    exact ⟨hline, by rw [hstate, refused_of_mode hm]⟩

/-- An undecided `:` is given up before the atom in front of it is looked at. -/
theorem Kept.of_enter {r : Except (Stuck Automaton) Automaton} (hk : Kept (a.enter .normal) r) (hm : a.mode = .assign) :
    Kept a r := by
  cases r with
  | ok d => exact hk
  | error stuck => exact ⟨hk.1, by rw [hk.2, refused_of_assign hm, refused_of_mode (by simp [enter])]⟩

theorem kept_apart (hm : a.mode ≠ .assign) {mark : Mark} (hb : a.pending = "" → b.pending = "") (hl : b.line = a.line) :
    Kept a (a.apart mark b) := by
  unfold apart
  split
  · rename_i hp
    exact ⟨tidy_of_pending (hb (by simpa using hp)), hl⟩
  · exact ⟨rfl, (refused_of_mode hm).symm⟩

theorem kept_stepNormal (hm : a.mode = .normal) (c : Char) : Kept a (a.stepNormal c) := by
  have hassign : a.mode ≠ .assign := by simp [hm]
  unfold stepNormal
  split
  case h_1 => simpa using kept_flush hassign (f := id) (fun _ => rfl) (fun _ => rfl)
  case h_2 | h_4 | h_5 => exact kept_flush hassign (fun _ => rfl) (fun _ => rfl)
  case h_3 => exact ⟨tidy_of_mode (by simp [enter]) (by simp [enter]), rfl⟩
  case h_6 | h_7 | h_8 | h_9 | h_10 => exact kept_apart hassign id rfl
  case h_11 => exact ⟨tidy_of_mode (by simp [collect, hm]) (by simp [collect, hm]), rfl⟩

/-- With nothing pending the normal mode takes any character. -/
theorem stepNormal_of_pending (hp : a.pending = "") (c : Char) : ∃ b, a.stepNormal c = .ok b := by
  unfold stepNormal
  split <;> simp [flush_of_pending hp, apart, hp, Except.map]

theorem kept_of_ok {r : Except (Stuck Automaton) Automaton} (hk : Kept b r) (hl : b.line = a.line)
    (hr : ∃ d, r = .ok d) : Kept a r := by
  obtain ⟨d, rfl⟩ := hr
  exact ⟨hk.1, hk.2.trans hl⟩

theorem kept_step (ha : a.Tidy) (c : Char) : Kept a (a.step c) := by
  unfold step
  split
  case h_1 hm => exact kept_stepNormal hm c
  case h_2 hm =>
    have hp := ha (.inl hm)
    show Tidy _ ∧ _
    split
    · exact ⟨tidy_of_pending hp, rfl⟩
    · exact ⟨ha, rfl⟩
  case h_3 hm =>
    show Tidy _ ∧ _
    split
    · exact ⟨tidy_of_pending rfl, rfl⟩
    · exact ⟨tidy_of_mode (by simp [collect, hm]) (by simp [collect, hm]), rfl⟩
  case h_4 hm =>
    show Tidy _ ∧ _
    split
    · exact ⟨tidy_of_mode (by simp [enter]) (by simp [enter]), rfl⟩
    · split
      · exact ⟨tidy_of_pending rfl, rfl⟩
      · exact ⟨tidy_of_mode (by simp [collect, hm]) (by simp [collect, hm]), rfl⟩
  case h_5 hm =>
    split
    · exact ⟨tidy_of_mode (by simp [enter]) (by simp [enter]), rfl⟩
    · exact ⟨rfl, (refused_of_mode (by simp [hm])).symm⟩
  case h_6 hm =>
    have hp := ha (.inr hm)
    split
    · exact ⟨tidy_of_pending hp, rfl⟩
    · -- `~` is already queued, so the character handed back has to be taken.
      have hq : ((a.emit (.bare .tilde)).enter .normal).pending = "" := hp
      exact kept_of_ok (kept_stepNormal rfl c) rfl (stepNormal_of_pending hq c)
  case h_7 hm =>
    split
    · rename_i stuck h
      obtain ⟨hline, hstate⟩ := flush_error h
      exact ⟨hline, by rw [hstate, refused_of_assign hm]⟩
    · rename_i d h
      obtain ⟨hp, hmode, hline⟩ := flush_ok h
      split
      · exact ⟨tidy_of_pending hp, hline⟩
      · -- `:` is already queued, so the character handed back has to be taken.
        have hq : (d.emit (.bare .colon)).pending = "" := hp
        have hm' : (d.emit (.bare .colon)).mode = .normal := hmode
        exact kept_of_ok (kept_stepNormal hm' c) hline (stepNormal_of_pending hq c)

/-- A character that is taken counts if it is a newline. -/
theorem advance_ok (ha : a.Tidy) (h : a.advance c = .ok b) : b.Tidy ∧ b.line = a.line + [c].count '\n' := by
  have hk := kept_step ha c
  cases hs : a.step c with
  | error stuck => simp [advance, hs] at h
  | ok d =>
    rw [hs] at hk
    rw [advance_of_step hs] at h
    obtain rfl := Except.ok.inj h
    exact ⟨hk.1, by rw [hk.2]⟩

/-- A character that is not taken changes nothing else than the decision on `:`, and its error is on the line before any
newline is counted. -/
theorem advance_error (ha : a.Tidy) (h : a.advance c = .error stuck) :
    stuck.error.line = a.line ∧ stuck.state = a.refused := by
  have hk := kept_step ha c
  cases hs : a.step c with
  | ok d => simp [advance, hs] at h
  | error stuck' =>
    rw [hs] at hk
    obtain rfl : stuck' = stuck := by simpa [advance, hs] using h
    exact hk

theorem kept_finish (a : Automaton) : Kept a a.finish := by
  unfold finish
  split
  case h_1 hm => simpa using kept_flush (by simp [hm]) (f := id) (fun _ => rfl) (fun _ => rfl)
  case h_2 | h_3 => exact ⟨tidy_of_mode (by simp [enter, emit]) (by simp [enter, emit]), rfl⟩
  case h_4 hm =>
    have hnormal : (a.enter .normal).mode ≠ .assign := by simp [enter]
    exact Kept.of_enter (kept_flush hnormal (fun _ => rfl) (fun _ => rfl)) hm
  case h_5 hm | h_6 hm | h_7 hm => exact ⟨rfl, (refused_of_mode (by simp [hm])).symm⟩

theorem finish_ok (h : a.finish = .ok b) : b.Tidy ∧ b.line = a.line := by
  have hk := kept_finish a
  rwa [h] at hk

theorem finish_error (h : a.finish = .error stuck) : stuck.error.line = a.line ∧ stuck.state = a.refused := by
  have hk := kept_finish a
  rwa [h] at hk

/-! ## Whole texts -/

theorem readAll_append (a : Automaton) (s t : List Char) :
    a.readAll (s ++ t) =
      match a.readAll s with
      | .ok b => b.readAll t
      | .error ⟨e, b, rest⟩ => .error ⟨e, b, rest ++ t⟩ := by
  fun_induction readAll a s with
  | case1 => rfl
  | case2 a c s stuck h => simp [readAll, h]
  | case3 a c s b h ih => simpa [readAll, h] using ih

/-- A text that is read leaves the automaton in good order, with its newlines counted. -/
theorem readAll_line (ha : a.Tidy) (h : a.readAll s = .ok b) : b.Tidy ∧ b.line = a.line + s.count '\n' := by
  fun_induction readAll a s with
  | case1 a =>
    obtain rfl := Except.ok.inj h
    exact ⟨ha, by simp⟩
  | case2 => cases h
  | case3 a c s d hc ih =>
    obtain ⟨hd, hline⟩ := advance_ok ha hc
    obtain ⟨hb, hline'⟩ := ih hd h
    refine ⟨hb, ?_⟩
    rw [hline', hline, count_cons_add c s, Nat.add_assoc]

/-- The character on which reading breaks off: what stands before it is read, and nothing more is queued. -/
theorem readAll_breaks (ha : a.Tidy) (h : a.readAll s = .error ⟨e, b, rest⟩) :
    ∃ read c d, s = read ++ c :: rest ∧ a.readAll read = .ok d ∧ d.advance c = .error ⟨e, b⟩ ∧
      e.line = a.line + read.count '\n' ∧ b.ready = d.ready := by
  fun_induction readAll a s with
  | case1 => cases h
  | case2 a c s stuck hc =>
    obtain ⟨rfl, rfl, rfl⟩ : stuck.error = e ∧ stuck.state = b ∧ s = rest := by simpa using h
    obtain ⟨hline, hstate⟩ := advance_error ha hc
    exact ⟨[], c, a, rfl, rfl, hc, by simpa using hline, by rw [hstate]; rfl⟩
  | case3 a c s a' hc ih =>
    obtain ⟨ha', hline⟩ := advance_ok ha hc
    obtain ⟨read, x, d, rfl, hread, hx, hline', hready⟩ := ih ha' h
    refine ⟨c :: read, x, d, rfl, by rw [readAll, hc]; exact hread, hx, ?_, hready⟩
    rw [hline', hline, count_cons_add c read, Nat.add_assoc]

theorem readAll_behind (before : Array Token) (lines : Nat) (a : Automaton) (s : List Char) :
    (a.behind before lines).readAll s =
      match a.readAll s with
      | .ok b => .ok (b.behind before lines)
      | .error ⟨e, b, rest⟩ => .error ⟨e.shift lines, b.behind before lines, rest⟩ := by
  fun_induction readAll a s with
  | case1 => rfl
  | case2 a c s stuck h => simp [readAll, advance_behind, h, resultBehind]
  | case3 a c s b h ih => simpa [readAll, advance_behind, h, resultBehind] using ih

theorem Reaches.readAll_eq (h : Reaches a s b rest) : a.readAll s = b.readAll rest := by
  induction h with
  | refl => rfl
  | step hc _ ih => rw [readAll, hc]; exact ih

theorem FailsAt.readAll_eq (h : FailsAt a s e b rest) : a.readAll s = .error ⟨e, b, rest⟩ := by
  obtain ⟨d, c, hr, hc⟩ := h
  rw [hr.readAll_eq, readAll, hc]

theorem Reaches.tidy (h : Reaches a s b rest) (ha : a.Tidy) : b.Tidy := by
  induction h with
  | refl => exact ha
  | step hc _ ih => exact ih (advance_ok ha hc).1

/-- Reading up to a token fails only while no token is ready, and leaves none ready. -/
theorem readToken_error_ready (ha : a.Tidy) (h : a.readToken s = .error ⟨e, b, rest⟩) : b.ready = #[] := by
  fun_induction readToken a s with
  | case2 a c s hr stuck hc =>
    obtain ⟨rfl, rfl, rfl⟩ : stuck.error = e ∧ stuck.state = b ∧ s = rest := by simpa using h
    rw [(advance_error ha hc).2]
    simpa [refused] using hr
  | case3 a c s hr a' hc ih => exact ih (advance_ok ha hc).1 h
  | case1 | case4 => cases h

end Automaton

/-! ## Draining -/

/-- The lexer that has read all there is and whose tokens have been taken. -/
def dry (a : Automaton) : Lexer :=
  { automaton := { a with ready := #[] } }

/-- Draining reads everything that waits and hands out what is ready at its end, or where reading breaks off. -/
theorem drain_eq (l : Lexer) :
    match l.automaton.readAll l.unread with
    | .ok a => l.drain = ⟨a.ready.toList, none, dry a⟩
    | .error ⟨e, b, _⟩ => l.drain.tokens = b.ready.toList ∧ l.drain.error? = some e := by
  unfold drain
  cases h : exhaust l.automaton l.active l.queued with
  | ok m =>
    obtain ⟨hr, hm⟩ := exhaust_ok h
    have hread : l.automaton.readAll l.unread = .ok m.automaton := hr.readAll_eq
    rw [hread, hm]
    rfl
  | error stuck =>
    have hread : l.automaton.readAll l.unread = _ := (exhaust_error h).readAll_eq
    rw [hread]
    exact ⟨rfl, rfl⟩

/-! ## One token after the other -/

open Automaton

theorem fill_error_ready {a : Automaton} {active : Source} {queued : List Source} {stuck : Stuck Lexer}
    (ha : a.Tidy) (h : fill a active queued = .error stuck) : stuck.state.automaton.ready = #[] := by
  fun_induction fill a active queued with
  | case1 queued a active _ error b rest ht =>
    obtain rfl := Except.error.inj h
    exact readToken_error_ready ha ht
  | case3 a active _ b rest ht hr source queued ih => exact ih ((readToken_ok ht).1.tidy ha) h
  | case2 | case4 | case5 => cases h

/-- When there is no next token to look at, none is ready. -/
theorem peek_error_ready {l : Lexer} {stuck : Stuck Lexer} (ha : l.automaton.Tidy) (h : l.peek = .error stuck) :
    stuck.state.automaton.ready = #[] := by
  unfold peek at h
  cases hf : fill l.automaton l.active l.queued with
  | error stuck' =>
    obtain rfl : stuck' = stuck := by simpa [hf] using h
    exact fill_error_ready ha hf
  | ok m => simp [hf] at h

/-- Takes tokens one by one, up to the end token or the first error. -/
def takeAll (l : Lexer) : Drained :=
  match _h : l.next with
  | .error stuck => ⟨[], some stuck.error, stuck.state⟩
  | .ok (t, l') =>
    if _ht : t.isEnd then ⟨[], none, l'⟩
    else ⟨t :: (takeAll l').tokens, (takeAll l').error?, (takeAll l').lexer⟩
termination_by (l.unread.length, l.automaton.ready.size)
decreasing_by all_goals exact next_lt _h _ht

theorem drain_of_reaches {l l' : Lexer} {t : Token}
    (h : Reaches l.automaton l.unread (l'.automaton.behind #[t] 0) l'.unread) :
    l.drain.tokens = t :: l'.drain.tokens ∧ l.drain.error? = l'.drain.error? := by
  have hd := drain_eq l
  have hd' := drain_eq l'
  rw [h.readAll_eq, readAll_behind] at hd
  cases hr : l'.automaton.readAll l'.unread with
  | ok a =>
    simp only [hr] at hd hd'
    rw [hd, hd']
    simp
  | error stuck =>
    obtain ⟨e, b, rest⟩ := stuck
    simp only [hr] at hd hd'
    rw [hd.1, hd.2, hd'.1, hd'.2]
    simp [LexError.shift]

/-- **Draining hands out what comes when tokens are taken one by one**, also before an error: the step that fails has
queued nothing that would still be waiting. -/
theorem takeAll_eq_drain (l : Lexer) (ha : l.automaton.Tidy) (hl : l.automaton.Proper) :
    l.takeAll.tokens = l.drain.tokens ∧ l.takeAll.error? = l.drain.error? := by
  fun_induction takeAll l with
  | case1 l stuck h =>
    have hready := peek_error_ready ha (peek_of_next_error h)
    have hd := drain_eq l
    rw [(next_error h).readAll_eq] at hd
    obtain ⟨ht, he⟩ := hd
    exact ⟨by rw [ht, hready], he.symm⟩
  | case2 l t l' h ht =>
    rcases next_ok h with hr | ⟨-, hready, -, hr⟩
    · have hproper := (proper_behind.1 (hr.proper hl)).1 t (by simp)
      rw [hproper] at ht
      cases ht
    · have hd := drain_eq l
      rw [hr.readAll_eq, readAll] at hd
      rw [hd, hready]
      exact ⟨rfl, rfl⟩
  | case3 l t l' h ht ih =>
    rcases next_ok h with hr | ⟨rfl, -⟩
    · have htidy : l'.automaton.Tidy := hr.tidy ha
      obtain ⟨htokens, herror⟩ := ih htidy (next_proper hl h)
      obtain ⟨hd, hd'⟩ := drain_of_reaches hr
      exact ⟨by rw [hd, htokens], by rw [hd', herror]⟩
    · exact absurd rfl ht

end Zygo.Lexer
