import Zygo.Proofs.Listing.Calls

/-!
# Starting afresh

A listing that has passed over an error differs from one before any input in what it has written and recorded and in how
many lines it has behind it, and in nothing that its calls look at.

* `feedAll_behind`, `finish_behind`: calls do the same some way into the input as at its start.
* `feed_restarts`: a chunk records at most one error; if it does, it writes the tokens complete before the character at
  fault and no more, and the listing starts afresh.
-/

namespace Zygo.Listing

open Lexer

/-- The listing `f` some way into the input: behind a text that has been written, `n` lines further down, and with
errors that were passed over before. -/
def behind (out : String) (n : Nat) (errors : Array LexError) (f : Listing) : Listing :=
  { f with
    out := out ++ f.out
    lineBase := n + f.lineBase
    linesFed := n + f.linesFed
    errors := errors ++ f.errors.map (LexError.shift n) }

/-- What a call gives, some way into the input. -/
def resultBehind (out : String) (n : Nat) (errors : Array LexError) :
    Except (Stuck Listing) Listing → Except (Stuck Listing) Listing
  | .ok f => .ok (f.behind out n errors)
  | .error stuck => .error ⟨stuck.error.shift n, stuck.state.behind out n errors⟩

section Behind

variable (out : String) (n : Nat) (errors : Array LexError) (f : Listing)

theorem shift_shift (k : Nat) (e : LexError) : e.shift (n + k) = (e.shift k).shift n := by
  simp [LexError.shift, Nat.add_assoc]

theorem recover_behind (e : LexError) :
    (f.behind out n errors).recover e = resultBehind out n errors (f.recover e) := by
  unfold recover
  by_cases hx : f.exitOnFail = true
  · simp [behind, hx, resultBehind, shift_shift]
  · simp [behind, hx, resultBehind, shift_shift]

theorem drain_behind :
    (f.behind out n errors).drain = (f.drain.1.behind out n errors, f.drain.2) := by
  simp [drain, behind, String.append_assoc]

theorem feed_behind (chunk : String) :
    (f.behind out n errors).feed chunk = resultBehind out n errors (f.feed chunk) := by
  unfold feed
  have hd := drain_behind out n errors { f with lexer := f.lexer.addText chunk }
  have hstart : { f.behind out n errors with lexer := (f.behind out n errors).lexer.addText chunk } =
      ({ f with lexer := f.lexer.addText chunk } : Listing).behind out n errors := rfl
  rw [hstart, hd]
  cases ({ f with lexer := f.lexer.addText chunk } : Listing).drain with
  | mk g error? =>
    have hfed : { g.behind out n errors with linesFed := (g.behind out n errors).linesFed + newlines chunk } =
        ({ g with linesFed := g.linesFed + newlines chunk } : Listing).behind out n errors := by
      simp [behind, Nat.add_assoc]
    simp only [hfed]
    cases error? with
    | none => rfl
    | some e => exact recover_behind out n errors _ e

theorem finish_behind : (f.behind out n errors).finish = resultBehind out n errors f.finish := by
  unfold Listing.finish
  have hlexer : (f.behind out n errors).lexer = f.lexer := rfl
  rw [hlexer]
  cases f.lexer.finish with
  | error stuck => exact recover_behind out n errors { f with lexer := stuck.state } stuck.error
  | ok d =>
    have hd := drain_behind out n errors { f with lexer := d }
    have hstart : { f.behind out n errors with lexer := d } =
        ({ f with lexer := d } : Listing).behind out n errors := rfl
    simp only [hstart, hd]
    cases ({ f with lexer := d } : Listing).drain with
    | mk g error? =>
      cases error? with
      | none => rfl
      | some e => exact recover_behind out n errors g e

theorem feedAll_behind (chunks : List String) :
    (f.behind out n errors).feedAll chunks = resultBehind out n errors (f.feedAll chunks) := by
  induction chunks generalizing f with
  | nil => rfl
  | cons chunk chunks ih =>
    rw [feedAll, feedAll, feed_behind]
    cases f.feed chunk with
    | error stuck => rfl
    | ok d => exact ih d

end Behind

variable {l m : Listing}

/-- Seen from `l` on, `m` shows what `f` shows from the start of its input: the same text behind that of `l`, the same
idleness, and the same errors behind those of `l`, `n` lines further down. -/
structure Continues (l : Listing) (n : Nat) (f m : Listing) : Prop where
  out : m.out = l.out ++ f.out
  isIdle : m.isIdle = f.isIdle
  errors : m.errors = l.errors ++ f.errors.map (LexError.shift n)

/-- From `l` on, `n` lines down, everything goes as from the start of an input: behind any chunks, and behind the end of
the input that follows them. -/
def StartsAfresh (l : Listing) (n : Nat) : Prop :=
  ∀ chunks, ∃ f m f' m', (start false).feedAll chunks = .ok f ∧ l.feedAll chunks = .ok m ∧ Continues l n f m ∧
    f.finish = .ok f' ∧ m.finish = .ok m' ∧ Continues l n f' m'

/-- Feeding `chunk` to `l` goes wrong on one of its characters. The tokens of the chunk that are complete in front of
that character are `ts`, and the character itself completes none. -/
def BreaksOff (l : Listing) (chunk : String) (ts : List Token) (cause : LexError.Cause) : Prop :=
  l.lexer.automaton.ready = #[] ∧
    ∃ read c rest a stuck, chunk.toList = read ++ c :: rest ∧ l.lexer.automaton.readAll read = .ok a ∧
      a.ready.toList = ts ∧ a.advance c = .error stuck ∧ stuck.error.cause = cause ∧ stuck.state.ready = a.ready

theorem continues_behind (l : Listing) (n : Nat) (f : Listing) : Continues l n f (f.behind l.out n l.errors) :=
  ⟨rfl, rfl, rfl⟩

theorem startsAfresh_of_eq {n : Nat} (h : l = (start false).behind l.out n l.errors) : l.StartsAfresh n := by
  intro chunks
  obtain ⟨f, hf, hrest, hx, -⟩ := feedAll_lenient (atRest_start false) rfl chunks
  obtain ⟨f', hf'⟩ := call_lenient hrest hx .finish
  have hl : l.feedAll chunks = .ok (f.behind l.out n l.errors) := by
    have hb := feedAll_behind l.out n l.errors (start false) chunks
    rw [← h, hf] at hb
    exact hb
  have hm : (f.behind l.out n l.errors).finish = .ok (f'.behind l.out n l.errors) := by
    rw [finish_behind, show f.finish = .ok f' from hf']
    rfl
  exact ⟨f, _, f', _, hf, hl, continues_behind l n f, hf', hm, continues_behind l n f'⟩

/-- A listing that has just passed over an error is one before any input, some way into it. -/
theorem passOver_eq (l : Listing) (hx : l.exitOnFail = false) (e : LexError) :
    l.passOver e = (start false).behind (l.passOver e).out l.linesFed (l.passOver e).errors := by
  simp [passOver, behind, start, hx, Lexer.initial]

theorem feed_lenient_error (hl : l.AtRest) (hx : l.exitOnFail = false) {chunk : String} {e : LexError}
    {b : Automaton} {rest : List Char} (h : l.lexer.automaton.readAll chunk.toList = .error ⟨e, b, rest⟩) :
    ∃ m e' ts, l.feed chunk = .ok m ∧ m.errors = l.errors.push e' ∧ l.BreaksOff chunk ts e'.cause ∧
      m.out = l.out ++ lines ts ∧ m.StartsAfresh (l.linesFed + newlines chunk) := by
  obtain ⟨d, hfeed⟩ := feed_passed hl hx h
  obtain ⟨read, c, a, htext, hread, hc, -, hready⟩ := Automaton.readAll_breaks hl.tidy h
  refine ⟨_, e.shift l.lineBase, a.ready.toList, hfeed, rfl, ?_, ?_, ?_⟩
  · exact ⟨hl.ready, read, c, rest, a, _, htext, hread, rfl, hc, rfl, hready⟩
  · rw [← hready]
    rfl
  · exact startsAfresh_of_eq (passOver_eq _ (by exact hx) e)

/-- **Recovery is a clean restart.** Each chunk records at most one error. If it records one, then it has written the
lines of the tokens that are complete in front of the character at fault, and nothing else; and from there on the
listing does what one before any input does, the lines of errors apart, which count on from the newlines fed so far. -/
theorem feed_restarts (before : List String) (chunk : String) :
    ∃ l m, (start false).feedAll before = .ok l ∧ l.feed chunk = .ok m ∧
      (m.errors = l.errors ∨
        ∃ e ts, m.errors = l.errors.push e ∧ l.BreaksOff chunk ts e.cause ∧ m.out = l.out ++ lines ts ∧
          m.StartsAfresh (newlines (String.join (before ++ [chunk])))) := by
  obtain ⟨l, hrun, hl, hx, hfed⟩ := feedAll_lenient (atRest_start false) rfl before
  refine ⟨l, ?_⟩
  cases h : l.lexer.automaton.readAll chunk.toList with
  | ok a => exact ⟨_, hrun, feed_whole hl h, .inl rfl⟩
  | error stuck =>
    obtain ⟨m, e, ts, hfeed, herrors, hbreaks, hout, hafresh⟩ := feed_lenient_error hl hx h
    have hn : newlines (String.join (before ++ [chunk])) = l.linesFed + newlines chunk := by
      have hstart : (start false).linesFed = 0 := rfl
      have hjoin : String.join (before ++ [chunk]) = String.join before ++ chunk := by simp
      rw [hfed, hstart, Nat.zero_add, hjoin, newlines, String.toList_append, List.count_append]
      rfl
    rw [hn]
    exact ⟨m, hrun, hfeed, .inr ⟨e, ts, herrors, hbreaks, hout, hafresh⟩⟩

end Zygo.Listing
