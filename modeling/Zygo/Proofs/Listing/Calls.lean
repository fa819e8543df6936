import Mathlib.Data.List.Induction
import Zygo.Listing
import Zygo.Proofs.Lexer.Drain

/-!
# Calls on a listing

A listing is fed chunks and told of the end of the input, in any order. Between calls it is `AtRest`: the lexer has
read all that was fed, what is complete has been written, and the newlines before the lexer's last fresh start and the
lexer's own line add up to the line of all input.

* `feed_eq`, `finish_eq`: a call reads the chunk by the automaton, from where the last one stopped; `feed_inv` and
  `finish_inv` say what may come of it.
* `call_ok`: what one call keeps and what it may record; `call_lenient`: a listing that passes over errors takes any
  call.
* `callAll_errors`: each error that a run of calls records stands on its line in all the text fed up to it.
-/

namespace Zygo.Listing

open Lexer Automaton

/-- A listing before any input. -/
def start (exitOnFail : Bool) : Listing := { exitOnFail }

/-- A listing between calls. -/
structure AtRest (l : Listing) : Prop where
  dry : l.lexer = .dry l.lexer.automaton
  tidy : l.lexer.automaton.Tidy
  line : l.lineBase + l.lexer.automaton.line = 1 + l.linesFed

/-- The listing behind a chunk, with the lines of `ts` written. -/
def past (l : Listing) (chunk : String) (ts : List Token) (lexer : Lexer) : Listing :=
  { l with lexer, out := l.out ++ lines ts, linesFed := l.linesFed + newlines chunk }

/-- The listing that has passed over an error and starts afresh. -/
def passOver (l : Listing) (e : LexError) : Listing :=
  { l with errors := l.errors.push (e.shift l.lineBase), lexer := .initial, lineBase := l.linesFed }

variable {l m : Listing}

theorem atRest_start (x : Bool) : (start x).AtRest where
  dry := rfl
  tidy := tidy_initial
  line := rfl

theorem recover_lenient (hx : l.exitOnFail = false) (e : LexError) : l.recover e = .ok (l.passOver e) := by
  simp [recover, hx, passOver, reset]

theorem recover_strict (hx : l.exitOnFail = true) (e : LexError) :
    l.recover e = .error ⟨e.shift l.lineBase, l⟩ := by
  simp [recover, hx]

/-! ## One call -/

theorem AtRest.unread (hl : l.AtRest) : l.lexer.unread = [] := by
  rw [hl.dry]
  rfl

theorem AtRest.ready (hl : l.AtRest) : l.lexer.automaton.ready = #[] := by
  rw [hl.dry]
  rfl

/-- Feeding reads the chunk and nothing else. -/
theorem feed_eq (hl : l.AtRest) (chunk : String) :
    l.feed chunk =
      match l.lexer.automaton.readAll chunk.toList with
      | .ok a => .ok (l.past chunk a.ready.toList (.dry a))
      | .error ⟨e, b, _⟩ => (l.past chunk b.ready.toList (l.lexer.addText chunk).drain.lexer).recover e := by
  have hd := drain_eq (l.lexer.addText chunk)
  have ha : (l.lexer.addText chunk).automaton = l.lexer.automaton := automaton_add _ _
  have hu : (l.lexer.addText chunk).unread = chunk.toList := by
    rw [addText, unread_add, hl.unread, List.nil_append, Source.rest_ofString]
  rw [ha, hu] at hd
  unfold feed drain
  cases h : l.lexer.automaton.readAll chunk.toList with
  | ok a =>
    simp only [h] at hd
    simp only [hd, past]
  | error stuck =>
    simp only [h] at hd
    obtain ⟨ht, he⟩ := hd
    simp only [ht, he, past]

/-- The end of the input is that of the automaton. -/
theorem finish_eq (hl : l.AtRest) :
    l.finish =
      match l.lexer.automaton.finish with
      | .ok a => .ok { l with lexer := .dry a, out := l.out ++ lines a.ready.toList }
      | .error stuck => { l with lexer := { l.lexer with automaton := stuck.state } }.recover stuck.error := by
  unfold Listing.finish Lexer.finish
  cases h : l.lexer.automaton.finish with
  | error stuck => rfl
  | ok a =>
    -- Nothing waits to be read, so draining only takes what the end has completed.
    have hu : ({ l.lexer with automaton := a } : Lexer).unread = [] := hl.unread
    have hd := drain_eq { l.lexer with automaton := a }
    rw [hu] at hd
    simp only [Automaton.readAll] at hd
    simp only [drain, hd]

section Outcomes

variable {chunk : String} {a b : Automaton} {rest : List Char} {e : LexError} {stuck : Stuck Automaton}

theorem feed_whole (hl : l.AtRest) (h : l.lexer.automaton.readAll chunk.toList = .ok a) :
    l.feed chunk = .ok (l.past chunk a.ready.toList (.dry a)) := by
  rw [feed_eq hl, h]

theorem feed_passed (hl : l.AtRest) (hx : l.exitOnFail = false)
    (h : l.lexer.automaton.readAll chunk.toList = .error ⟨e, b, rest⟩) :
    ∃ d, l.feed chunk = .ok ((l.past chunk b.ready.toList d).passOver e) := by
  rw [feed_eq hl, h]
  exact ⟨_, recover_lenient (by exact hx) e⟩

theorem feed_stopped (hl : l.AtRest) (hx : l.exitOnFail = true)
    (h : l.lexer.automaton.readAll chunk.toList = .error ⟨e, b, rest⟩) :
    ∃ s, l.feed chunk = .error ⟨e.shift l.lineBase, s⟩ := by
  rw [feed_eq hl, h]
  exact ⟨_, recover_strict (by exact hx) e⟩

theorem finish_whole (hl : l.AtRest) (h : l.lexer.automaton.finish = .ok a) :
    l.finish = .ok { l with lexer := .dry a, out := l.out ++ lines a.ready.toList } := by
  rw [finish_eq hl, h]

theorem finish_passed (hl : l.AtRest) (hx : l.exitOnFail = false) (h : l.lexer.automaton.finish = .error stuck) :
    ∃ d, l.finish = .ok ({ l with lexer := d }.passOver stuck.error) := by
  rw [finish_eq hl, h]
  exact ⟨_, recover_lenient (by exact hx) stuck.error⟩

theorem finish_stopped (hl : l.AtRest) (hx : l.exitOnFail = true) (h : l.lexer.automaton.finish = .error stuck) :
    ∃ s, l.finish = .error ⟨stuck.error.shift l.lineBase, s⟩ := by
  rw [finish_eq hl, h]
  exact ⟨_, recover_strict (by exact hx) stuck.error⟩

/-- A chunk that is fed is read to its end, or an error in it is passed over. -/
theorem feed_inv (hl : l.AtRest) (h : l.feed chunk = .ok m) :
    (∃ a, l.lexer.automaton.readAll chunk.toList = .ok a ∧ m = l.past chunk a.ready.toList (.dry a)) ∨
    (l.exitOnFail = false ∧ ∃ e b rest d, l.lexer.automaton.readAll chunk.toList = .error ⟨e, b, rest⟩ ∧
      m = (l.past chunk b.ready.toList d).passOver e) := by
  cases hr : l.lexer.automaton.readAll chunk.toList with
  | ok a =>
    rw [feed_whole hl hr] at h
    exact .inl ⟨a, rfl, (Except.ok.inj h).symm⟩
  | error stuck =>
    obtain ⟨e, b, rest⟩ := stuck
    rcases Bool.eq_false_or_eq_true l.exitOnFail with hx | hx
    · obtain ⟨s, hs⟩ := feed_stopped hl hx hr
      rw [hs] at h
      cases h
    · obtain ⟨d, hd⟩ := feed_passed hl hx hr
      rw [hd] at h
      exact .inr ⟨hx, e, b, rest, d, rfl, (Except.ok.inj h).symm⟩

/-- The end of the input completes what is pending, or its error is passed over. -/
theorem finish_inv (hl : l.AtRest) (h : l.finish = .ok m) :
    (∃ a, l.lexer.automaton.finish = .ok a ∧
      m = { l with lexer := .dry a, out := l.out ++ lines a.ready.toList }) ∨
    (l.exitOnFail = false ∧ ∃ stuck d, l.lexer.automaton.finish = .error stuck ∧
      m = { l with lexer := d }.passOver stuck.error) := by
  cases hf : l.lexer.automaton.finish with
  | ok a =>
    rw [finish_whole hl hf] at h
    exact .inl ⟨a, rfl, (Except.ok.inj h).symm⟩
  | error stuck =>
    rcases Bool.eq_false_or_eq_true l.exitOnFail with hx | hx
    · obtain ⟨s, hs⟩ := finish_stopped hl hx hf
      rw [hs] at h
      cases h
    · obtain ⟨d, hd⟩ := finish_passed hl hx hf
      rw [hd] at h
      exact .inr ⟨hx, stuck, d, rfl, (Except.ok.inj h).symm⟩

end Outcomes

/-! ## Any call -/

/-- A call on a listing. -/
inductive Call where
  /-- Feeds a chunk. -/
  | feed (chunk : String)
  /-- Declares the end of the input. -/
  | finish

/-- What a call feeds. -/
def Call.text : Call → List Char
  | feed chunk => chunk.toList
  | finish => []

/-- Makes a call. -/
def call (l : Listing) : Call → Except (Stuck Listing) Listing
  | .feed chunk => l.feed chunk
  | .finish => l.finish

/-- The call `c`, made on `l` when `before` is all that was fed, raises `e`: on a character that the automaton cannot
take in, or at the end of the input. Either way the line is one more than the newlines in front of that place. -/
def Raises (l : Listing) (before : List Char) (e : LexError) : Call → Prop
  | .feed chunk => ∃ read c rest a stuck, chunk.toList = read ++ c :: rest ∧ l.lexer.automaton.readAll read = .ok a ∧
      a.advance c = .error stuck ∧ e = ⟨stuck.error.cause, 1 + (before ++ read).count '\n'⟩
  | .finish => ∃ stuck, l.lexer.automaton.finish = .error stuck ∧
      e = ⟨stuck.error.cause, 1 + before.count '\n'⟩

/-- What a call may make of a listing. -/
structure Becomes (l : Listing) (c : Call) (m : Listing) : Prop where
  atRest : m.AtRest
  exitOnFail : m.exitOnFail = l.exitOnFail
  linesFed : m.linesFed = l.linesFed + c.text.count '\n'
  errors : m.errors = l.errors ∨
    ∃ e, m.errors = l.errors.push e ∧ ∀ before, before.count '\n' = l.linesFed → l.Raises before e c

/-- A listing that has passed over an error is at rest. -/
theorem atRest_passOver (l : Listing) (e : LexError) : (l.passOver e).AtRest where
  dry := rfl
  tidy := tidy_initial
  line := Nat.add_comm _ _

theorem feed_becomes (hl : l.AtRest) {chunk : String} (h : l.feed chunk = .ok m) : l.Becomes (.feed chunk) m := by
  have hsum := hl.line
  rcases feed_inv hl h with ⟨a, hr, rfl⟩ | ⟨-, e, b, rest, d, hr, rfl⟩
  · obtain ⟨ha, hline⟩ := readAll_line hl.tidy hr
    refine ⟨⟨rfl, ha, ?_⟩, rfl, rfl, .inl rfl⟩
    show l.lineBase + a.line = 1 + (l.linesFed + newlines chunk)
    rw [hline, newlines]
    omega
  · obtain ⟨read, c, a, htext, hread, hc, hline, -⟩ := readAll_breaks hl.tidy hr
    refine ⟨atRest_passOver _ e, rfl, rfl, .inr ⟨_, rfl, ?_⟩⟩
    intro before hbefore
    refine ⟨read, c, rest, a, _, htext, hread, hc, ?_⟩
    have habs : l.lineBase + e.line = 1 + (before ++ read).count '\n' := by
      rw [List.count_append, hline, hbefore]
      omega
    rw [← habs]
    rfl

theorem finish_becomes (hl : l.AtRest) (h : l.finish = .ok m) : l.Becomes .finish m := by
  have hsum := hl.line
  rcases finish_inv hl h with ⟨a, hf, rfl⟩ | ⟨-, stuck, d, hf, rfl⟩
  · obtain ⟨ha, hline⟩ := finish_ok hf
    refine ⟨⟨rfl, ha, ?_⟩, rfl, rfl, .inl rfl⟩
    show l.lineBase + a.line = 1 + l.linesFed
    rw [hline, hsum]
  · refine ⟨atRest_passOver _ stuck.error, rfl, rfl, .inr ⟨_, rfl, ?_⟩⟩
    intro before hbefore
    refine ⟨stuck, hf, ?_⟩
    have habs : l.lineBase + stuck.error.line = 1 + before.count '\n' := by
      rw [(finish_error hf).1, hbefore, hsum]
    rw [← habs]
    rfl

/-- One call keeps a listing in order and records at most one error. -/
theorem call_ok (hl : l.AtRest) {c : Call} (h : l.call c = .ok m) : l.Becomes c m := by
  cases c with
  | feed chunk => exact feed_becomes hl h
  | finish => exact finish_becomes hl h

theorem call_lenient (hl : l.AtRest) (hx : l.exitOnFail = false) (c : Call) : ∃ m, l.call c = .ok m := by
  cases c with
  | feed chunk =>
    cases hr : l.lexer.automaton.readAll chunk.toList with
    | ok a => exact ⟨_, feed_whole hl hr⟩
    | error stuck =>
      obtain ⟨d, hd⟩ := feed_passed hl hx hr
      exact ⟨_, hd⟩
  | finish =>
    cases hf : l.lexer.automaton.finish with
    | ok a => exact ⟨_, finish_whole hl hf⟩
    | error stuck =>
      obtain ⟨d, hd⟩ := finish_passed hl hx hf
      exact ⟨_, hd⟩

/-! ## Runs -/

/-- Makes calls in turn. -/
def callAll (l : Listing) : List Call → Except (Stuck Listing) Listing
  | [] => .ok l
  | c :: calls =>
    match l.call c with
    | .error stuck => .error stuck
    | .ok l => l.callAll calls

/-- All that calls feed. -/
def fed (calls : List Call) : List Char :=
  calls.flatMap Call.text

theorem callAll_append {calls more : List Call} (h : l.callAll calls = .ok m) :
    l.callAll (calls ++ more) = m.callAll more := by
  induction calls generalizing l with
  | nil =>
    obtain rfl := Except.ok.inj h
    rfl
  | cons c calls ih =>
    rw [List.cons_append, callAll]
    rw [callAll] at h
    cases hc : l.call c with
    | error stuck => simp [hc] at h
    | ok d =>
      rw [hc] at h
      exact ih h

/-- Feeding chunks is a run. -/
theorem callAll_feed (l : Listing) (chunks : List String) : l.callAll (chunks.map .feed) = l.feedAll chunks := by
  induction chunks generalizing l with
  | nil => rfl
  | cons chunk chunks ih =>
    rw [List.map_cons, callAll, feedAll, call]
    cases l.feed chunk with
    | error stuck => rfl
    | ok d => exact ih d

theorem fed_feed (chunks : List String) : fed (chunks.map .feed) = (String.join chunks).toList := by
  rw [String.toList_join, fed, List.flatMap_map]
  rfl

/-- A listing that passes over errors gets through every run, at rest and with all newlines counted. -/
theorem callAll_lenient (hl : l.AtRest) (hx : l.exitOnFail = false) (calls : List Call) :
    ∃ m, l.callAll calls = .ok m ∧ m.AtRest ∧ m.exitOnFail = false ∧
      m.linesFed = l.linesFed + (fed calls).count '\n' := by
  induction calls generalizing l with
  | nil => exact ⟨l, rfl, hl, hx, rfl⟩
  | cons c calls ih =>
    obtain ⟨d, hc⟩ := call_lenient hl hx c
    have hd := call_ok hl hc
    obtain ⟨m, hrun, hm, hmx, hfed⟩ := ih hd.atRest (hd.exitOnFail.trans hx)
    refine ⟨m, by rw [callAll, hc]; exact hrun, hm, hmx, ?_⟩
    have hcount : (fed (c :: calls)).count '\n' = c.text.count '\n' + (fed calls).count '\n' :=
      List.count_append
    rw [hfed, hd.linesFed, hcount, Nat.add_assoc]

theorem feedAll_lenient (hl : l.AtRest) (hx : l.exitOnFail = false) (chunks : List String) :
    ∃ m, l.feedAll chunks = .ok m ∧ m.AtRest ∧ m.exitOnFail = false ∧
      m.linesFed = l.linesFed + newlines (String.join chunks) := by
  rw [← callAll_feed, newlines, ← fed_feed]
  exact callAll_lenient hl hx _

/-- Each of the errors was raised by one of the calls, in this order, with all that was fed before it behind it. -/
def Accounts (calls : List Call) (errors : Array LexError) : Prop :=
  ∀ i e, errors[i]? = some e → ∃ before c after b, calls = before ++ c :: after ∧
    (start false).callAll before = .ok b ∧ b.errors.size = i ∧ b.Raises (fed before) e c

theorem Accounts.append {calls : List Call} {errors : Array LexError} (h : Accounts calls errors) (c : Call) :
    Accounts (calls ++ [c]) errors := by
  intro i e hi
  obtain ⟨before, c', after, b, rfl, hb⟩ := h i e hi
  exact ⟨before, c', after ++ [c], b, by simp, hb⟩

theorem Accounts.push {calls : List Call} {c : Call} {e : LexError} (h : Accounts calls l.errors)
    (hrun : (start false).callAll calls = .ok l) (hraises : l.Raises (fed calls) e c) :
    Accounts (calls ++ [c]) (l.errors.push e) := by
  intro i e' hi
  rw [Array.getElem?_push] at hi
  split at hi
  · rename_i hsize
    obtain rfl := Option.some.inj hi
    exact ⟨calls, c, [], l, rfl, hrun, hsize.symm, hraises⟩
  · exact h.append c i e' hi

/-- One more call is accounted for as well. -/
theorem Accounts.call {calls : List Call} {c : Call} (h : Accounts calls l.errors)
    (hrun : (start false).callAll calls = .ok l) (hbecomes : l.Becomes c m)
    (hfed : (fed calls).count '\n' = l.linesFed) : Accounts (calls ++ [c]) m.errors := by
  rcases hbecomes.errors with hsame | ⟨e, hpush, hraises⟩
  · rw [hsame]
    exact h.append c
  · rw [hpush]
    exact h.push hrun (hraises _ hfed)

/-- **Reported lines are absolute.** Whatever is fed and however often the input is declared to end, a listing that
passes over errors gets through, and each error in its record was raised by one of the calls: on a character, and then
its line is one more than the newlines that were fed in front of that character, or by the end of the input, and then it
is one more than all newlines that were fed. -/
theorem callAll_errors (calls : List Call) :
    ∃ l, (start false).callAll calls = .ok l ∧
      ∀ i e, l.errors[i]? = some e → ∃ before c after b, calls = before ++ c :: after ∧
        (start false).callAll before = .ok b ∧ b.errors.size = i ∧ b.Raises (fed before) e c := by
  -- The induction takes calls away at the end: an error is either an earlier one or recorded by the last call.
  induction calls using List.reverseRecOn with
  | nil =>
    refine ⟨start false, rfl, ?_⟩
    intro i e h
    simp [start] at h
  | append_singleton calls c ih =>
    obtain ⟨l, hrun, he⟩ := ih
    obtain ⟨l', hrun', hl, hx, hfed⟩ := callAll_lenient (atRest_start false) rfl calls
    obtain rfl : l = l' := Except.ok.inj (hrun.symm.trans hrun')
    have hcount : (fed calls).count '\n' = l.linesFed := by
      rw [hfed]
      exact (Nat.zero_add _).symm
    obtain ⟨m, hm⟩ := call_lenient hl hx c
    have hlast : (start false).callAll (calls ++ [c]) = .ok m := by
      rw [callAll_append hrun, callAll, hm]
      rfl
    have haccounts : Accounts calls l.errors := he
    exact ⟨m, hlast, haccounts.call hrun (call_ok hl hm) hcount⟩

end Zygo.Listing
