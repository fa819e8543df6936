import Zygo.Proofs.Repl.Lines

/-!
# Prompts

A newline ends whatever is unfinished, an open string apart: atoms are completed, `~` and `:` are decided, comments are
over, and an escape in front of it is an error, from which the listing starts afresh. So between lines the lexer either
is inside a string or has nothing left of the lines before (`BetweenLines`), and the prompt tells the two apart.

* `feed_betweenLines`: a line that is fed leaves the listing between lines again.
* `converse_ok`: the prompts stand one before each line and one behind the last, with what each line writes in between
  (`Dialogue`).
* `run_bytes`: the loop on the bytes of a text is the listing of the normal text, with these prompts.
-/

namespace Zygo

namespace Lexer

/-- Inside a quoted string or a raw string. -/
def Mode.inString : Mode → Bool
  | string | escaped | rawString => true
  | _ => false

namespace Automaton

variable {a b : Automaton} {s : List Char}

/-- Behind a newline: nothing is pending, or a string is open. -/
def AtBreak (a : Automaton) : Prop :=
  (a.mode = .normal ∧ a.pending = "") ∨ a.mode = .string ∨ a.mode = .rawString

theorem flush_atBreak (hm : a.mode = .normal) (h : a.flush = .ok b) : b.AtBreak := by
  obtain ⟨hp, hmode, -⟩ := flush_ok h
  exact .inl ⟨hmode.trans hm, hp⟩

theorem step_newline (ha : a.Tidy) (h : a.step '\n' = .ok b) : b.AtBreak := by
  have hnormal : ∀ d : Automaton, d.stepNormal '\n' = d.flush := fun _ => rfl
  unfold step at h
  split at h
  case h_1 hm => exact flush_atBreak hm ((hnormal a).symm.trans h)
  case h_2 hm =>
    rw [if_pos rfl] at h
    obtain rfl := Except.ok.inj h
    exact .inl ⟨rfl, ha (.inl hm)⟩
  case h_3 hm =>
    rw [if_neg (by decide)] at h
    obtain rfl := Except.ok.inj h
    exact .inr (.inr hm)
  case h_4 hm =>
    rw [if_neg (by decide), if_neg (by decide)] at h
    obtain rfl := Except.ok.inj h
    exact .inr (.inl hm)
  case h_5 =>
    have hmeaning : Escape.meaning? '\n' = none := by decide
    rw [hmeaning] at h
    cases h
  case h_6 =>
    rw [if_neg (by decide), hnormal] at h
    exact flush_atBreak rfl h
  case h_7 =>
    split at h
    · cases h
    · rename_i d hd
      rw [if_neg (by decide), hnormal] at h
      obtain ⟨-, hmode, -⟩ := flush_ok hd
      have hm : (d.emit (.bare .colon)).mode = .normal := hmode
      exact flush_atBreak hm h

theorem readAll_newline (ha : a.Tidy) (h : a.readAll (s ++ ['\n']) = .ok b) : b.AtBreak := by
  rw [readAll_append] at h
  cases hs : a.readAll s with
  | error stuck => simp [hs] at h
  | ok d =>
    simp only [hs, readAll] at h
    cases hd : d.step '\n' with
    | error stuck => simp [advance, hd] at h
    | ok d' =>
      rw [advance_of_step hd] at h
      obtain rfl := Except.ok.inj h
      have hbreak : d'.AtBreak := step_newline (readAll_line ha hs).1 hd
      exact hbreak

theorem AtBreak.isIdle (h : a.AtBreak) : a.isIdle = !a.mode.inString := by
  rcases h with ⟨hm, hp⟩ | hm | hm
  · simp [Automaton.isIdle, hm, hp, Mode.inString]
  · simp [Automaton.isIdle, hm, Mode.inString]
  · simp [Automaton.isIdle, hm, Mode.inString]

/-- Outside of strings, a newline leaves nothing but the number of lines. -/
theorem AtBreak.eq_line (h : a.AtBreak) (hs : a.mode.inString = false) : { a with ready := #[] } = { line := a.line } := by
  obtain ⟨mode, pending, ready, line⟩ := a
  obtain ⟨rfl, rfl⟩ : mode = .normal ∧ pending = "" := by
    rcases h with h | h | h
    · exact h
    · obtain rfl : mode = .string := h
      cases hs
    · obtain rfl : mode = .rawString := h
      cases hs
  rfl

/-- The end of the input behind a newline completes nothing. -/
theorem AtBreak.finish (h : a.AtBreak) (hf : a.finish = .ok b) : b = a := by
  unfold Automaton.finish at hf
  rcases h with ⟨hm, hp⟩ | hm | hm
  · simp only [hm, flush_of_pending hp] at hf
    exact (Except.ok.inj hf).symm
  · simp [hm, fail] at hf
  · simp [hm, fail] at hf

end Automaton

end Lexer

namespace Listing

open Lexer Automaton

variable {l m q : Listing} {line : String} {lines : List String}

/-- A listing between lines. -/
structure BetweenLines (l : Listing) : Prop extends l.AtRest where
  atBreak : l.lexer.automaton.AtBreak

theorem betweenLines_start (x : Bool) : (start x).BetweenLines :=
  ⟨atRest_start x, .inl ⟨rfl, rfl⟩⟩

/-- Outside of strings, nothing is left of the lines but their number. -/
theorem BetweenLines.lexer_eq (hl : l.BetweenLines) (hs : l.lexer.automaton.mode.inString = false) :
    l.lexer = { automaton := { line := l.lexer.automaton.line } } := by
  have hdry : l.lexer = { automaton := { l.lexer.automaton with ready := #[] } } := hl.dry
  rw [hl.atBreak.eq_line hs] at hdry
  exact hdry

/-- A text that a newline ends. -/
def IsLine (line : String) : Prop :=
  ∃ s, line.toList = s ++ ['\n']

theorem feed_betweenLines (hl : l.BetweenLines) (hline : IsLine line) (h : l.feed line = .ok m) : m.BetweenLines := by
  obtain ⟨s, hs⟩ := hline
  refine ⟨(feed_becomes hl.toAtRest h).atRest, ?_⟩
  rcases feed_inv hl.toAtRest h with ⟨a, hr, rfl⟩ | ⟨-, e, b, rest, d, -, rfl⟩
  · rw [hs] at hr
    have hbreak : a.AtBreak := readAll_newline hl.tidy hr
    exact hbreak
  · exact (betweenLines_start false).atBreak

theorem feedAll_betweenLines (hl : l.BetweenLines) (hlines : ∀ line ∈ lines, IsLine line)
    (h : l.feedAll lines = .ok m) : m.BetweenLines := by
  induction lines generalizing l with
  | nil =>
    obtain rfl := Except.ok.inj h
    exact hl
  | cons line lines ih =>
    rw [feedAll] at h
    cases hd : l.feed line with
    | error stuck => simp [hd] at h
    | ok d =>
      rw [hd] at h
      have hbetween := feed_betweenLines hl (hlines line List.mem_cons_self) hd
      exact ih hbetween (fun line hm => hlines line (List.mem_cons_of_mem _ hm)) h

/-- Behind a newline the end of the input writes nothing. -/
theorem finish_out (hl : l.BetweenLines) (h : l.finish = .ok q) : q.out = l.out := by
  rcases finish_inv hl.toAtRest h with ⟨a, hf, rfl⟩ | ⟨-, stuck, d, -, rfl⟩
  · rw [hl.atBreak.finish hf, hl.toAtRest.ready]
    simp [lines]
  · rfl

/-! ## What has been written before -/

section Out

variable (F : Listing → Except (Stuck Listing) Listing)
  (hF : ∀ out f, F (f.behind out 0 #[]) = resultBehind out 0 #[] (F f))
include hF

theorem out_behind (out : String) : F { l with out } = resultBehind out 0 #[] (F { l with out := "" }) := by
  have hshift : LexError.shift 0 = id := by
    funext e
    simp [LexError.shift]
  have hsplit : { l with out } = ({ l with out := "" } : Listing).behind out 0 #[] := by simp [behind, hshift]
  rw [hsplit, hF]

/-- What has been written before a call is kept and does not matter to it. -/
theorem ok_of_out (h : F l = .ok m) :
    ∃ w, m.out = l.out ++ w ∧ ∀ out, F { l with out } = .ok { m with out := out ++ w } := by
  have hl : F l = resultBehind l.out 0 #[] (F { l with out := "" }) := out_behind F hF l.out
  cases hd : F { l with out := "" } with
  | error stuck =>
    rw [hl, hd] at h
    cases h
  | ok d =>
    rw [hl, hd] at h
    obtain rfl := Except.ok.inj h
    refine ⟨d.out, rfl, fun out => ?_⟩
    rw [out_behind F hF, hd]
    rfl

theorem error_of_out {stuck : Stuck Listing} (h : F l = .error stuck) (out : String) :
    ∃ s, F { l with out } = .error ⟨stuck.error, s⟩ := by
  have hl : F l = resultBehind l.out 0 #[] (F { l with out := "" }) := out_behind F hF l.out
  cases hd : F { l with out := "" } with
  | ok d =>
    rw [hl, hd] at h
    cases h
  | error stuck' =>
    rw [hl, hd] at h
    obtain rfl := Except.error.inj h
    refine ⟨stuck'.state.behind out 0 #[], ?_⟩
    rw [out_behind F hF, hd]
    rfl

end Out

end Listing

namespace Repl

open Lexer Listing

variable {l m q : Listing} {lines : List String}

/-- The prompt that belongs behind the lines that a listing has read. -/
def promptFor (l : Listing) : String :=
  if l.lexer.automaton.mode.inString then continuationPrompt else freshPrompt

/-- Prompts and what is written behind them, in turn. -/
def interleave : List String → List String → String
  | p :: prompts, w :: written => p ++ w ++ interleave prompts written
  | prompts, [] => String.join prompts
  | [], written => String.join written

theorem prompt_eq (hl : l.BetweenLines) (out : String) :
    prompt false { l with out } = { l with out := out ++ promptFor l } := by
  have hidle : ({ l with out } : Listing).isIdle = !l.lexer.automaton.mode.inString := hl.atBreak.isIdle
  simp only [prompt, hidle, promptFor, write]
  cases l.lexer.automaton.mode.inString <;> rfl

theorem converse_quiet (l : Listing) (lines : List String) : converse true l lines = l.feedToEnd lines := by
  induction lines generalizing l with
  | nil => rfl
  | cons line lines ih =>
    rw [converse, feedToEnd, feedAll]
    have hprompt : prompt true l = l := rfl
    rw [hprompt]
    cases l.feed line with
    | error stuck => rfl
    | ok d => exact ih d

/-- What the loop with prompts makes of lines through which a listing gets from `l` to `q`: the prompts and what each line
writes, in turn, instead of what the lines write alone. -/
structure Dialogue (l : Listing) (lines : List String) (q : Listing) (prompts written : List String) : Prop where
  prompts_length : prompts.length = lines.length + 1
  written_length : written.length = lines.length
  out : q.out = l.out ++ String.join written
  loop : ∀ out, ∃ r, converse false { l with out } lines = .ok r ∧ r.out = out ++ interleave prompts written
  step : ∀ i ≤ lines.length, ∃ m, l.feedAll (lines.take i) = .ok m ∧ m.out = l.out ++ String.join (written.take i) ∧
    prompts[i]? = some (promptFor m)

/-- Behind the last line there is one more prompt, and nothing is written after it. -/
theorem Dialogue.nil (hl : l.BetweenLines) (h : l.finish = .ok q) : Dialogue l [] q [promptFor l] [] := by
  have hout := finish_out hl h
  obtain ⟨w, hw, hall⟩ := ok_of_out Listing.finish (fun out f => finish_behind out 0 #[] f) h
  have hempty : w = "" := by
    rw [hout, ← String.toList_inj, String.toList_append, List.self_eq_append_right] at hw
    exact String.toList_eq_nil_iff.1 hw
  refine ⟨rfl, rfl, by simp [hout], fun out => ⟨{ q with out := out ++ promptFor l ++ w }, ?_, ?_⟩, fun i hi => ?_⟩
  · rw [converse, prompt_eq hl]
    exact hall _
  · simp [hempty, interleave]
  · obtain rfl : i = 0 := by simpa using hi
    exact ⟨l, rfl, by simp, rfl⟩

/-- A line is written between its prompt and the next one. -/
theorem Dialogue.cons {d : Listing} {line : String} {prompts written : List String} (hl : l.BetweenLines)
    (hd : l.feed line = .ok d) (h : Dialogue d lines q prompts written) :
    ∃ w, Dialogue l (line :: lines) q (promptFor l :: prompts) (w :: written) := by
  obtain ⟨w, hw, hall⟩ := ok_of_out (·.feed line) (fun out f => feed_behind out 0 #[] f line) hd
  refine ⟨w, by simp [h.prompts_length], by simp [h.written_length], ?_, fun out => ?_, fun i hi => ?_⟩
  · rw [h.out, hw, String.join_cons, String.append_assoc]
  · obtain ⟨r, hr, hrout⟩ := h.loop (out ++ promptFor l ++ w)
    refine ⟨r, ?_, ?_⟩
    · rw [converse, prompt_eq hl, hall]
      exact hr
    · rw [hrout, interleave]
      simp only [String.append_assoc]
  · cases i with
    | zero => exact ⟨l, rfl, by simp, rfl⟩
    | succ i =>
      obtain ⟨m, hm, hmout, hmprompt⟩ := h.step i (by simpa using hi)
      refine ⟨m, ?_, ?_, hmprompt⟩
      · rw [List.take_succ_cons, feedAll, hd]
        exact hm
      · rw [hmout, hw, List.take_succ_cons, String.join_cons, String.append_assoc]

/-- **One prompt before each line and one behind the last.** Each stands behind what the lines before it have written,
and tells whether they leave a string open. -/
theorem converse_ok (hl : l.BetweenLines) (hlines : ∀ line ∈ lines, IsLine line) (h : l.feedToEnd lines = .ok q) :
    ∃ prompts written, Dialogue l lines q prompts written := by
  induction lines generalizing l with
  | nil => exact ⟨_, _, Dialogue.nil hl h⟩
  | cons line lines ih =>
    cases hd : l.feed line with
    | error stuck =>
      rw [feedToEnd_cons_error hd] at h
      cases h
    | ok d =>
      rw [feedToEnd_cons_ok hd] at h
      have hdl := feed_betweenLines hl (hlines line List.mem_cons_self) hd
      obtain ⟨prompts, written, hdialogue⟩ := ih hdl (fun line hm => hlines line (List.mem_cons_of_mem _ hm)) h
      obtain ⟨w, hcons⟩ := hdialogue.cons hl hd
      exact ⟨_, _, hcons⟩

theorem converse_error (hl : l.BetweenLines) (hlines : ∀ line ∈ lines, IsLine line) {stuck : Stuck Listing}
    (h : l.feedToEnd lines = .error stuck) (out : String) :
    ∃ s, converse false { l with out } lines = .error ⟨stuck.error, s⟩ := by
  induction lines generalizing l out with
  | nil =>
    have hfinish : l.finish = .error stuck := h
    rw [converse, prompt_eq hl]
    exact error_of_out Listing.finish (fun out f => finish_behind out 0 #[] f) hfinish _
  | cons line lines ih =>
    rw [converse, prompt_eq hl]
    cases hd : l.feed line with
    | error stuck' =>
      rw [feedToEnd_cons_error hd] at h
      obtain rfl := Except.error.inj h
      obtain ⟨s, hs⟩ := error_of_out (·.feed line) (fun out f => feed_behind out 0 #[] f line) hd (out ++ promptFor l)
      rw [hs]
      exact ⟨s, rfl⟩
    | ok d =>
      rw [feedToEnd_cons_ok hd] at h
      have hdl := feed_betweenLines hl (hlines line List.mem_cons_self) hd
      obtain ⟨w, -, hall⟩ := ok_of_out (·.feed line) (fun out f => feed_behind out 0 #[] f line) hd
      rw [hall]
      exact ih hdl (fun line hm => hlines line (List.mem_cons_of_mem _ hm)) h _

/-! ## The whole loop -/

theorem isLine_normalLines (s : List Char) : ∀ line ∈ normalLines s, IsLine line := by
  induction s using line_induction with
  | nil => simp [normalLines, dropReturns, terminate, splitLines]
  | last w hne hw =>
    rw [normalLines_last hne hw]
    intro line hline
    obtain rfl := List.mem_singleton.1 hline
    exact ⟨w, by simp⟩
  | line w s hw ih =>
    rw [normalLines_line hw]
    intro line hline
    rcases List.mem_cons.1 hline with rfl | hline
    · exact ⟨chomp w, by simp⟩
    · exact ih line hline

theorem ofText_normalize (text : String) (x : Bool) :
    ofText (normalize text) x = (start x).feedToEnd (normalLines text.toList) := by
  rw [ofText_eq_feedToEnd, normalize, String.toList_ofList, normalLines]

theorem run_eq (text : String) (quiet x : Bool) :
    run (bytes text) quiet x = lexical (converse quiet (start x) (normalLines text.toList)) := by
  rw [run, bytes_eq, feedLines_encode]
  rfl

/-- **The loop is the listing with prompts.** On the bytes of a text, the loop without prompts gives what the listing of
the normal text gives, its lines ended by plain newlines, or ends with the same error. After any of these lines, outside
of an open string nothing is left of them but their number. With prompts the loop fails just when the listing does, and
otherwise writes the same, with a prompt before each line and one behind the last: behind what the lines before it have
written, and asking for more just when those lines leave a string open. -/
theorem run_bytes (text : String) (x : Bool) :
    run (bytes text) true x = lexical (ofText (normalize text) x) ∧
    (splitBytes (bytes text)).length = (normalLines text.toList).length ∧
    (∀ i m, (start x).feedAll ((normalLines text.toList).take i) = .ok m → m.lexer.automaton.mode.inString = false →
      m.lexer = { automaton := { line := m.lexer.automaton.line } }) ∧
    match ofText (normalize text) x with
    | .error stuck => ∃ s, run (bytes text) false x = .error (.lexical stuck.error, s)
    | .ok q => ∃ r prompts written, run (bytes text) false x = .ok r ∧ r.out = interleave prompts written ∧
        q.out = String.join written ∧ prompts.length = (normalLines text.toList).length + 1 ∧
        written.length = (normalLines text.toList).length ∧
        ∀ i ≤ (normalLines text.toList).length, ∃ m, (start x).feedAll ((normalLines text.toList).take i) = .ok m ∧
          m.out = String.join (written.take i) ∧
          prompts[i]? = some (if m.lexer.automaton.mode.inString then continuationPrompt else freshPrompt) := by
  have hlines := isLine_normalLines text.toList
  have hstart := betweenLines_start x
  refine ⟨?_, ?_, ?_, ?_⟩
  · rw [run_eq, converse_quiet, ofText_normalize]
  · rw [bytes_eq, length_splitBytes]
  · intro i m hm hs
    have hm := feedAll_betweenLines hstart (fun line hline => hlines line (List.mem_of_mem_take hline)) hm
    exact hm.lexer_eq hs
  · rw [ofText_normalize, run_eq]
    cases h : (start x).feedToEnd (normalLines text.toList) with
    | error stuck =>
      obtain ⟨s, hs⟩ := converse_error hstart hlines h ""
      refine ⟨s, ?_⟩
      have hc : converse false (start x) (normalLines text.toList) = .error ⟨stuck.error, s⟩ := hs
      rw [hc]
      rfl
    | ok q =>
      obtain ⟨prompts, written, hdialogue⟩ := converse_ok hstart hlines h
      obtain ⟨r, hr, hrout⟩ := hdialogue.loop ""
      have hc : converse false (start x) (normalLines text.toList) = .ok r := hr
      have hempty : ∀ s : String, (start x).out ++ s = s := by
        intro s
        simp [start]
      refine ⟨r, prompts, written, by rw [hc]; rfl, by simpa using hrout, by rw [hdialogue.out, hempty],
        hdialogue.prompts_length, hdialogue.written_length, ?_⟩
      intro i hi
      obtain ⟨m, hm, hmout, hmprompt⟩ := hdialogue.step i hi
      exact ⟨m, hm, by rw [hmout, hempty], hmprompt⟩

end Repl

end Zygo
