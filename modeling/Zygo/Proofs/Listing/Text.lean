import Zygo.Proofs.Listing.Restart

/-!
# Listings of whole texts

A text is listed line by line, and lexed in one go. Both read it by the same automaton: what a chunk leaves unfinished
goes on with the next one, so the cuts do not show up to the first error.

* `Automaton.ending` is how reading a text ends: the tokens complete by then, and the error if there is one.
* `feedToEnd_concludes`: a listing of chunks ends as the automaton does on all of them together.
* `ofText_eq_lex`: the listing of a text agrees with `lex`.
-/

namespace Zygo.Lexer.Automaton

variable {a b : Automaton} {s t rest : List Char} {ts : List Token} {e : LexError}

/-- How reading ends when `s` is all the input: the tokens that are complete by then, and what goes wrong. -/
def ending (a : Automaton) (s : List Char) : List Token × Option LexError :=
  match a.readAll s with
  | .error ⟨e, b, _⟩ => (b.ready.toList, some e)
  | .ok b =>
    match b.finish with
    | .error stuck => (b.ready.toList, some stuck.error)
    | .ok d => (d.ready.toList, none)

/-- The automaton cannot go on before what is left: the next character, or the end of the input, gives `e`. -/
def Refuses (a : Automaton) (e : LexError) : List Char → Prop
  | [] => ∃ stuck, a.finish = .error stuck ∧ stuck.error = e
  | c :: _ => ∃ stuck, a.advance c = .error stuck ∧ stuck.error = e

theorem ending_nil (a : Automaton) :
    a.ending [] = match a.finish with
      | .error stuck => (a.ready.toList, some stuck.error)
      | .ok d => (d.ready.toList, none) := rfl

theorem ending_append_ok (h : a.readAll s = .ok b) (t : List Char) : a.ending (s ++ t) = b.ending t := by
  simp only [ending, readAll_append, h]

theorem ending_append_error (h : a.readAll s = .error ⟨e, b, rest⟩) (t : List Char) :
    a.ending (s ++ t) = (b.ready.toList, some e) := by
  simp only [ending, readAll_append, h]

theorem ending_behind (before : Array Token) (lines : Nat) (a : Automaton) (s : List Char) :
    (a.behind before lines).ending s =
      (before.toList ++ (a.ending s).1, (a.ending s).2.map (LexError.shift lines)) := by
  simp only [ending, readAll_behind]
  cases a.readAll s with
  | error stuck => simp
  | ok b =>
    simp only [finish_behind]
    cases b.finish <;> simp [resultBehind]

/-- Tokens that are ready may be taken before reading on. -/
theorem ending_take (a : Automaton) (s : List Char) :
    a.ending s =
      (a.ready.toList ++ (ending { a with ready := #[] } s).1, (ending { a with ready := #[] } s).2) := by
  have h := ending_behind a.ready 0 { a with ready := #[] } s
  rw [behind_ready_zero] at h
  have hshift : ∀ e? : Option LexError, e?.map (LexError.shift 0) = e? := by
    intro e?
    cases e? <;> simp [LexError.shift]
  rwa [hshift] at h

/-- The outcome of an automaton is the tokens of its ending, unless that is an error. -/
theorem outcome_eq_ending (a : Automaton) (s : List Char) :
    a.outcome s = match a.ending s with
      | (_, some e) => .error e
      | (ts, none) => .ok ts := by
  unfold ending
  cases h : a.readAll s with
  | error stuck => exact (readAll_error h).outcome_eq
  | ok b =>
    rw [(readAll_ok h).outcome_eq, outcome]
    cases hf : b.finish <;> simp [hf]

/-- Where reading ends with an error, the automaton before that place has completed the tokens and cannot go on. -/
theorem refuses_of_ending (ha : a.Tidy) (h : a.ending s = (ts, some e)) :
    ∃ read rest b, s = read ++ rest ∧ a.readAll read = .ok b ∧ b.ready.toList = ts ∧ b.Refuses e rest := by
  unfold ending at h
  cases hr : a.readAll s with
  | error stuck =>
    obtain ⟨e', b, rest⟩ := stuck
    obtain ⟨rfl, rfl⟩ : b.ready.toList = ts ∧ e' = e := by simpa [hr] using h
    obtain ⟨read, c, d, hs, hread, hc, -, hready⟩ := readAll_breaks ha hr
    exact ⟨read, c :: rest, d, hs, hread, by rw [hready], _, hc, rfl⟩
  | ok b =>
    simp only [hr] at h
    cases hf : b.finish with
    | ok d => simp [hf] at h
    | error stuck =>
      obtain ⟨rfl, rfl⟩ : b.ready.toList = ts ∧ stuck.error = e := by simpa [hf] using h
      exact ⟨s, [], b, (List.append_nil s).symm, hr, rfl, stuck, hf, rfl⟩

end Zygo.Lexer.Automaton

namespace Zygo.Listing

open Lexer Automaton

variable {l m : Listing} {ts us : List Token} {e : LexError}

theorem lines_append (ts us : List Token) : lines (ts ++ us) = lines ts ++ lines us := by
  simp [lines]

/-! ## Chunks up to the end of the input -/

/-- Feeds chunks in turn and declares the end of the input. -/
def feedToEnd (l : Listing) (chunks : List String) : Except (Stuck Listing) Listing :=
  match l.feedAll chunks with
  | .error stuck => .error stuck
  | .ok l => l.finish

theorem feedToEnd_cons_ok {chunk : String} (h : l.feed chunk = .ok m) (chunks : List String) :
    l.feedToEnd (chunk :: chunks) = m.feedToEnd chunks := by
  rw [feedToEnd, feedAll, h]
  rfl

theorem feedToEnd_cons_error {chunk : String} {stuck : Stuck Listing} (h : l.feed chunk = .error stuck)
    (chunks : List String) : l.feedToEnd (chunk :: chunks) = .error stuck := by
  rw [feedToEnd, feedAll, h]

theorem feedToEnd_behind (out : String) (n : Nat) (errors : Array LexError) (f : Listing) (chunks : List String) :
    (f.behind out n errors).feedToEnd chunks = resultBehind out n errors (f.feedToEnd chunks) := by
  rw [feedToEnd, feedToEnd, feedAll_behind]
  cases f.feedAll chunks with
  | error stuck => rfl
  | ok d => exact finish_behind out n errors d

/-- A listing that passes over errors gets to the end and only adds to what it has written and recorded. -/
theorem feedToEnd_lenient (hl : l.AtRest) (hx : l.exitOnFail = false) (chunks : List String) :
    ∃ m text more, l.feedToEnd chunks = .ok m ∧ m.out = l.out ++ text ∧ m.errors = l.errors ++ more := by
  -- What has been written and recorded so far may be set aside.
  have hsplit : l = { l with out := "", errors := #[] }.behind l.out 0 l.errors := by simp [behind]
  obtain ⟨d, hd, hdrest, hdx, -⟩ :=
    feedAll_lenient (l := { l with out := "", errors := #[] }) ⟨hl.dry, hl.tidy, hl.line⟩ hx chunks
  obtain ⟨f, hf⟩ := call_lenient hdrest hdx .finish
  have hend : { l with out := "", errors := #[] }.feedToEnd chunks = .ok f := by
    rw [feedToEnd, hd]
    exact hf
  refine ⟨f.behind l.out 0 l.errors, f.out, f.errors.map (LexError.shift 0), ?_, rfl, rfl⟩
  have hb := feedToEnd_behind l.out 0 l.errors { l with out := "", errors := #[] } chunks
  rw [← hsplit, hend] at hb
  exact hb

/-- What listing the rest of an input comes to, for an automaton that ends with the given tokens and error. Without an
error, the tokens are written and the record stays. With one, it is the first to end the listing or to be recorded, and
the tokens are written first. -/
def Concludes (l : Listing) (r : Except (Stuck Listing) Listing) : List Token × Option LexError → Prop
  | (ts, none) => ∃ m, r = .ok m ∧ m.out = l.out ++ lines ts ∧ m.errors = l.errors
  | (ts, some e) =>
    (l.exitOnFail = true → ∃ s, r = .error ⟨e.shift l.lineBase, s⟩) ∧
    (l.exitOnFail = false → ∃ m text more, r = .ok m ∧ m.out = l.out ++ lines ts ++ text ∧
      m.errors = l.errors.push (e.shift l.lineBase) ++ more)

/-- The tokens of an earlier chunk have been written before the rest. -/
theorem Concludes.of_past {chunk : String} {lexer : Lexer} {r : Except (Stuck Listing) Listing}
    {p : List Token × Option LexError} (h : (l.past chunk us lexer).Concludes r p) :
    l.Concludes r (us ++ p.1, p.2) := by
  obtain ⟨ts, e?⟩ := p
  cases e? with
  | none =>
    obtain ⟨m, hr, hout, herrors⟩ := h
    refine ⟨m, hr, ?_, herrors⟩
    rw [hout, lines_append, past, String.append_assoc]
  | some e =>
    refine ⟨h.1, fun hx => ?_⟩
    obtain ⟨m, text, more, hr, hout, herrors⟩ := h.2 hx
    refine ⟨m, text, more, hr, ?_, herrors⟩
    simp [hout, lines_append, past, String.append_assoc]

/-- The end of the input, of an automaton and of a listing. -/
theorem finish_concludes (hl : l.AtRest) : l.Concludes l.finish (l.lexer.automaton.ending []) := by
  rw [ending_nil]
  cases hf : l.lexer.automaton.finish with
  | ok a => exact ⟨_, finish_whole hl hf, rfl, rfl⟩
  | error stuck =>
    refine ⟨fun hx => finish_stopped hl hx hf, fun hx => ?_⟩
    obtain ⟨d, hd⟩ := finish_passed hl hx hf
    refine ⟨_, "", #[], hd, ?_, ?_⟩
    · simp [passOver, hl.ready, lines]
    · simp [passOver]

theorem feed_error_concludes (hl : l.AtRest) {chunk : String} {b : Automaton} {rest : List Char}
    (h : l.lexer.automaton.readAll chunk.toList = .error ⟨e, b, rest⟩) (chunks : List String) :
    l.Concludes (l.feedToEnd (chunk :: chunks)) (b.ready.toList, some e) := by
  refine ⟨fun hx => ?_, fun hx => ?_⟩
  · obtain ⟨s, hs⟩ := feed_stopped hl hx h
    exact ⟨s, feedToEnd_cons_error hs chunks⟩
  · obtain ⟨d, hd⟩ := feed_passed hl hx h
    have hm := feed_becomes hl hd
    obtain ⟨m, text, more, hend, hout, herrors⟩ := feedToEnd_lenient hm.atRest (hm.exitOnFail.trans hx) chunks
    exact ⟨m, text, more, (feedToEnd_cons_ok hd chunks).trans hend, hout, herrors⟩

/-- **A listing of chunks ends as the automaton does on all of them together.** -/
theorem feedToEnd_concludes (hl : l.AtRest) (chunks : List String) :
    l.Concludes (l.feedToEnd chunks) (l.lexer.automaton.ending (String.join chunks).toList) := by
  induction chunks generalizing l with
  | nil => exact finish_concludes hl
  | cons chunk chunks ih =>
    rw [String.join_cons, String.toList_append]
    cases h : l.lexer.automaton.readAll chunk.toList with
    | error stuck =>
      obtain ⟨e, b, rest⟩ := stuck
      rw [ending_append_error h]
      exact feed_error_concludes hl h chunks
    | ok a =>
      have hfeed := feed_whole hl h
      have hrest := (feed_becomes hl hfeed).atRest
      -- The next chunk is read by the same automaton, whose tokens have been taken.
      rw [ending_append_ok h, ending_take, feedToEnd_cons_ok hfeed]
      exact (ih hrest).of_past

/-! ## Texts -/

theorem flatten_splitLines (s : List Char) : (splitLines s).flatten = s := by
  fun_induction splitLines s with
  | case1 => rfl
  | case2 s ih => rw [List.flatten_cons, ih]; rfl
  | case3 c s hc h ih =>
    rw [h] at ih
    rw [← ih]
    rfl
  | case4 c s hc first rest h ih =>
    rw [h] at ih
    rw [← ih]
    rfl

theorem join_lines (s : List Char) : String.join ((splitLines s).map String.ofList) = String.ofList s := by
  rw [← String.toList_inj, String.toList_join, List.flatMap_map]
  simp [List.flatMap_id', flatten_splitLines]

theorem ofText_eq_feedToEnd (text : String) (x : Bool) :
    ofText text x = (start x).feedToEnd ((splitLines text.toList).map String.ofList) := rfl

/-- What a listing gives: what it wrote and how many errors it passed over, or the error that ended it. -/
def result : Except (Stuck Listing) Listing → Except LexError (String × Nat)
  | .ok l => .ok (l.out, l.errors.size)
  | .error stuck => .error stuck.error

theorem lex_eq_ending (text : String) :
    lex text = match Automaton.initial.ending text.toList with
      | (_, some e) => .error e
      | (ts, none) => .ok ts := by
  rw [lex_eq_outcome, outcome_eq_ending]

theorem ofText_concludes (text : String) (x : Bool) :
    (start x).Concludes (ofText text x) (Automaton.initial.ending text.toList) := by
  have h := feedToEnd_concludes (atRest_start x) ((splitLines text.toList).map String.ofList)
  rwa [join_lines, String.toList_ofList] at h

theorem ofText_of_ok {text : String} (h : lex text = .ok ts) (x : Bool) :
    ∃ l, ofText text x = .ok l ∧ l.out = lines ts ∧ l.errors = #[] := by
  have hc := ofText_concludes text x
  rw [lex_eq_ending] at h
  cases he : Automaton.initial.ending text.toList with
  | mk us e? =>
    rw [he] at hc h
    cases e? with
    | some e => cases h
    | none =>
      obtain rfl := Except.ok.inj h
      obtain ⟨l, hl, hout, herrors⟩ := hc
      refine ⟨l, hl, ?_, herrors⟩
      rw [hout]
      simp [start]

theorem ofText_of_error {text : String} (h : lex text = .error e) :
    (∃ s, ofText text true = .error ⟨e, s⟩) ∧
    ∃ l, ofText text false = .ok l ∧ l.errors[0]? = some e ∧
      ∃ read rest a more, text.toList = read ++ rest ∧ Automaton.initial.readAll read = .ok a ∧ a.Refuses e rest ∧
        l.out = lines a.ready.toList ++ more := by
  have hstrict := ofText_concludes text true
  have hlenient := ofText_concludes text false
  rw [lex_eq_ending] at h
  cases he : Automaton.initial.ending text.toList with
  | mk us e? =>
    rw [he] at hstrict hlenient h
    cases e? with
    | none => cases h
    | some e' =>
      obtain rfl := Except.error.inj h
      have hbase : ∀ x, e'.shift (start x).lineBase = e' := by simp [start, LexError.shift]
      obtain ⟨s, hs⟩ := hstrict.1 rfl
      obtain ⟨l, more, later, hl, hout, herrors⟩ := hlenient.2 rfl
      rw [hbase] at hs herrors
      refine ⟨⟨s, hs⟩, l, hl, ?_, ?_⟩
      · have hfirst : l.errors = #[e'] ++ later := herrors
        rw [hfirst, Array.getElem?_append_left (by simp)]
        rfl
      · obtain ⟨read, rest, a, htext, hread, hready, hrefuses⟩ := refuses_of_ending tidy_initial he
        refine ⟨read, rest, a, more, htext, hread, hrefuses, ?_⟩
        rw [hout, hready]
        simp [start]

/-- **The listing of a text agrees with its lexing.** A listing that ends at the first error succeeds just when the text
has tokens, and then writes their lines and passes over no error; otherwise it ends with the error of the text. A listing
that passes over errors always succeeds, and passes over none just when the text has tokens, whose lines it then writes;
otherwise the first error it records is that of the text, and it first writes the lines of the tokens that are complete
before the place where reading the text goes wrong. -/
theorem ofText_eq_lex (text : String) :
    result (ofText text true) = (lex text).map (fun ts => (lines ts, 0)) ∧
    ∃ l, ofText text false = .ok l ∧ (l.errors.size = 0 ↔ ∃ ts, lex text = .ok ts) ∧
      (∀ ts, lex text = .ok ts → l.out = lines ts) ∧
      ∀ e, lex text = .error e → l.errors[0]? = some e ∧
        ∃ read rest a more, text.toList = read ++ rest ∧ Automaton.initial.readAll read = .ok a ∧ a.Refuses e rest ∧
          l.out = lines a.ready.toList ++ more := by
  cases h : lex text with
  | ok ts =>
    obtain ⟨l, hl, hout, herrors⟩ := ofText_of_ok h true
    obtain ⟨m, hm, hmout, hmerrors⟩ := ofText_of_ok h false
    refine ⟨?_, m, hm, ?_, ?_, ?_⟩
    · simp [hl, result, Except.map, hout, herrors]
    · simp [hmerrors]
    · intro us hus
      obtain rfl := Except.ok.inj hus
      exact hmout
    · intro e he
      cases he
  | error e =>
    obtain ⟨⟨s, hs⟩, l, hl, hfirst, hout⟩ := ofText_of_error h
    refine ⟨?_, l, hl, ?_, ?_, ?_⟩
    · rw [hs]
      rfl
    · -- The first error is there, so some are recorded.
      have hsize : l.errors.size ≠ 0 := by
        intro hzero
        simp [Array.eq_empty_of_size_eq_zero hzero] at hfirst
      simp [hsize]
    · intro us hus
      cases hus
    · intro e' he
      obtain rfl := Except.error.inj he
      exact ⟨hfirst, hout⟩

end Zygo.Listing
