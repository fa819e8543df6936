import Zygo.Proofs.Listing.Text
import Zygo.Proofs.Repl.Lines
import Zygo.Proofs.Value.Literals

/-!
# The lines of a listing

A listing writes a line for each token. What the line holds is written by renderers that have nothing to do with lines:
texts and characters are escaped, values are shown in a diagnostic form, numbers have digits. None of them writes a
newline, save that of raw strings: these have no escapes, so a newline in one stands in the listing as it is, and the
line of the token is broken there.

* `newlines_line`: the newlines in the line of a token.
* `lines_of_lex`: the lines of a listing, token by token, and when there is one for each token.
-/

namespace Zygo

/-! ## Texts without newlines -/

section Renderers

theorem Escape.newline_notMem_spell (c : Char) : '\n' ∉ spell c := by
  unfold spell
  cases h : letter? c with
  | some l =>
    unfold letter? at h
    split at h <;> cases h <;> decide
  | none =>
    have hc : c ≠ '\n' := by rintro rfl; cases h
    simpa using hc.symm

theorem Escape.newline_notMem_spellText (text : String) : '\n' ∉ (spellText text).toList := by
  simp only [spellText, String.toList_ofList, List.mem_flatMap, not_exists, not_and]
  exact fun c _ => newline_notMem_spell c

theorem Text.newline_ne_digitChar (n : Nat) : '\n' ≠ n.digitChar := by
  have hdigits : ∀ n < 16, '\n' ≠ n.digitChar := by decide
  rcases Nat.lt_or_ge n 16 with hn | hn
  · exact hdigits n hn
  · have hother : n.digitChar = '*' := by
      unfold Nat.digitChar
      repeat rw [if_neg (by omega)]
    rw [hother]
    decide

theorem Text.newline_notMem_hexDigits (n : Nat) : '\n' ∉ hexDigits n := by
  unfold hexDigits
  induction n using Nat.strongRecOn with
  | ind n ih =>
    rw [Nat.toDigits_eq_if (by decide)]
    split
    · exact fun h => newline_ne_digitChar n (List.mem_singleton.1 h)
    · rename_i hn
      intro h
      rcases List.mem_append.1 h with h | h
      · exact ih (n / 16) (Nat.div_lt_self (by omega) (by decide)) h
      · exact newline_ne_digitChar _ (List.mem_singleton.1 h)

theorem Text.newline_notMem_quoteChar (quote c : Char) : '\n' ∉ quoteChar quote c := by
  unfold quoteChar
  split
  case h_6 =>
    rename_i hnewline _
    have hc : '\n' ≠ c := fun h => hnewline h.symm
    split_ifs
    · simp [hc]
    · simpa using newline_notMem_hexDigits c.toNat
    · simpa using hc
  all_goals decide

theorem Text.newline_notMem_quoted (text : String) : '\n' ∉ (quoted text).toList := by
  simp [quoted, newline_notMem_quoteChar]

theorem Text.newline_notMem_quotedChar (c : Char) : '\n' ∉ (quotedChar c).toList := by
  simp [quotedChar, newline_notMem_quoteChar]

theorem Number.newline_notMem_toString (i : Int) : '\n' ∉ (toString i).toList := by
  have hdigits : '\n' ∉ Nat.toDigits 10 i.natAbs := by
    intro h
    cases isDigit_toDigits _ _ h
  rw [toList_toString]
  split
  · exact hdigits
  · simpa using hdigits

theorem Double.newline_notMem_layOut (c : Decimal) (l : Layout) : '\n' ∉ c.layOut l := by
  obtain ⟨t, htext, -⟩ := c.layOut_isText l
  rw [← htext]
  intro h
  rcases Numeral.mem_text h with h | h
  · cases h
  · revert h
    decide

theorem Double.newline_notMem_render (x : Double) : '\n' ∉ x.render.toList := by
  unfold render
  split
  · decide
  · dsimp only
    rw [String.toList_ofList]
    have hbody : '\n' ∉ if x.isInfinite then ['i', 'n', 'f'] else if x.isZero then ['0', '.', '0']
        else x.shortest.layOut layout := by
      split_ifs
      · decide
      · decide
      · exact newline_notMem_layOut _ _
    split
    · simpa using hbody
    · exact hbody

end Renderers

/-! ## Values of literals -/

namespace Token

variable {t : Token}

/-- Literals fail for one reason only. -/
theorem constant?_eq_error {e : RuntimeError} (h : t.constant? = .error e) :
    ∃ kind, e = .invalidLiteral kind t.text := by
  have hint : ∀ {radix : Nat} {kind : LiteralKind}, (integer radix kind t.text).map some = .error e →
      e = .invalidLiteral kind t.text := by
    intro radix kind h
    unfold integer at h
    split at h <;> cases h
    rfl
  unfold constant? at h
  split at h
  case h_2 | h_3 | h_4 | h_5 => exact ⟨_, hint h⟩
  case h_6 | h_7 => split at h <;> cases h; exact ⟨_, rfl⟩
  all_goals cases h

end Token

/-- The diagnostic forms of leaves hold no newlines, those of symbols apart. -/
theorem Value.Leaf.newline_notMem_describe? {v : Value} (h : v.Leaf) (hs : ∀ s, v ≠ .symbol s) {text : String}
    (ht : v.describe? = some text) : '\n' ∉ text.toList := by
  cases h with
  | int n => cases ht; simpa using Number.newline_notMem_toString n.toInt
  | bool b => cases ht; cases b <;> decide
  | text s | rawText => cases ht; simpa using Text.newline_notMem_quoted _
  | symbol => exact absurd rfl (hs _)
  | @char c => cases ht; simpa using Text.newline_notMem_quotedChar c

namespace Listing

variable {t : Token} {ts : List Token} {s : List Char} {text : String}

/-! ## Newlines -/

theorem newlines_append (a b : String) : newlines (a ++ b) = newlines a + newlines b := by
  rw [newlines, String.toList_append, List.count_append]
  rfl

theorem newlines_eq_zero : newlines text = 0 ↔ '\n' ∉ text.toList :=
  List.count_eq_zero

/-- How often a newline breaks the line of a token: a raw string stands there as it is. -/
def breaks (t : Token) : Nat :=
  if t.kind = .rawString then newlines t.text else 0

theorem newlines_padTo (width : Nat) (text : String) : newlines (padTo width text) = newlines text := by
  rw [padTo, String.pushn_eq_repeat_push]
  induction width - text.length with
  | zero => rfl
  | succ n ih => rw [Nat.repeat, newlines, String.toList_push, List.count_append, ← newlines, ih]; rfl

theorem newlines_valueNote (ht : t.Readable) : newlines (valueNote t) = 0 := by
  cases h : t.constant? with
  | ok v? =>
    cases v? with
    | none => simp only [valueNote, h]; rfl
    | some v =>
      simp only [valueNote, h, newlines_append]
      rw [newlines_eq_zero.2 (by decide), Nat.zero_add, newlines_eq_zero]
      cases hd : v.describe? with
      | none => decide
      | some text =>
        rcases ht.constant?_cases h with ⟨hleaf, hs⟩ | ⟨x, rfl, -⟩
        · exact hleaf.newline_notMem_describe? hs hd
        · cases hd
          simpa using x.newline_notMem_render
  | error e =>
    obtain ⟨kind, rfl⟩ := Token.constant?_eq_error h
    simp only [valueNote, h]
    cases kind <;> rfl

/-- A token that has been read is spelled without newlines, unless it is a raw string. -/
theorem newlines_spelling (ht : t.Readable) : newlines t.spelling = breaks t := by
  cases ht with
  | @mark kind => cases kind <;> rfl
  | dollar | freshAssign => rfl
  | string text =>
    have hplain := newlines_eq_zero.2 (Escape.newline_notMem_spellText text)
    show newlines ("\"" ++ Escape.spellText text ++ "\"") = 0
    rw [newlines_append, newlines_append, hplain]
    rfl
  | @rawString text =>
    show newlines ("`" ++ text ++ "`") = newlines text
    rw [newlines_append, newlines_append]
    show 0 + newlines text + 0 = newlines text
    omega
  | atom hw hc =>
    rw [breaks, if_neg (Atom.classify_denotes hc).kind_ne_rawString, newlines_eq_zero]
    intro h
    cases hw.2 _ h

/-- **The newlines in the line of a token** are those of a raw string. -/
theorem newlines_line (ht : t.Readable) : newlines (line t) = breaks t := by
  have hname : newlines t.kind.name = 0 := by cases t.kind <;> rfl
  have hnote : newlines (if t.kind.isLiteral then valueNote t else "") = 0 := by
    split
    · exact newlines_valueNote ht
    · rfl
  rw [line, newlines_append, newlines_append, newlines_append, newlines_padTo, hname, hnote, newlines_spelling ht]
  show 0 + 0 + breaks t + 0 = breaks t
  omega

/-! ## Lines -/

/-- A text that ends with a newline has as many lines as newlines. -/
theorem length_splitLines_newline (s : List Char) :
    (splitLines (s ++ ['\n'])).length = s.count '\n' + 1 := by
  induction s with
  | nil => rfl
  | cons c s ih =>
    rw [List.cons_append, splitLines]
    split
    · rename_i hc
      rw [List.length_cons, ih, hc, List.count_cons_self]
    · rename_i hc
      rw [List.count_cons_of_ne hc]
      split
      · rename_i hnil
        rw [hnil] at ih
        cases ih
      · rename_i first rest hlines
        rw [hlines] at ih
        exact ih

/-- Lines do not go on behind a newline. -/
theorem splitLines_append_newline (s rest : List Char) :
    splitLines (s ++ ['\n'] ++ rest) = splitLines (s ++ ['\n']) ++ splitLines rest := by
  induction s with
  | nil => rfl
  | cons c s ih =>
    rw [List.cons_append, List.cons_append, splitLines, splitLines, ih]
    split
    · rfl
    · cases hs : splitLines (s ++ ['\n']) with
      | nil =>
        have hlength := length_splitLines_newline s
        rw [hs] at hlength
        cases hlength
      | cons first lines => rfl

theorem toList_lines_cons (t : Token) (ts : List Token) :
    (lines (t :: ts)).toList = (line t).toList ++ ['\n'] ++ (lines ts).toList := by
  simp [lines, String.toList_join]

/-- The lines that a listing writes for a token. -/
def linesOf (t : Token) : List (List Char) :=
  splitLines ((line t).toList ++ ['\n'])

theorem splitLines_lines (ts : List Token) : splitLines (lines ts).toList = ts.flatMap linesOf := by
  induction ts with
  | nil => rfl
  | cons t ts ih => rw [toList_lines_cons, splitLines_append_newline, ih, List.flatMap_cons, linesOf]

theorem length_linesOf (ht : t.Readable) : (linesOf t).length = 1 + breaks t := by
  rw [linesOf, length_splitLines_newline, ← newlines_line ht, newlines, Nat.add_comm]

theorem linesOf_eq (ht : t.Readable) (h : breaks t = 0) : linesOf t = [(line t).toList ++ ['\n']] := by
  have hplain := newlines_eq_zero.1 ((newlines_line ht).trans h)
  exact Repl.splitLines_line hplain []

theorem newlines_lines (h : ∀ t ∈ ts, t.Readable) : newlines (lines ts) = ts.length + (ts.map breaks).sum := by
  induction ts with
  | nil => rfl
  | cons t ts ih =>
    have ht := newlines_line (h t List.mem_cons_self)
    have hts := ih fun u hu => h u (List.mem_cons_of_mem _ hu)
    rw [newlines] at ht hts ⊢
    rw [toList_lines_cons, List.count_append, List.count_append, ht, hts, List.length_cons, List.map_cons, List.sum_cons]
    show breaks t + 1 + _ = _
    omega

/-- No raw string among the tokens holds a newline. -/
def Unbroken (ts : List Token) : Prop :=
  ∀ t ∈ ts, t.kind = .rawString → '\n' ∉ t.text.toList

theorem unbroken_iff : Unbroken ts ↔ (ts.map breaks).sum = 0 := by
  have hone : ∀ t : Token, breaks t = 0 ↔ (t.kind = .rawString → '\n' ∉ t.text.toList) := by
    intro t
    rw [breaks, ← newlines_eq_zero]
    split
    · rename_i hk
      exact ⟨fun h _ => h, fun h => h hk⟩
    · rename_i hk
      exact iff_of_true rfl fun h => absurd h hk
  rw [List.sum_eq_zero_iff, List.forall_mem_map]
  simp only [Unbroken, hone]

/-- **The lines of a listing.** The listing of a text that has tokens ends every line with a newline. It consists of the
lines of the tokens, in order: one line of each token, and one more for every newline in a raw string. So the lines are
as many as the tokens just when no raw string holds a newline, and then each line is that of the token in its place. -/
theorem lines_of_lex {text : String} (h : lex text = .ok ts) (exitOnFail : Bool) :
    ∃ l, ofText text exitOnFail = .ok l ∧ l.errors = #[] ∧
      (splitLines l.out.toList).length = newlines l.out ∧
      splitLines l.out.toList = ts.flatMap linesOf ∧ (∀ t ∈ ts, (linesOf t).length = 1 + breaks t) ∧
      (newlines l.out = ts.length ↔ Unbroken ts) ∧
      (Unbroken ts → splitLines l.out.toList = ts.map fun t => (line t).toList ++ ['\n']) := by
  have hreadable : ∀ t ∈ ts, t.Readable := fun t ht => Token.readable_of_read (lex_ok_iff.1 h) ht
  have hlength : ∀ t ∈ ts, (linesOf t).length = 1 + breaks t := fun t ht => length_linesOf (hreadable t ht)
  have hnewlines := newlines_lines hreadable
  obtain ⟨l, hl, hout, herrors⟩ := ofText_of_ok h exitOnFail
  refine ⟨l, hl, herrors, ?_, ?_, hlength, ?_, fun hunbroken => ?_⟩
  · rw [hout, splitLines_lines, List.length_flatMap, hnewlines, List.map_congr_left hlength]
    simp [List.sum_map_add]
  · rw [hout, splitLines_lines]
  · rw [hout, hnewlines, unbroken_iff]
    omega
  · rw [hout, splitLines_lines, List.map_eq_flatMap]
    refine List.flatMap_congr fun t ht => linesOf_eq (hreadable t ht) ?_
    rw [unbroken_iff, List.sum_eq_zero_iff, List.forall_mem_map] at hunbroken
    exact hunbroken t ht

/-- Three tokens on two lines, the escaped newline of a text among them. -/
theorem lines_of_lex_escaped :
    lex "(f\n\"a\n\"" = .ok [.bare .lparen, ⟨.symbol, "f"⟩, ⟨.string, "a\n"⟩] ∧
      Unbroken [.bare .lparen, ⟨.symbol, "f"⟩, ⟨.string, "a\n"⟩] ∧
      ∃ l, ofText "(f\n\"a\n\"" true = .ok l ∧ newlines l.out = 3 := by
  have hlex : lex "(f\n\"a\n\"" = .ok [.bare .lparen, ⟨.symbol, "f"⟩, ⟨.string, "a\n"⟩] := rfl
  have hunbroken : Unbroken [.bare .lparen, ⟨.symbol, "f"⟩, ⟨.string, "a\n"⟩] := by
    unfold Unbroken
    decide
  obtain ⟨l, hl, -, -, -, -, hcount, -⟩ := lines_of_lex hlex true
  exact ⟨hlex, hunbroken, l, hl, hcount.2 hunbroken⟩

/-- There is not a line for every token: a raw string with a newline takes two. -/
theorem not_line_of_each_token :
    ¬∀ (text : String) (ts : List Token), lex text = .ok ts →
      ∃ l, ofText text true = .ok l ∧ newlines l.out = ts.length := by
  intro h
  have hlex : lex "`a\nb`" = .ok [⟨.rawString, "a\nb"⟩] := rfl
  obtain ⟨l, hl, hcount⟩ := h _ _ hlex
  obtain ⟨m, hm, hout, -⟩ := ofText_of_ok hlex true
  obtain rfl := Except.ok.inj (hl.symm.trans hm)
  have hreadable : ∀ t ∈ [(⟨.rawString, "a\nb"⟩ : Token)], t.Readable := fun t ht =>
    Token.readable_of_read (lex_ok_iff.1 hlex) ht
  rw [hout, newlines_lines hreadable] at hcount
  revert hcount
  decide

end Listing

end Zygo
