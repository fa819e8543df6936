import Zygo.Proofs.Atom
import Zygo.Proofs.Lexer.Reading

/-!
# Tokens read back from their spellings

`Token.Readable` says which tokens a text can have: a payload never holds a character that would have ended it. Such a
token is read back from its spelling wherever an atom may end behind it, as it may before a space.

* `Token.readable_of_read`: the tokens of a text are readable.
* `Token.read_spelling`: a readable token reads back from its spelling.
* `Token.lex_spellings`: tokens of any texts, spelled with spaces between them, are lexed to themselves.
-/

namespace Zygo

namespace Grammar

/-! ## Where an atom may end -/

/-- A non-empty run of characters that an atom may hold. -/
def IsWord (w : List Char) : Prop :=
  w ≠ [] ∧ ∀ c ∈ w, isWordChar c

instance : DecidablePred IsWord := fun w =>
  decidable_of_iff (w ≠ [] ∧ w.all isWordChar) (by simp [IsWord])

/-- An atom right before `s` ends there and may end there. -/
def Ends (s : List Char) : Prop :=
  (∀ c ∈ s.head?, isWordChar c = false) ∧ s.head?.bind mark? = none

section Ends

variable {s w : List Char} {t : Token}

theorem ends_nil : Ends [] := by simp [Ends]

theorem Ends.head?_ne (h : Ends s) {c : Char} (hc : isWordChar c) : s.head? ≠ some c := by
  intro hs
  have := h.1 c (by simp [hs])
  rw [hc] at this
  cases this

theorem read_of_lexeme {c : Char} {rest : List Char} {t? : Option Token} (h : lexeme c s = .ok (t?, rest)) :
    read (c :: s) = (read rest).map (t?.toList ++ ·) := by
  rw [read]
  split
  · rename_i f hf
    rw [h] at hf
    cases hf
  · rename_i u? rest' hf
    rw [h] at hf
    obtain ⟨rfl, rfl⟩ := Prod.mk.inj (Except.ok.inj hf)
    rfl

/-- A word that ends before `s` is read as an atom. -/
theorem read_word (hw : IsWord w) (hs : Ends s) (ht : Atom.classify (String.ofList w) = .ok t) :
    read (w ++ s) = (read s).map (t :: ·) := by
  obtain ⟨hne, hall⟩ := hw
  obtain ⟨c, w, rfl⟩ := List.exists_cons_of_ne_nil hne
  have hw : ∀ d ∈ w, isWordChar d := fun d hd => hall d (List.mem_cons_of_mem _ hd)
  have hc : isWordChar c := hall c List.mem_cons_self
  have htake : (w ++ s).takeWhile isWordChar = w := by
    rw [List.takeWhile_append_of_pos hw]
    cases s with
    | nil => simp
    | cons d s => rw [List.takeWhile_cons_of_neg (by simp [hs.1 d rfl]), List.append_nil]
  have hdrop : (w ++ s).dropWhile isWordChar = s := by
    rw [List.dropWhile_append_of_pos hw]
    cases s with
    | nil => rfl
    | cons d s => rw [List.dropWhile_cons_of_neg (by simp [hs.1 d rfl])]
  have hl : lexeme c (w ++ s) = .of t s := by
    rw [lexeme_word hc, htake, hdrop, atom, hs.2, ht]
  rw [List.cons_append, read_of_lexeme hl]
  rfl

end Ends

/-! ## Literals -/

theorem quoted_spell (c : Char) (s : List Char) : quoted (Escape.spell c ++ s) = extend [c] (quoted s) := by
  unfold Escape.spell
  cases h : Escape.letter? c with
  | some l => simp [quoted, Escape.meaning?_letter h]
  | none =>
    have hslash : c ≠ '\\' := by rintro rfl; cases h
    have hquote : c ≠ '"' := by rintro rfl; cases h
    exact quoted_plain hslash hquote s

theorem quoted_spellText (text s : List Char) :
    quoted (text.flatMap Escape.spell ++ '"' :: s) = .ok (text, s) := by
  induction text with
  | nil => rfl
  | cons c text ih => rw [List.flatMap_cons, List.append_assoc, quoted_spell, ih]; rfl

theorem raw_append {text : List Char} (h : '`' ∉ text) (s : List Char) : raw (text ++ '`' :: s) = .ok (text, s) := by
  have hall : ∀ c ∈ text, decide (c ≠ '`') = true := fun c hc => by
    simpa using fun he : c = '`' => h (he ▸ hc)
  simp only [raw]
  rw [List.dropWhile_append_of_pos hall, List.takeWhile_append_of_pos hall]
  simp

theorem raw_ok {s text rest : List Char} (h : raw s = .ok (text, rest)) : '`' ∉ text := by
  unfold raw at h
  split at h
  · cases h
  · obtain ⟨rfl, -⟩ := Prod.mk.inj (Except.ok.inj h)
    intro hm
    have hall := List.all_eq_true.1 (List.all_takeWhile (l := s) (p := fun c => decide (c ≠ '`'))) '`' hm
    simp at hall

end Grammar

/-! ## Tokens of texts -/

open Grammar

/-- The kinds of tokens that are known by their kind alone and can be read. -/
def TokenKind.isMark : TokenKind → Bool
  | .lparen | .rparen | .lsquare | .rsquare | .lcurly | .rcurly | .quote | .caret | .tilde | .tildeAt | .colon => true
  | _ => false

/-- The tokens that a text can have. -/
inductive Token.Readable : Token → Prop
  | mark {kind : TokenKind} : kind.isMark → Readable (.bare kind)
  | dollar : Readable ⟨.dollar, "$"⟩
  | freshAssign : Readable ⟨.freshAssign, ":="⟩
  | string (text : String) : Readable ⟨.string, text⟩
  | rawString {text : String} : '`' ∉ text.toList → Readable ⟨.rawString, text⟩
  /-- A token whose spelling is an atom of its own. -/
  | atom {t : Token} : IsWord t.spelling.toList → Atom.classify t.spelling = .ok t → Readable t

namespace Token

variable {t : Token} {s rest : List Char}

/-- Characters of atoms, and those that have an escape of such characters, are spelled in characters of atoms. -/
theorem spell_word {c : Char} (hc : isWordChar c ∨ c ∈ ['\n', '\r', '\t']) : ∀ d ∈ Escape.spell c, isWordChar d := by
  unfold Escape.spell
  cases h : Escape.letter? c with
  | some l =>
    unfold Escape.letter? at h
    split at h <;> cases h <;> first | exact List.all_eq_true.1 (by decide) | simp [isWordChar, special] at hc
  | none =>
    have hc : isWordChar c := by
      rcases hc with hc | hc
      · exact hc
      · simp only [List.mem_cons, List.not_mem_nil, or_false] at hc
        rcases hc with rfl | rfl | rfl <;> cases h
    simpa using hc

/-- A character read from an atom has a spelling of characters of atoms. -/
theorem character?_word {c : Char} (hw : IsWord s) (h : Atom.character? s = .ok (some c)) :
    isWordChar c ∨ c ∈ ['\n', '\r', '\t'] := by
  rcases Atom.character?_eq_some h with rfl | ⟨letter, rfl, hm⟩
  · exact .inl (hw.2 c (by simp))
  · have hl : isWordChar letter := hw.2 letter (by simp)
    unfold Escape.meaning? at hm
    split at hm <;> cases hm <;> first | decide | simp [isWordChar, special] at hl

/-- A character literal whose spelling holds characters of atoms only. -/
theorem readable_char {c : Char} (hc : isWordChar c ∨ c ∈ ['\n', '\r', '\t']) :
    Readable ⟨.char, c.toString⟩ := by
  have hspell : spelling ⟨.char, c.toString⟩ = String.ofList ('#' :: Escape.spell c) := by simp [spelling]
  refine .atom ?_ ?_
  · rw [hspell, String.toList_ofList]
    refine ⟨by simp, fun d hd => ?_⟩
    rcases List.mem_cons.1 hd with rfl | hd
    · decide
    · exact spell_word hc d hd
  · rw [hspell]
    exact Atom.classify_char c

/-- The token of an atom is spelled as an atom. -/
theorem readable_of_atom (hw : IsWord s) (h : Atom.classify (String.ofList s) = .ok t) : t.Readable := by
  have verbatim : t.spelling = String.ofList s → t.Readable := fun hs =>
    .atom (by simpa [hs] using hw) (by rw [hs]; exact h)
  have hd := Atom.classify_denotes h
  rw [String.toList_ofList] at hd
  cases hd with
  | dollar => exact .dollar
  | backslash => exact verbatim (by simp [spelling, bare])
  | @verbatim _ kind hk => exact verbatim (by cases kind <;> first | rfl | cases hk)
  | symbol => exact verbatim (by rcases Atom.symbolKind_eq s with hk | hk <;> simp [spelling, hk])
  | @radix s kind letter hk => exact verbatim (by cases kind <;> cases hk <;> simp [spelling, ← String.toList_inj])
  -- The spelling of a character may differ from the atom, so it is looked at afresh.
  | char hc => exact readable_char (character?_word hw hc)

/-- Only readable tokens are read. -/
theorem readable_of_lexeme {c : Char} (h : lexeme c s = .ok (some t, rest)) : t.Readable := by
  unfold lexeme at h
  split at h
  case h_15 => cases h; exact .dollar
  case h_16 =>
    split at h <;> cases h <;> exact .mark rfl
  case h_17 =>
    split at h <;> cases h
    · exact .freshAssign
    · exact .mark rfl
  case h_18 =>
    obtain ⟨text, -, ht⟩ := literal_ok h
    cases ht
    exact .string _
  case h_19 =>
    obtain ⟨text, hr, ht⟩ := literal_ok h
    cases ht
    exact .rawString (by simpa using raw_ok hr)
  case h_20 =>
    have hc : isWordChar c := by simp_all [isWordChar, special]
    obtain ⟨u, hu, ht, -⟩ := atom_ok h
    cases hu
    refine readable_of_atom ⟨by simp, fun d hd => ?_⟩ ht
    rcases List.mem_cons.1 hd with rfl | hd
    · exact hc
    · exact List.all_eq_true.1 List.all_takeWhile d hd
  all_goals
    first | cases h; done | cases h; exact .mark rfl

theorem readable_of_read {ts : List Token} (h : read s = .ok ts) (ht : t ∈ ts) : t.Readable := by
  fun_induction read s generalizing ts with
  | case1 => cases h; cases ht
  | case2 => cases h
  | case3 c s t? rest hl ih =>
    cases hr : read rest with
    | error f => simp [hr, Except.map] at h
    | ok us =>
      obtain rfl : t?.toList ++ us = ts := by simpa [hr, Except.map] using h
      rcases List.mem_append.1 ht with ht | ht
      · obtain rfl : t? = some t := by simpa using ht
        exact readable_of_lexeme hl
      · exact ih hr ht

theorem read_of_spelling {c : Char} {w : List Char} (hw : t.spelling.toList = c :: w)
    (hl : lexeme c (w ++ s) = .of t s) : read (t.spelling.toList ++ s) = (read s).map (t :: ·) := by
  rw [hw, List.cons_append, read_of_lexeme hl]
  rfl

/-- **A readable token reads back from its spelling**, before any text at which an atom ends. -/
theorem read_spelling (ht : t.Readable) (hs : Ends s) : read (t.spelling.toList ++ s) = (read s).map (t :: ·) := by
  cases ht with
  | @mark kind hk =>
    cases kind
    case tilde =>
      have hat : s.head? ≠ some '@' := hs.head?_ne (by decide)
      exact read_of_spelling (c := '~') (w := []) rfl (by simp [lexeme, hat])
    case colon =>
      have heq : s.head? ≠ some '=' := hs.head?_ne (by decide)
      exact read_of_spelling (c := ':') (w := []) rfl (by simp [lexeme, heq])
    all_goals first | cases hk; done | exact read_of_spelling rfl rfl
  | dollar => exact read_of_spelling rfl rfl
  | freshAssign => exact read_of_spelling rfl rfl
  | string text =>
    have hspell : spelling ⟨.string, text⟩ = String.ofList ('"' :: (text.toList.flatMap Escape.spell ++ ['"'])) := by
      simp [spelling, Escape.spellText, ← String.toList_inj]
    refine read_of_spelling (by rw [hspell, String.toList_ofList]) ?_
    simp [lexeme, quoted_spellText, literal]
  | @rawString text htext =>
    have hspell : spelling ⟨.rawString, text⟩ = String.ofList ('`' :: (text.toList ++ ['`'])) := by
      simp [spelling, ← String.toList_inj]
    refine read_of_spelling (by rw [hspell, String.toList_ofList]) ?_
    simp [lexeme, raw_append htext, literal]
  | atom hw hc => exact read_word hw hs (by simpa using hc)

/-! ## Lists of tokens -/

/-- A token that lexing some text gives. -/
def Lexable (t : Token) : Prop :=
  ∃ source ts, lex source = .ok ts ∧ t ∈ ts

theorem Lexable.readable (h : t.Lexable) : t.Readable := by
  obtain ⟨source, ts, hs, ht⟩ := h
  exact readable_of_read (lex_ok_iff.1 hs) ht

theorem ends_space (s : List Char) : Ends (' ' :: s) := by
  simp [Ends, mark?, isWordChar, special]

theorem read_space (s : List Char) : read (' ' :: s) = read s := by
  have hl : lexeme ' ' s = .ok (none, s) := rfl
  rw [read_of_lexeme hl]
  cases read s <;> rfl

theorem read_spellings {ts : List Token} (h : ∀ t ∈ ts, t.Readable) :
    read (" ".intercalate (ts.map spelling)).toList = .ok ts := by
  induction ts with
  | nil => simp [Grammar.read]
  | cons t ts ih =>
    have ht := h t List.mem_cons_self
    cases ts with
    | nil =>
      have hr := read_spelling ht ends_nil
      simpa [Grammar.read, Except.map] using hr
    | cons u us =>
      have hus := ih fun v hv => h v (List.mem_cons_of_mem _ hv)
      have hr := read_spelling ht (ends_space (" ".intercalate ((u :: us).map spelling)).toList)
      rw [read_space, hus] at hr
      simpa [String.intercalate_cons_cons, Except.map] using hr

/-- **Tokens of any texts, spelled with spaces between them, are lexed to themselves.** -/
theorem lex_spellings (ts : List Token) (h : ∀ t ∈ ts, t.Lexable) :
    lex (" ".intercalate (ts.map spelling)) = .ok ts :=
  lex_ok_iff.2 (read_spellings fun t ht => (h t ht).readable)

/-- Tokens of two texts, in an order of neither. -/
theorem lex_spellings_two_texts :
    (∀ t ∈ [⟨.char, "\n"⟩, ⟨.string, "a\t"⟩, bare .tilde, ⟨.hex, "7f"⟩], t.Lexable) ∧
      lex "#\\n \"a\\t\" ~ 0x7f" = .ok [⟨.char, "\n"⟩, ⟨.string, "a\t"⟩, bare .tilde, ⟨.hex, "7f"⟩] := by
  have hone : lex "~0x7f,#\\n" = .ok [bare .tilde, ⟨.hex, "7f"⟩, ⟨.char, "\n"⟩] := rfl
  have htwo : lex ":\"a\t\"" = .ok [bare .colon, ⟨.string, "a\t"⟩] := rfl
  have h : ∀ t ∈ [⟨.char, "\n"⟩, ⟨.string, "a\t"⟩, bare .tilde, ⟨.hex, "7f"⟩], t.Lexable := by
    simp only [List.mem_cons, List.not_mem_nil, or_false]
    rintro t (rfl | rfl | rfl | rfl)
    · exact ⟨_, _, hone, by decide⟩
    · exact ⟨_, _, htwo, by decide⟩
    · exact ⟨_, _, hone, by decide⟩
    · exact ⟨_, _, hone, by decide⟩
  exact ⟨h, lex_spellings _ h⟩

end Token

end Zygo
