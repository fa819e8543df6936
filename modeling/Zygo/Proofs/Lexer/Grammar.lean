import Zygo.Proofs.Lexer.Outcome

/-!
# The grammar of texts

A text is read directly, lexeme by lexeme, each as long as it can be: `Grammar.lexeme` says what a text starts with and
what stands behind that, and `Grammar.read` reads on from there. A reading that fails leaves the rest of the text from
the character on at which it fails. The automaton, which sees one character at a time, reads every text the same way
(`lex_eq_read`), and an error is on the line of the character at which the reading fails.
-/

namespace Zygo.Grammar

/-! ## Reading lexemes -/

/-- Why a text cannot be read, and what is left of it from the character on that shows it. -/
structure Fault where
  cause : LexError.Cause
  rest : List Char

/-- Characters that are no part of an atom. -/
def special : List Char :=
  ['\n', ',', ' ', '\t', '\r', ';', '(', ')', '[', ']', '{', '}', '\'', '^', '$', '~', ':', '"', '`']

/-- Whether an atom may hold a character. -/
def isWordChar (c : Char) : Bool :=
  !special.contains c

/-- Characters that may not follow an atom directly. -/
def mark? : Char → Option Mark
  | '`' => some .backtick
  | '"' => some .quote
  | '\'' => some .quote
  | '^' => some .caret
  | '~' => some .tilde
  | _ => none

/-- What reading a lexeme gives: its token, if it has one, and the text behind it. -/
abbrev Lexeme := Except Fault (Option Token × List Char)

/-- A token with the text behind it. -/
def Lexeme.of (t : Token) (rest : List Char) : Lexeme :=
  .ok (some t, rest)

/-- A literal of the given kind, whose payload has been read. -/
def literal (kind : TokenKind) : Except Fault (List Char × List Char) → Lexeme
  | .ok (text, rest) => .of ⟨kind, String.ofList text⟩ rest
  | .error f => .error f

/-- A payload with more characters in front. -/
def extend (before : List Char) : Except Fault (List Char × List Char) → Except Fault (List Char × List Char)
  | .ok (text, rest) => .ok (before ++ text, rest)
  | .error f => .error f

/-- The characters and escapes up to the closing quote, and the text behind it. -/
def quoted : List Char → Except Fault (List Char × List Char)
  | [] => .error ⟨.unterminatedString, []⟩
  | ['\\'] => .error ⟨.unterminatedString, []⟩
  | '"' :: s => .ok ([], s)
  | '\\' :: letter :: s =>
    match Escape.meaning? letter with
    | some c => extend [c] (quoted s)
    | none => .error ⟨.invalidEscape letter, letter :: s⟩
  | c :: s => extend [c] (quoted s)

/-- The characters up to the closing backtick, and the text behind it. -/
def raw (s : List Char) : Except Fault (List Char × List Char) :=
  match s.dropWhile (· ≠ '`') with
  | [] => .error ⟨.unterminatedRawString, []⟩
  | _ :: rest => .ok (s.takeWhile (· ≠ '`'), rest)

/-- The atom `text` with `rest` behind it. -/
def atom (text : String) (rest : List Char) : Lexeme :=
  match rest.head?.bind mark? with
  | some mark => .error ⟨.unexpected mark, rest⟩
  | none =>
    match Atom.classify text with
    | .ok t => .of t rest
    | .error cause => .error ⟨cause, rest⟩

/-- The lexeme that starts with `c`, before `s`. -/
def lexeme (c : Char) (s : List Char) : Lexeme :=
  match c with
  | '\n' | ',' | ' ' | '\t' | '\r' => .ok (none, s)
  | ';' => .ok (none, (s.dropWhile (· ≠ '\n')).tail)
  | '(' => .of (.bare .lparen) s
  | ')' => .of (.bare .rparen) s
  | '[' => .of (.bare .lsquare) s
  | ']' => .of (.bare .rsquare) s
  | '{' => .of (.bare .lcurly) s
  | '}' => .of (.bare .rcurly) s
  | '\'' => .of (.bare .quote) s
  | '^' => .of (.bare .caret) s
  | '$' => .of ⟨.dollar, "$"⟩ s
  | '~' => if s.head? = some '@' then .of (.bare .tildeAt) s.tail else .of (.bare .tilde) s
  | ':' => if s.head? = some '=' then .of ⟨.freshAssign, ":="⟩ s.tail else .of (.bare .colon) s
  | '"' => literal .string (quoted s)
  | '`' => literal .rawString (raw s)
  | c => atom (String.ofList (c :: s.takeWhile isWordChar)) (s.dropWhile isWordChar)

theorem quoted_plain {c : Char} (hslash : c ≠ '\\') (hquote : c ≠ '"') (s : List Char) :
    quoted (c :: s) = extend [c] (quoted s) := by
  rw [quoted] <;> simp_all

/-- A character that an atom may hold starts one. -/
theorem lexeme_word {c : Char} (hc : isWordChar c) (s : List Char) :
    lexeme c s = atom (String.ofList (c :: s.takeWhile isWordChar)) (s.dropWhile isWordChar) := by
  unfold lexeme
  split <;> first | rfl | simp [isWordChar, special] at hc

/-! ## What is left behind a lexeme -/

theorem extend_ok {before text rest : List Char} {r : Except Fault (List Char × List Char)}
    (h : extend before r = .ok (text, rest)) : ∃ t, r = .ok (t, rest) ∧ before ++ t = text := by
  unfold extend at h
  split at h
  · obtain ⟨rfl, rfl⟩ := Prod.mk.inj (Except.ok.inj h)
    exact ⟨_, rfl, rfl⟩
  · cases h

theorem literal_ok {kind : TokenKind} {t? : Option Token} {rest : List Char}
    {r : Except Fault (List Char × List Char)} (h : literal kind r = .ok (t?, rest)) :
    ∃ text, r = .ok (text, rest) ∧ t? = some ⟨kind, String.ofList text⟩ := by
  unfold literal at h
  split at h
  · obtain ⟨rfl, rfl⟩ := Prod.mk.inj (Except.ok.inj h)
    exact ⟨_, rfl, rfl⟩
  · cases h

theorem quoted_suffix {s text rest : List Char} (h : quoted s = .ok (text, rest)) : rest <:+ s := by
  fun_induction quoted s generalizing text with
  | case1 | case2 | case5 => cases h
  | case3 s =>
    obtain ⟨-, rfl⟩ := Prod.mk.inj (Except.ok.inj h)
    exact List.suffix_cons _ _
  | case4 letter s c hc ih =>
    obtain ⟨t, ht, -⟩ := extend_ok h
    exact (ih ht).trans ((List.suffix_cons _ _).trans (List.suffix_cons _ _))
  | case6 c s _ _ _ ih =>
    obtain ⟨t, ht, -⟩ := extend_ok h
    exact (ih ht).trans (List.suffix_cons _ _)

theorem raw_suffix {s text rest : List Char} (h : raw s = .ok (text, rest)) : rest <:+ s := by
  unfold raw at h
  split at h
  · cases h
  · rename_i c r hd
    obtain ⟨-, rfl⟩ := Prod.mk.inj (Except.ok.inj h)
    exact (hd ▸ List.suffix_cons c r).trans (List.dropWhile_suffix _)

theorem atom_ok {text : String} {s rest : List Char} {t? : Option Token} (h : atom text s = .ok (t?, rest)) :
    ∃ t, t? = some t ∧ Atom.classify text = .ok t ∧ rest = s := by
  unfold atom at h
  split at h
  · cases h
  · split at h
    · rename_i t ht
      obtain ⟨rfl, rfl⟩ := Prod.mk.inj (Except.ok.inj h)
      exact ⟨t, rfl, ht, rfl⟩
    · cases h

theorem lexeme_suffix {c : Char} {s rest : List Char} {t? : Option Token} (h : lexeme c s = .ok (t?, rest)) :
    rest <:+ s := by
  unfold lexeme at h
  split at h
  case h_6 => cases h; exact (List.tail_suffix _).trans (List.dropWhile_suffix _)
  case h_16 | h_17 =>
    split at h
    · cases h; exact List.tail_suffix _
    · cases h; exact List.suffix_refl _
  case h_18 =>
    obtain ⟨text, ht, -⟩ := literal_ok h
    exact quoted_suffix ht
  case h_19 =>
    obtain ⟨text, ht, -⟩ := literal_ok h
    exact raw_suffix ht
  case h_20 =>
    obtain ⟨t, -, -, rfl⟩ := atom_ok h
    exact List.dropWhile_suffix _
  all_goals cases h; exact List.suffix_refl _

/-- The tokens of a text: those of its lexemes in order. -/
def read : List Char → Except Fault (List Token)
  | [] => .ok []
  | c :: s =>
    match _h : lexeme c s with
    | .error f => .error f
    | .ok (t?, rest) => (read rest).map (t?.toList ++ ·)
termination_by s => s.length
decreasing_by
  have := (lexeme_suffix _h).length_le
  simp only [List.length_cons]
  omega

end Zygo.Grammar
