import Zygo.Atom

/-!
# The token of an atom

`Atom.classify` tries eleven forms in turn. What a token tells about the atom that it was is less: `Atom.Denotes` says
how the payload comes from the text, and `classify_denotes` that every classified atom denotes its token.
-/

namespace Zygo.Atom

/-- The kinds of literals whose payload is the atom as it stands. -/
def isVerbatim : TokenKind → Bool
  | .bool | .decimal | .float => true
  | _ => false

/-- The kind of the token of a symbol. -/
def symbolKind (s : List Char) : TokenKind :=
  if isDotSymbol s then .dotSymbol else .symbol

/-- The letter after the zero of a number that is not decimal. -/
def radixLetter? : TokenKind → Option Char
  | .hex => some 'x'
  | .oct => some 'o'
  | .binary => some 'b'
  | _ => none

theorem symbolKind_eq (s : List Char) : symbolKind s = .symbol ∨ symbolKind s = .dotSymbol := by
  unfold symbolKind
  split <;> simp

/-- How the payload of a token comes from the text of its atom. -/
inductive Denotes : List Char → Token → Prop
  | dollar : Denotes ['$'] ⟨.dollar, "$"⟩
  | backslash : Denotes ['\\'] (Token.bare .backslash)
  | verbatim {s : List Char} {kind : TokenKind} : isVerbatim kind → Denotes s ⟨kind, String.ofList s⟩
  | symbol (s : List Char) : Denotes s ⟨symbolKind s, String.ofList s⟩
  | radix {s : List Char} {kind : TokenKind} {letter : Char} : radixLetter? kind = some letter →
      Denotes ('0' :: letter :: s) ⟨kind, String.ofList s⟩
  | char {s : List Char} {c : Char} : character? s = .ok (some c) → Denotes s ⟨.char, c.toString⟩

theorem radixDigits?_eq_some {letter : Char} {p : Char → Bool} {s digits : List Char}
    (h : radixDigits? letter p s = some digits) : s = '0' :: letter :: digits ∧ isRun p digits := by
  unfold radixDigits? at h
  split at h
  · rename_i l s
    split at h
    · rename_i hl
      obtain rfl := Option.some.inj h
      exact ⟨by rw [hl.1], hl.2⟩
    · cases h
  · cases h

/-- The token of an atom holds the text of the atom or a known part of it. -/
theorem classify_denotes {text : String} {t : Token} (h : classify text = .ok t) : Denotes text.toList t := by
  have verbatim : ∀ {kind : TokenKind}, isVerbatim kind → Denotes text.toList ⟨kind, text⟩ := fun hk => by
    simpa using Denotes.verbatim (s := text.toList) hk
  have symbol : Denotes text.toList ⟨symbolKind text.toList, text⟩ := by simpa using Denotes.symbol text.toList
  have radix : ∀ {kind : TokenKind} {letter : Char} {p : Char → Bool} {digits : List Char},
      radixLetter? kind = some letter → radixDigits? letter p text.toList = some digits →
      Denotes text.toList ⟨kind, String.ofList digits⟩ := fun hk hd => by
    rw [(radixDigits?_eq_some hd).1]
    exact .radix hk
  simp only [classify] at h
  split at h
  case isTrue hs => cases h; rw [hs]; exact .dollar
  split at h
  case isTrue hs => cases h; rw [hs]; exact .backslash
  split at h
  case isTrue => cases h; exact verbatim rfl
  split at h
  case isTrue => cases h; exact verbatim rfl
  split at h
  case h_1 hd => cases h; exact radix rfl hd
  split at h
  case h_1 hd => cases h; exact radix rfl hd
  split at h
  case h_1 hd => cases h; exact radix rfl hd
  split at h
  case isTrue => cases h; exact verbatim rfl
  split at h
  case isTrue hdot => cases h; rwa [symbolKind, if_pos hdot] at symbol
  rename_i hdot
  split at h
  case isTrue => cases h; rwa [symbolKind, if_neg hdot] at symbol
  split at h
  case h_1 hc => cases h; exact .char hc
  all_goals cases h

theorem Denotes.character? {s : List Char} {t : Token} (h : Denotes s t) (hk : t.kind = .char) :
    ∃ c : Char, t = ⟨.char, c.toString⟩ ∧ Atom.character? s = .ok (some c) := by
  cases h with
  | dollar | backslash => cases hk
  | verbatim hv => subst hk; cases hv
  | symbol => rcases symbolKind_eq s with hs | hs <;> cases hs.symm.trans hk
  | radix hr => subst hk; cases hr
  | char hc => exact ⟨_, rfl, hc⟩

/-- No atom is a raw string. -/
theorem Denotes.kind_ne_rawString {s : List Char} {t : Token} (h : Denotes s t) : t.kind ≠ .rawString := by
  intro hk
  cases h with
  | dollar | backslash | char => cases hk
  | verbatim hv => subst hk; cases hv
  | symbol => rcases symbolKind_eq s with hs | hs <;> cases hs.symm.trans hk
  | radix hr => subst hk; cases hr

/-! ## Integers and symbols -/

/-- A text that starts with a digit has no sign. -/
theorem dropMinus_of_isDigit {c : Char} (hc : c.isDigit) (s : List Char) : dropMinus (c :: s) = c :: s := by
  unfold dropMinus
  split
  · rename_i heq
    obtain ⟨rfl, -⟩ := List.cons.inj heq
    cases hc
  · rfl

theorem classify_decimal {text : String} (h : isDecimal text.toList) : classify text = .ok ⟨.decimal, text⟩ := by
  have hdollar : text.toList ≠ ['$'] := by intro e; rw [e] at h; cases h
  have hslash : text.toList ≠ ['\\'] := by intro e; rw [e] at h; cases h
  have hbool : ¬(text = "true" ∨ text = "false") := by rintro (rfl | rfl) <;> revert h <;> decide
  simp only [classify, if_neg hdollar, if_neg hslash, if_neg hbool, if_pos h]

/-- The token of a symbol is its text, and its kind is in its text as well. -/
theorem classify_symbol {text : String} {t : Token} (h : classify text = .ok t)
    (hk : t.kind = .symbol ∨ t.kind = .dotSymbol) : t = ⟨symbolKind text.toList, text⟩ := by
  have hd := classify_denotes h
  generalize hs : text.toList = s at hd
  cases hd with
  | symbol => rw [← hs, String.ofList_toList]
  | dollar | backslash | char => simp [Token.bare] at hk
  | verbatim hv => rcases hk with rfl | rfl <;> cases hv
  | radix hr => rcases hk with rfl | rfl <;> cases hr

/-! ## Floats -/

section Floats

variable {s : List Char} {c : Char}

theorem splitFirst?_append {p : Char → Bool} {before after : List Char} (hb : ∀ d ∈ before, p d = false) (hc : p c) :
    splitFirst? p (before ++ c :: after) = some (before, after) := by
  induction before with
  | nil => simp [splitFirst?, hc]
  | cons d before ih =>
    have hd := hb d List.mem_cons_self
    have hbefore := ih fun d hd => hb d (List.mem_cons_of_mem _ hd)
    simp [splitFirst?, hd, hbefore]

theorem splitFirst?_eq_none {p : Char → Bool} (h : ∀ d ∈ s, p d = false) : splitFirst? p s = none := by
  induction s with
  | nil => rfl
  | cons d s ih =>
    have hd := h d List.mem_cons_self
    have hs := ih fun d hd => h d (List.mem_cons_of_mem _ hd)
    simp [splitFirst?, hd, hs]

/-- The character at which a text is split is left out. -/
theorem splitFirst?_eq_some {p : Char → Bool} {before after : List Char} (h : splitFirst? p s = some (before, after)) :
    ∃ d, p d ∧ s = before ++ d :: after := by
  induction s generalizing before with
  | nil => cases h
  | cons d s ih =>
    rw [splitFirst?] at h
    split at h
    · rename_i hd
      obtain ⟨rfl, rfl⟩ := Prod.mk.inj (Option.some.inj h)
      exact ⟨d, hd, rfl⟩
    · obtain ⟨⟨before', after'⟩, hs, heq⟩ := Option.map_eq_some_iff.1 h
      obtain ⟨rfl, rfl⟩ := Prod.mk.inj heq
      obtain ⟨e, he, rfl⟩ := ih hs
      exact ⟨e, he, rfl⟩

theorem isPointed_eq_true (h : isPointed s) :
    ∃ whole fraction, s = whole ++ '.' :: fraction ∧ (∀ d ∈ whole, d.isDigit) ∧ ∀ d ∈ fraction, d.isDigit := by
  unfold isPointed at h
  split at h
  · rename_i whole fraction hs
    obtain ⟨d, hd, rfl⟩ := splitFirst?_eq_some hs
    obtain rfl : d = '.' := by simpa using hd
    simp only [Bool.and_eq_true, List.all_eq_true] at h
    exact ⟨whole, fraction, rfl, h.1.1, h.1.2⟩
  · cases h

theorem isDigit_of_isRun (h : isRun Char.isDigit s) (hc : c ∈ s) : c.isDigit := by
  simp only [isRun, Bool.and_eq_true, List.all_eq_true] at h
  exact h.2 c hc

theorem isExponent_mem (h : isExponent s) (hc : c ∈ s) : c.isDigit ∨ c ∈ ['+', '-'] := by
  unfold isExponent at h
  split at h
  · rcases List.mem_cons.1 hc with rfl | hc
    · exact .inr (by decide)
    · exact .inl (isDigit_of_isRun h hc)
  · rcases List.mem_cons.1 hc with rfl | hc
    · exact .inr (by decide)
    · exact .inl (isDigit_of_isRun h hc)
  · exact .inl (isDigit_of_isRun h hc)

theorem eq_dropMinus (s : List Char) : s = dropMinus s ∨ s = '-' :: dropMinus s := by
  unfold dropMinus
  split
  · exact .inr rfl
  · exact .inl rfl

/-- Behind its sign a float has a point or the letter of an exponent, which no integer has. -/
theorem isFloat_shape (h : isFloat s) : ∃ before mark after, dropMinus s = before ++ mark :: after ∧
    mark ∈ ['.', 'e', 'E'] ∧ ∀ d ∈ before ++ after, d.isDigit ∨ d ∈ ['.', '+', '-'] := by
  unfold isFloat at h
  split at h
  · rename_i mantissa exponent hs
    obtain ⟨mark, hmark, heq⟩ := splitFirst?_eq_some hs
    simp only [Bool.or_eq_true, beq_iff_eq] at hmark
    obtain ⟨hm, he⟩ := Bool.and_eq_true_iff.1 h
    refine ⟨mantissa, mark, exponent, heq, by rcases hmark with rfl | rfl <;> decide, fun d hd => ?_⟩
    rcases List.mem_append.1 hd with hd | hd
    · rcases Bool.or_eq_true_iff.1 hm with hm | hm
      · obtain ⟨whole, fraction, rfl, hw, hf⟩ := isPointed_eq_true hm
        rcases List.mem_append.1 hd with hd | hd
        · exact .inl (hw d hd)
        · rcases List.mem_cons.1 hd with rfl | hd
          · exact .inr (by decide)
          · exact .inl (hf d hd)
      · exact .inl (isDigit_of_isRun hm hd)
    · exact (isExponent_mem he hd).imp_right fun hd => List.mem_cons_of_mem _ hd
  · obtain ⟨whole, fraction, heq, hw, hf⟩ := isPointed_eq_true h
    exact ⟨whole, '.', fraction, heq, by decide, fun d hd => .inl ((List.mem_append.1 hd).elim (hw d) (hf d))⟩

/-- The characters of a float. -/
theorem isFloat_mem (h : isFloat s) (hc : c ∈ s) : c.isDigit ∨ c ∈ ['.', 'e', 'E', '+', '-'] := by
  obtain ⟨before, mark, after, heq, hmark, hrest⟩ := isFloat_shape h
  have hbody : c ∈ dropMinus s ∨ c = '-' := by
    rcases eq_dropMinus s with hs | hs
    · exact .inl (hs ▸ hc)
    · rw [hs] at hc
      exact (List.mem_cons.1 hc).symm
  rcases hbody with hbody | rfl
  · rw [heq, List.mem_append, List.mem_cons] at hbody
    simp only [List.mem_append, List.mem_cons, List.not_mem_nil, or_false] at hrest hmark ⊢
    grind
  · exact .inr (by decide)

theorem not_isDecimal_of_isFloat (h : isFloat s) : ¬isDecimal s := by
  intro hd
  obtain ⟨before, mark, after, heq, hmark, -⟩ := isFloat_shape h
  have hdigit : mark.isDigit := isDigit_of_isRun hd (by simp [heq])
  simp only [List.mem_cons, List.not_mem_nil, or_false] at hmark
  rcases hmark with rfl | rfl | rfl <;> cases hdigit

theorem classify_float {text : String} (h : isFloat text.toList) : classify text = .ok ⟨.float, text⟩ := by
  have hmem : ∀ d, d ∈ text.toList → d.isDigit ∨ d ∈ ['.', 'e', 'E', '+', '-'] := fun d => isFloat_mem h
  have hdollar : text.toList ≠ ['$'] := by intro e; rw [e] at h; cases h
  have hslash : text.toList ≠ ['\\'] := by intro e; rw [e] at h; cases h
  have hbool : ¬(text = "true" ∨ text = "false") := by rintro (rfl | rfl) <;> revert h <;> decide
  have hradix : ∀ letter ∈ ['x', 'o', 'b'], ∀ p, radixDigits? letter p text.toList = none := by
    intro letter hl p
    refine Option.eq_none_iff_forall_not_mem.2 fun digits hd => ?_
    have hletter := hmem letter (by rw [(radixDigits?_eq_some hd).1]; simp)
    simp only [List.mem_cons, List.not_mem_nil, or_false] at hl
    rcases hl with rfl | rfl | rfl <;> revert hletter <;> decide
  simp only [classify, if_neg hdollar, if_neg hslash, if_neg hbool, if_neg (not_isDecimal_of_isFloat h),
    hradix 'x' (by decide), hradix 'o' (by decide), hradix 'b' (by decide), if_pos h]

/-- Nothing else is classified as a float. -/
theorem isFloat_of_classify {text : String} {t : Token} (h : classify text = .ok t) (hk : t.kind = .float) :
    isFloat text.toList := by
  cases hfloat : isFloat text.toList with
  | true => rfl
  | false =>
    simp only [classify, hfloat, Bool.false_eq_true, if_false] at h
    repeat' split at h
    all_goals first | cases h; done | cases h; cases hk

end Floats

/-! ## Character literals -/

section Hash

variable (s : List Char)

theorem splitFirst?_hash {p : Char → Bool} (hp : p '#' = false) :
    splitFirst? p ('#' :: s) = (splitFirst? p s).map fun (before, after) => ('#' :: before, after) := by
  simp [splitFirst?, hp]

theorem isPointed_hash : isPointed ('#' :: s) = false := by
  unfold isPointed
  rw [splitFirst?_hash s (by decide)]
  cases splitFirst? (· == '.') s <;> simp

theorem isFloat_hash : isFloat ('#' :: s) = false := by
  unfold isFloat
  rw [show dropMinus ('#' :: s) = '#' :: s from rfl, splitFirst?_hash s (by decide)]
  cases splitFirst? (fun c => c == 'e' || c == 'E') s <;> simp [isPointed_hash, isRun]

/-- No other form starts with `#`. -/
theorem classify_hash {c : Char} (hc : character? ('#' :: s) = .ok (some c)) :
    classify (String.ofList ('#' :: s)) = .ok ⟨.char, c.toString⟩ := by
  have hbool : ¬(String.ofList ('#' :: s) = "true" ∨ String.ofList ('#' :: s) = "false") := by
    simp [← String.toList_inj]
  have hstart : isSymbolStart '#' = false := by decide
  simp only [classify, String.toList_ofList, hbool, isFloat_hash, hc]
  simp [isDecimal, dropMinus, isRun, radixDigits?, isDotSymbol, isSymbol, hstart]

end Hash

/-- A character stands for itself or for its escape after `#`. -/
theorem character?_spell (c : Char) : character? ('#' :: Escape.spell c) = .ok (some c) := by
  unfold Escape.spell
  cases h : Escape.letter? c with
  | none => rfl
  | some l => simp [character?, Escape.meaning?_letter h]

theorem classify_char (c : Char) :
    classify (String.ofList ('#' :: Escape.spell c)) = .ok ⟨.char, c.toString⟩ :=
  classify_hash _ (character?_spell c)

/-- A character literal is a character or an escape after `#`. -/
theorem character?_eq_some {s : List Char} {c : Char} (h : character? s = .ok (some c)) :
    s = ['#', c] ∨ ∃ letter, s = ['#', '\\', letter] ∧ Escape.meaning? letter = some c := by
  unfold character? at h
  split at h
  · left
    cases h
    rfl
  · right
    split at h
    · rename_i hd
      cases h
      exact ⟨_, rfl, hd⟩
    · cases h
  · cases h

end Zygo.Atom
