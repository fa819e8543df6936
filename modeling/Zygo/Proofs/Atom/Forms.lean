import Zygo.Proofs.Atom.Languages

/-!
# The forms of atoms

`classify` tries the languages of the forms in order, `firstForm`. All forms but that of plain symbols have their texts
to themselves, so no more than one of them fits and the order decides nothing but whether a text is a plain symbol.

* `classify_eq`: atoms are classified by the first form that they have.
* `form_unique`: texts with two forms are plain symbols.
* `firstForm_eq_some`: which texts a form gets, by its place before or behind plain symbols.
* `classify_grammar`: the classification follows the grammar `Reads`, which has no order.
-/

namespace Zygo.Atom

section Forms

variable {s : List Char} {kind kind' : TokenKind} {order order' : List TokenKind}

/-! ## Ordered choice -/

/-- Whether a text has a form, as the classification decides it. -/
def fits (s : List Char) : TokenKind → Bool
  | .dollar => s == ['$']
  | .backslash => s == ['\\']
  | .bool => s == "true".toList || s == "false".toList
  | .decimal => isDecimal s
  | .hex => (radixDigits? 'x' isHexDigit s).isSome
  | .oct => (radixDigits? 'o' isOctDigit s).isSome
  | .binary => (radixDigits? 'b' isBinaryDigit s).isSome
  | .float => isFloat s
  | .dotSymbol => isDotSymbol s
  | .symbol => isSymbol s
  | .char => isCharacter s
  | _ => false

theorem fits_iff : fits s kind ↔ s ∈ language kind := by
  cases kind with
  | dollar | backslash => exact beq_iff_eq
  | bool => simp only [fits, Bool.or_eq_true, beq_iff_eq]; rfl
  | decimal => exact isDecimal_iff
  | hex | oct | binary => exact radixDigits?_isSome_iff
  | float => exact isFloat_iff
  | dotSymbol => exact isDotSymbol_iff
  | symbol => exact isSymbol_iff
  | char => exact isCharacter_iff
  | _ => exact iff_of_false nofun (Language.notMem_zero s)

instance (s : List Char) (kind : TokenKind) : Decidable (s ∈ language kind) :=
  decidable_of_iff _ fits_iff

/-- The first form of a list that a text has. -/
def firstForm (order : List TokenKind) (s : List Char) : Option TokenKind :=
  order.find? fun kind => decide (s ∈ language kind)

/-- The forms in the order in which the classification tries them. -/
def classification : List TokenKind :=
  [.dollar, .backslash, .bool, .decimal, .hex, .oct, .binary, .float, .dotSymbol, .symbol, .char]

theorem firstForm_cons (first : TokenKind) (order : List TokenKind) (s : List Char) :
    firstForm (first :: order) s = if s ∈ language first then some first else firstForm order s := by
  by_cases h : s ∈ language first <;> simp [firstForm, h]

theorem firstForm_eq_none : firstForm order s = none ↔ ∀ kind ∈ order, s ∉ language kind := by
  simp [firstForm]

/-- The payload of the token of a text that has a form. -/
def payload : TokenKind → List Char → String
  | .backslash, _ => ""
  | .hex, s | .oct, s | .binary, s => String.ofList (s.drop 2)
  | .char, ['#', c] => c.toString
  | .char, ['#', '\\', letter] => ((Escape.meaning? letter).map Char.toString).getD ""
  | _, s => String.ofList s

/-- What is wrong with a text that has no form. -/
def refusal : List Char → LexError.Cause
  | ['#', '\\', letter] => .invalidEscape letter
  | s => .unrecognizedAtom (String.ofList s)

/-- The last form that is tried tells two mistakes apart. -/
theorem character?_eq (s : List Char) :
    character? s = .ok none ∧ fits s .char = false ∧ refusal s = .unrecognizedAtom (String.ofList s) ∨
      (∃ cause, character? s = .error cause ∧ fits s .char = false ∧ refusal s = cause) ∨
      ∃ c, character? s = .ok (some c) ∧ fits s .char ∧ payload .char s = c.toString := by
  unfold fits isCharacter character? refusal payload
  split
  · exact .inr (.inr ⟨_, rfl, rfl, rfl⟩)
  · rename_i letter
    cases hm : Escape.meaning? letter with
    | none => exact .inr (.inl ⟨_, rfl, rfl, rfl⟩)
    | some c => exact .inr (.inr ⟨c, rfl, rfl, by simp [hm]⟩)
  · rename_i h1 h2
    refine .inl ⟨rfl, rfl, ?_⟩
    split
    · exact absurd rfl (h2 _)
    · rfl

/-- The digits of a text that has a radix stand behind the letter. -/
theorem radixDigits?_eq {letter : Char} {p : Char → Bool} :
    radixDigits? letter p s = if (radixDigits? letter p s).isSome then some (s.drop 2) else none := by
  cases h : radixDigits? letter p s with
  | none => rfl
  | some digits => simp [(radixDigits?_eq_some h).1]

/-- Atoms are classified by the first form that they have. -/
theorem classify_eq (s : List Char) : classify (String.ofList s) =
    match firstForm classification s with
    | some kind => .ok ⟨kind, payload kind s⟩
    | none => .error (refusal s) := by
  have hfits : ∀ kind, decide (s ∈ language kind) = fits s kind := fun kind => by
    rw [Bool.eq_iff_iff, decide_eq_true_iff, fits_iff]
  have hbool : (String.ofList s = "true" ∨ String.ofList s = "false") ↔ fits s .bool := by
    simp [fits, ← String.toList_inj]
  have hdecimal : isDecimal s = fits s .decimal := rfl
  have hhex : radixDigits? 'x' isHexDigit s = if fits s .hex then some (s.drop 2) else none := radixDigits?_eq
  have hoct : radixDigits? 'o' isOctDigit s = if fits s .oct then some (s.drop 2) else none := radixDigits?_eq
  have hbinary : radixDigits? 'b' isBinaryDigit s = if fits s .binary then some (s.drop 2) else none := radixDigits?_eq
  have hfloat : isFloat s = fits s .float := rfl
  have hdot : isDotSymbol s = fits s .dotSymbol := rfl
  have hsymbol : isSymbol s = fits s .symbol := rfl
  simp only [firstForm, hfits, classification, List.find?_cons, List.find?_nil,
    classify, String.toList_ofList, hbool, hdecimal, hhex, hoct, hbinary, hfloat, hdot, hsymbol]
  -- The two lone characters are their own payloads.
  by_cases hdollar : s = ['$']
  · rw [hdollar]
    rfl
  by_cases hslash : s = ['\\']
  · rw [hslash]
    rfl
  rw [if_neg hdollar, if_neg hslash, show fits s .dollar = false from beq_eq_false_iff_ne.2 hdollar,
    show fits s .backslash = false from beq_eq_false_iff_ne.2 hslash]
  cases fits s .bool with
  | true => rfl
  | false =>
  cases fits s .decimal with
  | true => rfl
  | false =>
  cases fits s .hex with
  | true => rfl
  | false =>
  cases fits s .oct with
  | true => rfl
  | false =>
  cases fits s .binary with
  | true => rfl
  | false =>
  cases fits s .float with
  | true => rfl
  | false =>
  cases fits s .dotSymbol with
  | true => rfl
  | false =>
  cases fits s .symbol with
  | true => rfl
  | false =>
  rcases character?_eq s with ⟨hc, hf, hr⟩ | ⟨cause, hc, hf, hr⟩ | ⟨c, hc, hf, hp⟩
  · rw [hc, hf, hr]
    rfl
  · rw [hc, hf, hr]
    rfl
  · rw [hc, hf]
    exact congrArg (fun text => (.ok ⟨.char, text⟩ : Except LexError.Cause Token)) hp.symm

theorem mem_language_of_classify {text : String} {t : Token} (h : classify text = .ok t) :
    text.toList ∈ language t.kind := by
  have heq := classify_eq text.toList
  rw [String.ofList_toList, h] at heq
  split at heq
  · rename_i kind hfound
    cases heq
    simpa using List.find?_some hfound
  · cases heq

/-! ## Disjointness -/

/-- The one form but that of symbols that a text can have. A few characters at the start of a text tell it, and for
numbers whether there is a point or an exponent. -/
def onlyForm : List Char → TokenKind
  | ['$'] => .dollar
  | ['\\'] => .backslash
  | 't' :: _ => .bool
  | 'f' :: _ => .bool
  | '#' :: _ => .char
  | '0' :: 'x' :: _ => .hex
  | '0' :: 'o' :: _ => .oct
  | '0' :: 'b' :: _ => .binary
  | ['.'] => .dotSymbol
  | '.' :: c :: _ => if c.isDigit then .float else .dotSymbol
  | s => if s.any (['.', 'e', 'E'].contains ·) then .float else .decimal

/-- A float that starts with its point has a digit behind it. -/
theorem isDigit_of_float {c : Char} {u : List Char} (h : '.' :: c :: u ∈ language .float) : c.isDigit := by
  have hpointed : ∀ {rest mantissa : List Char}, mantissa ∈ pointed → '.' :: c :: u = mantissa ++ rest → c.isDigit := by
    intro rest mantissa hm heq
    obtain ⟨whole, fraction, rfl, hw, hf, hne⟩ := mem_pointed.1 hm
    cases whole with
    | nil =>
      obtain ⟨d, fraction, rfl⟩ := List.exists_cons_of_ne_nil (hne.resolve_left (by simp))
      obtain ⟨-, rfl, -⟩ : True ∧ c = d ∧ u = fraction ++ rest := by simpa using heq
      exact hf c List.mem_cons_self
    | cons d whole =>
      obtain ⟨rfl, -⟩ := List.cons.inj heq
      cases hw '.' List.mem_cons_self
  have hplain : dropMinus ('.' :: c :: u) = '.' :: c :: u := rfl
  rw [mem_float, hplain, mem_unsignedFloat] at h
  rcases h with hm | ⟨mantissa, mark, power, hm | hm, -, -, heq⟩
  · exact hpointed hm (List.append_nil _).symm
  · exact hpointed hm heq.symm
  · obtain ⟨d, mantissa, rfl⟩ := List.exists_cons_of_ne_nil (isRun_iff.1 (mem_digits.1 hm)).1
    obtain ⟨rfl, -⟩ := List.cons.inj heq
    cases isDigit_of_isRun (mem_digits.1 hm) List.mem_cons_self

theorem onlyForm_number (h : ∀ c ∈ s, c.isDigit ∨ c ∈ ['.', 'e', 'E', '+', '-']) (hdot : ∀ u, s ≠ '.' :: u) :
    onlyForm s = if s.any (['.', 'e', 'E'].contains ·) then .float else .decimal := by
  unfold onlyForm
  split
  case h_11 => rfl
  case h_9 | h_10 => exact absurd rfl (hdot _)
  case h_1 | h_2 | h_3 | h_4 | h_5 => exact absurd (h _ List.mem_cons_self) (by decide)
  case h_6 | h_7 | h_8 => exact absurd (h _ (List.mem_cons_of_mem _ List.mem_cons_self)) (by decide)

theorem onlyForm_decimal (h : s ∈ language .decimal) : onlyForm s = .decimal := by
  have hmem : ∀ c ∈ s, c.isDigit ∨ c = '-' := fun c hc => by
    have hrun : isRun Char.isDigit (dropMinus s) := isDecimal_iff.2 h
    rcases eq_dropMinus s with hs | hs
    · exact .inl (isDigit_of_isRun hrun (hs ▸ hc))
    · rw [hs] at hc
      exact (List.mem_cons.1 hc).symm.imp_left (isDigit_of_isRun hrun)
  have hchars : ∀ c ∈ s, c.isDigit ∨ c ∈ ['.', 'e', 'E', '+', '-'] := fun c hc =>
    (hmem c hc).imp_right fun hm => by rw [hm]; decide
  have hdot : ∀ u, s ≠ '.' :: u := by
    rintro u rfl
    exact absurd (hmem '.' List.mem_cons_self) (by decide)
  rw [onlyForm_number hchars hdot, if_neg]
  intro hany
  obtain ⟨c, hc, hm⟩ := List.any_eq_true.1 hany
  rcases hmem c hc with hd | rfl
  · simp only [List.contains_iff_mem, List.mem_cons, List.not_mem_nil, or_false] at hm
    rcases hm with rfl | rfl | rfl <;> cases hd
  · cases hm

theorem onlyForm_float (h : s ∈ language .float) : onlyForm s = .float := by
  have hfloat := isFloat_iff.2 h
  by_cases hdot : ∃ u, s = '.' :: u
  · obtain ⟨_ | ⟨c, u⟩, rfl⟩ := hdot
    · cases hfloat
    · exact if_pos (isDigit_of_float h)
  · rw [onlyForm_number (fun c => isFloat_mem hfloat) (not_exists.1 hdot), if_pos]
    obtain ⟨before, mark, after, heq, hmark, -⟩ := isFloat_shape hfloat
    have hm : mark ∈ dropMinus s := by simp [heq]
    refine List.any_eq_true.2 ⟨mark, ?_, List.contains_iff_mem.2 hmark⟩
    rcases eq_dropMinus s with hs | hs
    · exact hs ▸ hm
    · exact hs ▸ List.mem_cons_of_mem _ hm

theorem onlyForm_eq (h : s ∈ language kind) (hk : kind ≠ .symbol) : onlyForm s = kind := by
  cases kind with
  | dollar | backslash =>
    obtain rfl := h
    rfl
  | bool => rcases h with h | h <;> (obtain rfl := h; rfl)
  | decimal => exact onlyForm_decimal h
  | hex | oct | binary =>
    obtain ⟨u, -, rfl⟩ := mem_exactly_mul.1 h
    rfl
  | float => exact onlyForm_float h
  | dotSymbol =>
    rcases h with rfl | h
    · rfl
    · obtain ⟨part, parts, hparts, rfl⟩ := mem_dotted.1 h
      obtain ⟨c, u, hc, -, rfl⟩ := mem_oneOf_mul.1 (hparts part List.mem_cons_self)
      refine if_neg fun hd => ?_
      simp [isSymbolStart, hd] at hc
  | symbol => exact absurd rfl hk
  | char => rcases h with h | h <;> (obtain ⟨u, -, rfl⟩ := mem_exactly_mul.1 h; rfl)
  | _ => exact absurd h (Language.notMem_zero s)

/-- Every form but that of symbols has its own texts. -/
theorem form_unique (h : s ∈ language kind) (h' : s ∈ language kind') (hk : kind ≠ .symbol) (hk' : kind' ≠ .symbol) :
    kind = kind' :=
  (onlyForm_eq h hk).symm.trans (onlyForm_eq h' hk')

theorem isSymbolStart_of_symbol {c : Char} (h : c :: s ∈ language .symbol) : isSymbolStart c := by
  obtain ⟨d, u, hd, -, heq⟩ := mem_oneOf_mul.1 h
  obtain ⟨rfl, -⟩ := List.cons.inj heq
  exact hd

theorem notMem_symbol_of_char (h : s ∈ language .char) : s ∉ language .symbol := by
  intro hs
  rcases h with h | h <;>
  · obtain ⟨u, -, rfl⟩ := mem_exactly_mul.1 h
    exact absurd (isSymbolStart_of_symbol hs) (by decide)

/-! ## The place of plain symbols -/

/-- The forms of an order that are tried before plain symbols. -/
def beforeSymbol (order : List TokenKind) : List TokenKind :=
  order.takeWhile (· != .symbol)

theorem beforeSymbol_cons (first : TokenKind) (order : List TokenKind) :
    beforeSymbol (first :: order) = if first = .symbol then [] else first :: beforeSymbol order := by
  by_cases h : first = .symbol <;> simp [beforeSymbol, h]

theorem beforeSymbol_subset : beforeSymbol order ⊆ order :=
  (List.takeWhile_prefix _).subset

theorem ne_symbol_of_mem (h : kind ∈ beforeSymbol order) : kind ≠ .symbol :=
  bne_iff_ne.1 (List.all_eq_true.1 List.all_takeWhile kind h)

/-- The place of a form matters for texts that could be plain symbols only, and there it matters only on which side of
plain symbols the form stands. -/
theorem firstForm_eq_some (hk : kind ≠ .symbol) : firstForm order s = some kind ↔
    kind ∈ order ∧ s ∈ language kind ∧ (s ∈ language .symbol → kind ∈ beforeSymbol order) := by
  induction order with
  | nil => simp [firstForm]
  | cons first order ih =>
    rw [firstForm_cons, beforeSymbol_cons]
    by_cases hfirst : s ∈ language first
    · rw [if_pos hfirst, Option.some.injEq]
      constructor
      · rintro rfl
        simp [hfirst, hk]
      · rintro ⟨-, hs, hbefore⟩
        by_cases hsymbol : first = .symbol
        · subst hsymbol
          cases hbefore hfirst
        · exact form_unique hfirst hs hsymbol hk
    · have hne : s ∈ language kind → kind ≠ first := by
        rintro hs rfl
        exact hfirst hs
      rw [if_neg hfirst, ih]
      by_cases hsymbol : first = .symbol
      · subst hsymbol
        simp [hfirst, hk]
      · simp only [if_neg hsymbol, List.mem_cons]
        grind

theorem firstForm_eq_symbol : firstForm order s = some .symbol ↔
    .symbol ∈ order ∧ s ∈ language .symbol ∧ ∀ kind ∈ beforeSymbol order, s ∉ language kind := by
  induction order with
  | nil => simp [firstForm]
  | cons first order ih =>
    rw [firstForm_cons, beforeSymbol_cons]
    by_cases hsymbol : first = .symbol
    · subst hsymbol
      by_cases hs : s ∈ language .symbol
      · simp [hs]
      · simp [hs, ih]
    · by_cases hfirst : s ∈ language first
      · simp [hfirst, hsymbol]
      · simp [hfirst, hsymbol, Ne.symm hsymbol, ih]

/-- The forms that share texts with plain symbols. -/
def contested : List TokenKind :=
  [.dollar, .bool, .decimal, .float, .dotSymbol]

theorem mem_contested : kind ∈ contested ↔ kind ≠ .symbol ∧ ∃ s ∈ language kind, s ∈ language .symbol := by
  constructor
  · intro h
    refine ⟨ne_of_mem_of_not_mem h (by decide), ?_⟩
    simp only [contested, List.mem_cons, List.not_mem_nil, or_false] at h
    rcases h with rfl | rfl | rfl | rfl | rfl
    · exact ⟨"$".toList, by decide, by decide⟩
    · exact ⟨"true".toList, by decide, by decide⟩
    · exact ⟨"-1".toList, by decide, by decide⟩
    · exact ⟨".5".toList, by decide, by decide⟩
    · exact ⟨".".toList, by decide, by decide⟩
  · rintro ⟨hk, s, hs, hsymbol⟩
    cases kind with
    | dollar | bool | decimal | float | dotSymbol => decide
    | symbol => exact absurd rfl hk
    | char => exact absurd hsymbol (notMem_symbol_of_char hs)
    | backslash =>
      obtain rfl := hs
      exact absurd (isSymbolStart_of_symbol hsymbol) (by decide)
    | hex | oct | binary =>
      obtain ⟨u, -, rfl⟩ := mem_exactly_mul.1 hs
      exact absurd (isSymbolStart_of_symbol hsymbol) (by decide)
    | _ => exact absurd hs (Language.notMem_zero s)

/-- Orders of the same forms find the same ones exactly if plain symbols stand on the same side of every form that
shares texts with them. -/
theorem firstForm_congr_iff (hmem : ∀ kind, kind ∈ order ↔ kind ∈ order') :
    (∀ s, firstForm order s = firstForm order' s) ↔
      ∀ kind ∈ contested, kind ∈ beforeSymbol order ↔ kind ∈ beforeSymbol order' := by
  constructor
  · intro h kind hk
    obtain ⟨hne, s, hs, hboth⟩ := mem_contested.1 hk
    have hfound : ∀ forms : List TokenKind, kind ∈ forms →
        (firstForm forms s = some kind ↔ kind ∈ beforeSymbol forms) := fun forms hf => by
      rw [firstForm_eq_some hne]
      exact ⟨fun h => h.2.2 hboth, fun h => ⟨hf, hs, fun _ => h⟩⟩
    by_cases hin : kind ∈ order
    · rw [← hfound order hin, h s, hfound order' ((hmem kind).1 hin)]
    · exact iff_of_false (fun hb => hin (beforeSymbol_subset hb))
        fun hb => hin ((hmem kind).2 (beforeSymbol_subset hb))
  · intro h s
    refine Option.ext fun kind => ?_
    by_cases hk : kind = .symbol
    · rw [hk, firstForm_eq_symbol, firstForm_eq_symbol, hmem]
      refine and_congr_right fun _ => and_congr_right fun hs => forall_congr' fun kind => ?_
      refine ⟨fun hbefore hk hkind => ?_, fun hbefore hk hkind => ?_⟩
      · exact hbefore ((h kind (mem_contested.2 ⟨ne_symbol_of_mem hk, s, hkind, hs⟩)).2 hk) hkind
      · exact hbefore ((h kind (mem_contested.2 ⟨ne_symbol_of_mem hk, s, hkind, hs⟩)).1 hk) hkind
    · rw [firstForm_eq_some hk, firstForm_eq_some hk, hmem kind]
      refine and_congr_right fun _ => and_congr_right fun hs => imp_congr_right fun hboth => ?_
      exact h kind (mem_contested.2 ⟨hk, s, hs, hboth⟩)

/-! ## The grammar -/

/-- What an atom is read as: the token of the one form that it has, plain symbols only where there is no other, or
an error if there is none. -/
inductive Reads (s : List Char) : Except LexError.Cause Token → Prop
  | form {kind : TokenKind} : kind ≠ .symbol → s ∈ language kind → Reads s (.ok ⟨kind, payload kind s⟩)
  | symbol : s ∈ language .symbol → (∀ kind ≠ .symbol, s ∉ language kind) →
      Reads s (.ok ⟨.symbol, String.ofList s⟩)
  | invalidEscape {letter : Char} : s = ['#', '\\', letter] → Escape.meaning? letter = none →
      Reads s (.error (.invalidEscape letter))
  | unrecognized : (∀ kind, s ∉ language kind) → (∀ letter, s ≠ ['#', '\\', letter]) →
      Reads s (.error (.unrecognizedAtom (String.ofList s)))

theorem mem_classification (h : s ∈ language kind) : kind ∈ classification := by
  cases kind with
  | dollar | backslash | bool | decimal | hex | oct | binary | float | dotSymbol | symbol | char => decide
  | _ => exact absurd h (Language.notMem_zero s)

theorem notMem_of_escape {letter : Char} (hl : Escape.meaning? letter = none) :
    ['#', '\\', letter] ∉ language kind := by
  intro h
  have hkind : kind = .char := by
    by_cases hk : kind = .symbol
    · exact absurd (isSymbolStart_of_symbol (hk ▸ h)) (by decide)
    · exact (onlyForm_eq h hk).symm
  subst hkind
  have hc := isCharacter_iff.2 h
  simp [isCharacter, character?, hl] at hc

theorem refusal_eq (s : List Char) : (∃ letter, s = ['#', '\\', letter] ∧ refusal s = .invalidEscape letter) ∨
    (∀ letter, s ≠ ['#', '\\', letter]) ∧ refusal s = .unrecognizedAtom (String.ofList s) := by
  unfold refusal
  split
  · exact .inl ⟨_, rfl, rfl⟩
  · rename_i h
    exact .inr ⟨h, rfl⟩

theorem reads_classify (s : List Char) : Reads s (classify (String.ofList s)) := by
  rw [classify_eq]
  cases hfound : firstForm classification s with
  | none =>
    have hnone : ∀ kind, s ∉ language kind := fun kind hs => firstForm_eq_none.1 hfound kind (mem_classification hs) hs
    rcases refusal_eq s with ⟨letter, rfl, hr⟩ | ⟨hescape, hr⟩
    · refine .invalidEscape rfl (Option.eq_none_iff_forall_ne_some.2 fun c hc => hnone .char (isCharacter_iff.1 ?_))
      simp [isCharacter, character?, hc]
    · exact hr ▸ .unrecognized hnone hescape
  | some kind =>
    by_cases hk : kind = .symbol
    · subst hk
      obtain ⟨-, hs, hbefore⟩ := firstForm_eq_symbol.1 hfound
      refine .symbol hs fun kind hk hkind => ?_
      by_cases hchar : kind = .char
      · exact notMem_symbol_of_char (hchar ▸ hkind) hs
      · refine hbefore kind ?_ hkind
        have hother : ∀ kind ∈ classification, kind ≠ .symbol → kind ≠ .char → kind ∈ beforeSymbol classification := by
          decide
        exact hother kind (mem_classification hkind) hk hchar
    · exact .form hk ((firstForm_eq_some hk).1 hfound).2.1

/-- The grammar gives every text one reading. -/
theorem Reads.unique {r r' : Except LexError.Cause Token} (h : Reads s r) (h' : Reads s r') : r = r' := by
  cases h with
  | form hk hs =>
    cases h' with
    | form hk' hs' => rw [form_unique hs hs' hk hk']
    | symbol _ hno => exact absurd hs (hno _ hk)
    | invalidEscape heq hl => exact absurd (heq ▸ hs) (notMem_of_escape hl)
    | unrecognized hno => exact absurd hs (hno _)
  | symbol hs hno =>
    cases h' with
    | form hk' hs' => exact absurd hs' (hno _ hk')
    | symbol => rfl
    | invalidEscape heq hl => exact absurd (heq ▸ hs) (notMem_of_escape hl)
    | unrecognized hno => exact absurd hs (hno _)
  | invalidEscape heq hl =>
    cases h' with
    | form hk' hs' => exact absurd (heq ▸ hs') (notMem_of_escape hl)
    | symbol hs' => exact absurd (heq ▸ hs') (notMem_of_escape hl)
    | invalidEscape heq' => simp_all
    | unrecognized _ hno => exact absurd heq (hno _)
  | unrecognized hno hne =>
    cases h' with
    | form _ hs' => exact absurd hs' (hno _)
    | symbol hs' => exact absurd hs' (hno _)
    | invalidEscape heq => exact absurd heq (hne _)
    | unrecognized => rfl

end Forms

/-- The classification follows the grammar. No text has two forms unless one of them is that of plain symbols, so an
order of the same forms classifies alike exactly if plain symbols have the same place among the forms that share texts
with them. -/
theorem classify_grammar :
    (∀ text r, classify text = r ↔ Reads text.toList r) ∧
    (∀ s kind kind', kind ≠ .symbol → kind' ≠ .symbol → s ∈ language kind → s ∈ language kind' → kind = kind') ∧
    (∀ text, (classify text).toOption.map Token.kind = firstForm classification text.toList) ∧
    ∀ order order', (∀ kind, kind ∈ order ↔ kind ∈ order') →
      ((∀ s, firstForm order s = firstForm order' s) ↔
        ∀ kind ∈ contested, kind ∈ beforeSymbol order ↔ kind ∈ beforeSymbol order') := by
  refine ⟨fun text r => ?_, fun s kind kind' hk hk' h h' => form_unique h h' hk hk', fun text => ?_,
    fun order order' hmem => firstForm_congr_iff hmem⟩
  · have hread : Reads text.toList (classify text) := by simpa using reads_classify text.toList
    exact ⟨fun h => h ▸ hread, hread.unique⟩
  · have heq := classify_eq text.toList
    rw [String.ofList_toList] at heq
    rw [heq]
    cases firstForm classification text.toList <;> rfl

/-- Plain symbols may as well be tried behind characters and before the forms that start with a digit or a backslash. -/
theorem classify_grammar_reordered :
    Reads "-.5e1".toList (.ok ⟨.float, "-.5e1"⟩) ∧ "-.5e1".toList ∉ language .dotSymbol ∧
      ∀ s, firstForm classification s = firstForm
        [.char, .dotSymbol, .float, .decimal, .bool, .dollar, .symbol, .binary, .oct, .hex, .backslash] s := by
  obtain ⟨hreads, hdisjoint, -, horder⟩ := classify_grammar
  refine ⟨(hreads _ _).1 (by decide +kernel), fun h => ?_, (horder _ _ fun kind => ?_).2 (by decide)⟩
  · have hfloat : "-.5e1".toList ∈ language .float := by decide
    cases hdisjoint _ _ _ (by decide) (by decide) hfloat h
  · cases kind <;> decide

end Zygo.Atom
