import Mathlib.Computability.Language
import Zygo.Proofs.Atom

/-!
# The languages of atoms

Each form of an atom is a regular language over characters, written with the operations of `Language`. The tests of the
classification, which split texts at a first letter, at a first point or at every dot, decide these languages.

* `isDecimal_iff`, `radixDigits?_isSome_iff`, `isFloat_iff`: numbers.
* `isSymbol_iff`, `isDotSymbol_iff`, `isCharacter_iff`: symbols and characters.
-/

namespace Zygo.Atom

open scoped Computability

/-! ## Languages -/

/-- One character that satisfies `p`. -/
def oneOf (p : Char → Bool) : Language Char :=
  {s | ∃ c, p c ∧ s = [c]}

/-- The text and nothing else. -/
def exactly (text : String) : Language Char :=
  {text.toList}

/-- One or more members of `l`, one behind the other. -/
def oneOrMore (l : Language Char) : Language Char :=
  l * l∗

/-- A member of `l` or nothing. -/
def optional (l : Language Char) : Language Char :=
  1 + l

/-- Decimal digits. -/
def digits : Language Char :=
  oneOrMore (oneOf Char.isDigit)

/-- Digits with a point behind or in front of them or among them. -/
def pointed : Language Char :=
  digits * exactly "." * (oneOf Char.isDigit)∗ + exactly "." * digits

/-- The exponent of a float. -/
def exponent : Language Char :=
  oneOf (fun c => c == 'e' || c == 'E') * (optional (oneOf fun c => c == '+' || c == '-') * digits)

/-- A number with a point, an exponent or both. -/
def unsignedFloat : Language Char :=
  pointed * optional exponent + digits * exponent

/-- The name behind a dot of a dotted symbol. -/
def segment : Language Char :=
  oneOf (fun c => isSymbolStart c && c != '.') * (oneOf fun c => isSymbolChar c && c != '.')∗

/-- The atoms of a form, which is named by the kind of its tokens. Kinds that no atom has have none. -/
def language : TokenKind → Language Char
  | .dollar => exactly "$"
  | .backslash => exactly "\\"
  | .bool => exactly "true" + exactly "false"
  | .decimal => optional (exactly "-") * digits
  | .hex => exactly "0x" * oneOrMore (oneOf isHexDigit)
  | .oct => exactly "0o" * oneOrMore (oneOf isOctDigit)
  | .binary => exactly "0b" * oneOrMore (oneOf isBinaryDigit)
  | .float => optional (exactly "-") * unsignedFloat
  | .dotSymbol => exactly "." + oneOrMore (exactly "." * segment)
  | .symbol => oneOf isSymbolStart * (oneOf isSymbolChar)∗
  | .char => exactly "#" * oneOf (fun _ => true) + exactly "#\\" * oneOf fun c => (Escape.meaning? c).isSome
  | _ => 0

section Membership

variable {s u : List Char} {c : Char} {p q : Char → Bool} {l m : Language Char} {text : String}

theorem mem_oneOf_mul : s ∈ oneOf p * l ↔ ∃ c u, p c ∧ u ∈ l ∧ c :: u = s := by
  rw [Language.mem_mul]
  constructor
  · rintro ⟨_, ⟨c, hc, rfl⟩, u, hu, rfl⟩
    exact ⟨c, u, hc, hu, rfl⟩
  · rintro ⟨c, u, hc, hu, rfl⟩
    exact ⟨[c], ⟨c, hc, rfl⟩, u, hu, rfl⟩

theorem mem_exactly_mul : s ∈ exactly text * l ↔ ∃ u ∈ l, text.toList ++ u = s := by
  rw [Language.mem_mul]
  constructor
  · rintro ⟨_, rfl, h⟩
    exact h
  · exact fun h => ⟨_, rfl, h⟩

theorem mem_optional_mul : s ∈ optional l * m ↔ s ∈ m ∨ s ∈ l * m := by
  rw [optional, add_mul, one_mul, Language.mem_add]

theorem mem_star : s ∈ (oneOf p)∗ ↔ ∀ c ∈ s, p c := by
  induction s with
  | nil => simp [Language.nil_mem_kstar]
  | cons c s ih =>
    rw [← Language.one_add_self_mul_kstar_eq_kstar, Language.mem_add, mem_oneOf_mul]
    simp [ih, Language.mem_one]

theorem mem_oneOrMore_oneOf : s ∈ oneOrMore (oneOf p) ↔ isRun p s := by
  rw [oneOrMore, mem_oneOf_mul]
  cases s <;> simp [mem_star, isRun]

theorem mem_signed (h : ∀ u ∈ l, u.head? ≠ some '-') : s ∈ optional (exactly "-") * l ↔ dropMinus s ∈ l := by
  rw [mem_optional_mul, mem_exactly_mul]
  constructor
  · rintro (hs | ⟨u, hu, rfl⟩)
    · have hhead := h s hs
      unfold dropMinus
      split
      · exact absurd rfl hhead
      · exact hs
    · exact hu
  · intro hs
    rcases eq_dropMinus s with heq | heq
    · exact .inl (heq ▸ hs)
    · exact .inr ⟨_, hs, heq.symm⟩

theorem mem_digits : s ∈ digits ↔ isRun Char.isDigit s :=
  mem_oneOrMore_oneOf

end Membership

/-! ## Numbers -/

section Numbers

variable {s : List Char}

theorem isRun_iff {p : Char → Bool} : isRun p s ↔ s ≠ [] ∧ ∀ c ∈ s, p c := by
  simp [isRun]

theorem head?_digits (h : s ∈ digits) : s.head? ≠ some '-' := by
  intro hs
  have hc := isDigit_of_isRun (mem_digits.1 h) (List.mem_of_head? hs)
  cases hc

theorem isDecimal_iff : isDecimal s ↔ s ∈ language .decimal := by
  rw [language, mem_signed fun u => head?_digits, mem_digits, isDecimal]

theorem radixDigits?_isSome_iff {letter : Char} {p : Char → Bool} :
    (radixDigits? letter p s).isSome ↔ s ∈ exactly (String.ofList ['0', letter]) * oneOrMore (oneOf p) := by
  rw [mem_exactly_mul, Option.isSome_iff_exists]
  constructor
  · rintro ⟨digits, h⟩
    obtain ⟨rfl, hrun⟩ := radixDigits?_eq_some h
    exact ⟨digits, mem_oneOrMore_oneOf.2 hrun, by simp⟩
  · rintro ⟨digits, h, rfl⟩
    exact ⟨digits, by simp [radixDigits?, mem_oneOrMore_oneOf.1 h]⟩

/-- A mantissa with a point has digits in front of the point or behind it. -/
theorem mem_pointed : s ∈ pointed ↔ ∃ whole fraction, s = whole ++ '.' :: fraction ∧ (∀ c ∈ whole, c.isDigit) ∧
    (∀ c ∈ fraction, c.isDigit) ∧ (whole ≠ [] ∨ fraction ≠ []) := by
  rw [pointed, Language.mem_add, mul_assoc, Language.mem_mul, mem_exactly_mul]
  simp only [mem_exactly_mul, mem_star, mem_digits, isRun_iff]
  constructor
  · rintro (⟨whole, ⟨hne, hw⟩, _, ⟨fraction, hf, rfl⟩, rfl⟩ | ⟨fraction, ⟨hne, hf⟩, rfl⟩)
    · exact ⟨whole, fraction, rfl, hw, hf, .inl hne⟩
    · exact ⟨[], fraction, rfl, by simp, hf, .inr hne⟩
  · rintro ⟨whole, fraction, rfl, hw, hf, hne⟩
    by_cases hwhole : whole = []
    · subst hwhole
      exact .inr ⟨fraction, ⟨hne.resolve_left (by simp), hf⟩, rfl⟩
    · exact .inl ⟨whole, ⟨hwhole, hw⟩, _, ⟨fraction, hf, rfl⟩, rfl⟩

theorem isPointed_iff : isPointed s ↔ s ∈ pointed := by
  rw [mem_pointed]
  constructor
  · intro h
    unfold isPointed at h
    split at h
    · rename_i whole fraction hs
      obtain ⟨d, hd, rfl⟩ := splitFirst?_eq_some hs
      obtain rfl : d = '.' := by simpa using hd
      simp only [Bool.and_eq_true, List.all_eq_true, Bool.or_eq_true, Bool.not_eq_true', List.isEmpty_eq_false_iff] at h
      exact ⟨whole, fraction, rfl, h.1.1, h.1.2, h.2⟩
    · cases h
  · rintro ⟨whole, fraction, rfl, hw, hf, hne⟩
    have hsplit : splitFirst? (· == '.') (whole ++ '.' :: fraction) = some (whole, fraction) :=
      splitFirst?_append (fun d hd => beq_eq_false_iff_ne.2 fun he => by cases he ▸ hw d hd) rfl
    simp only [isPointed, hsplit, Bool.and_eq_true, List.all_eq_true, Bool.or_eq_true, Bool.not_eq_true',
      List.isEmpty_eq_false_iff]
    exact ⟨⟨hw, hf⟩, hne⟩

theorem isExponent_iff : isExponent s ↔ s ∈ optional (oneOf fun c => c == '+' || c == '-') * digits := by
  rw [mem_optional_mul, mem_oneOf_mul, mem_digits]
  constructor
  · intro h
    unfold isExponent at h
    split at h
    · exact .inr ⟨'-', _, rfl, mem_digits.2 h, rfl⟩
    · exact .inr ⟨'+', _, rfl, mem_digits.2 h, rfl⟩
    · exact .inl h
  · rintro (h | ⟨c, u, hc, hu, rfl⟩)
    · unfold isExponent
      split
      · exact absurd (isDigit_of_isRun h List.mem_cons_self) (by decide)
      · exact absurd (isDigit_of_isRun h List.mem_cons_self) (by decide)
      · exact h
    · simp only [Bool.or_eq_true, beq_iff_eq] at hc
      rcases hc with rfl | rfl <;> exact mem_digits.1 hu

theorem mem_exponent : s ∈ exponent ↔
    ∃ mark power, (mark == 'e' || mark == 'E') ∧ isExponent power ∧ mark :: power = s := by
  simp only [exponent, mem_oneOf_mul, isExponent_iff]

theorem mem_unsignedFloat : s ∈ unsignedFloat ↔ s ∈ pointed ∨ ∃ mantissa mark power,
    (mantissa ∈ pointed ∨ mantissa ∈ digits) ∧ (mark == 'e' || mark == 'E') ∧ isExponent power ∧
      mantissa ++ mark :: power = s := by
  rw [unsignedFloat, Language.mem_add, Language.mem_mul, Language.mem_mul]
  simp only [optional, Language.mem_add, Language.mem_one, mem_exponent]
  constructor
  · rintro (⟨mantissa, hm, _, rfl | ⟨mark, power, hmark, hp, rfl⟩, rfl⟩ |
      ⟨mantissa, hm, _, ⟨mark, power, hmark, hp, rfl⟩, rfl⟩)
    · exact .inl (by rwa [List.append_nil])
    · exact .inr ⟨mantissa, mark, power, .inl hm, hmark, hp, rfl⟩
    · exact .inr ⟨mantissa, mark, power, .inr hm, hmark, hp, rfl⟩
  · rintro (hm | ⟨mantissa, mark, power, hm | hm, hmark, hp, rfl⟩)
    · exact .inl ⟨s, hm, [], .inl rfl, List.append_nil s⟩
    · exact .inl ⟨mantissa, hm, _, .inr ⟨mark, power, hmark, hp, rfl⟩, rfl⟩
    · exact .inr ⟨mantissa, hm, _, ⟨mark, power, hmark, hp, rfl⟩, rfl⟩

/-- The characters in front of an exponent. -/
theorem mantissa_mem (h : s ∈ pointed ∨ s ∈ digits) : s ≠ [] ∧ ∀ c ∈ s, c.isDigit ∨ c = '.' := by
  rcases h with h | h
  · obtain ⟨whole, fraction, rfl, hw, hf, -⟩ := mem_pointed.1 h
    refine ⟨by simp, fun c hc => ?_⟩
    rcases List.mem_append.1 hc with hc | hc
    · exact .inl (hw c hc)
    · rcases List.mem_cons.1 hc with rfl | hc
      · exact .inr rfl
      · exact .inl (hf c hc)
  · obtain ⟨hne, hdigits⟩ := isRun_iff.1 (mem_digits.1 h)
    exact ⟨hne, fun c hc => .inl (hdigits c hc)⟩

/-- The letter of an exponent is no part of the mantissa. -/
theorem not_isMark (h : s ∈ pointed ∨ s ∈ digits) : ∀ c ∈ s, (c == 'e' || c == 'E') = false := by
  intro c hc
  rw [Bool.or_eq_false_iff, beq_eq_false_iff_ne, beq_eq_false_iff_ne]
  constructor <;> rintro rfl <;> rcases (mantissa_mem h).2 _ hc with hd | hd <;> cases hd

theorem head?_unsignedFloat (h : s ∈ unsignedFloat) {c : Char} (hc : c ∈ s.head?) : c.isDigit ∨ c = '.' := by
  have hstart : ∃ mantissa rest, (mantissa ∈ pointed ∨ mantissa ∈ digits) ∧ s = mantissa ++ rest := by
    rcases mem_unsignedFloat.1 h with hm | ⟨mantissa, mark, power, hm, -, -, rfl⟩
    · exact ⟨s, [], .inl hm, (List.append_nil s).symm⟩
    · exact ⟨mantissa, _, hm, rfl⟩
  obtain ⟨mantissa, rest, hm, rfl⟩ := hstart
  obtain ⟨hne, hchars⟩ := mantissa_mem hm
  obtain ⟨d, u, rfl⟩ := List.exists_cons_of_ne_nil hne
  obtain rfl : d = c := by simpa using hc
  exact hchars d List.mem_cons_self

theorem mem_float : s ∈ language .float ↔ dropMinus s ∈ unsignedFloat := by
  refine mem_signed fun u hu hs => ?_
  rcases head?_unsignedFloat hu hs with hd | hd <;> cases hd

/-- Behind its sign a float is split at the first letter of an exponent, if there is one. -/
theorem isFloat_iff : isFloat s ↔ s ∈ language .float := by
  rw [mem_float, mem_unsignedFloat, isFloat]
  generalize dropMinus s = body
  constructor
  · intro h
    split at h
    · rename_i mantissa power hs
      obtain ⟨mark, hmark, rfl⟩ := splitFirst?_eq_some hs
      obtain ⟨hm, hp⟩ := Bool.and_eq_true_iff.1 h
      rw [Bool.or_eq_true, isPointed_iff, ← mem_digits] at hm
      exact .inr ⟨mantissa, mark, power, hm, hmark, hp, rfl⟩
    · exact .inl (isPointed_iff.1 h)
  · rintro (hm | ⟨mantissa, mark, power, hm, hmark, hp, rfl⟩)
    · rw [splitFirst?_eq_none (not_isMark (.inl hm))]
      exact isPointed_iff.2 hm
    · rw [splitFirst?_append (not_isMark hm) hmark]
      rw [← isPointed_iff, mem_digits, ← Bool.or_eq_true] at hm
      exact Bool.and_eq_true_iff.2 ⟨hm, hp⟩

end Numbers

/-! ## Symbols and characters -/

section Symbols

variable {s : List Char} {c : Char}

/-- Whether a text is a character literal. -/
def isCharacter (s : List Char) : Bool :=
  match character? s with
  | .ok (some _) => true
  | _ => false

theorem isSymbol_iff : isSymbol s ↔ s ∈ language .symbol := by
  rw [language, mem_oneOf_mul]
  cases s <;> simp [isSymbol, mem_star]

/-- Parts hold no separator. -/
theorem notMem_splitAt {sep : Char} {part : List Char} (h : part ∈ splitAt sep s) : sep ∉ part := by
  induction s generalizing part with
  | nil => simp_all [splitAt]
  | cons c s ih =>
    rw [splitAt] at h
    split at h
    · rcases List.mem_cons.1 h with rfl | h
      · simp
      · exact ih h
    · rename_i hc
      split at h
      · simp_all [Ne.symm hc]
      · rename_i first parts hs
        rcases List.mem_cons.1 h with rfl | h
        · have hfirst := ih (hs ▸ List.mem_cons_self)
          simp [Ne.symm hc, hfirst]
        · exact ih (hs ▸ List.mem_cons_of_mem _ h)

theorem splitAt_ne_nil (sep : Char) (s : List Char) : splitAt sep s ≠ [] := by
  cases s with
  | nil => simp [splitAt]
  | cons c s =>
    rw [splitAt]
    split
    · simp
    · split <;> simp

/-- The parts with a separator in front of each make up the text with one in front. -/
theorem flatMap_splitAt (sep : Char) (s : List Char) : (splitAt sep s).flatMap (sep :: ·) = sep :: s := by
  induction s with
  | nil => rfl
  | cons c s ih =>
    rw [splitAt]
    split
    · rename_i hc
      rw [List.flatMap_cons, ih, hc]
      rfl
    · split
      · rename_i hs
        exact absurd hs (splitAt_ne_nil sep s)
      · rename_i part parts hs
        rw [hs, List.flatMap_cons, List.cons_append, List.cons.injEq] at ih
        rw [List.flatMap_cons, List.cons_append, List.cons_append, ih.2]

theorem splitAt_append {sep : Char} {part rest : List Char} {parts : List (List Char)} (hp : sep ∉ part)
    (hrest : splitAt sep rest = [] :: parts) : splitAt sep (part ++ rest) = part :: parts := by
  induction part with
  | nil => exact hrest
  | cons c part ih =>
    obtain ⟨hc, hp⟩ : sep ≠ c ∧ sep ∉ part := by simpa using hp
    rw [List.cons_append, splitAt, if_neg hc.symm, ih hp]

/-- Parts without separators are found again. -/
theorem splitAt_flatMap {sep : Char} {part : List Char} {parts : List (List Char)} (h : ∀ p ∈ part :: parts, sep ∉ p) :
    splitAt sep (part ++ parts.flatMap (sep :: ·)) = part :: parts := by
  induction parts generalizing part with
  | nil => exact splitAt_append (h part List.mem_cons_self) rfl
  | cons next parts ih =>
    have hnext := ih fun p hp => h p (List.mem_cons_of_mem _ hp)
    refine splitAt_append (h part List.mem_cons_self) ?_
    rw [List.flatMap_cons, List.cons_append, splitAt, if_pos rfl, hnext]

theorem mem_segment : s ∈ segment ↔ isSymbol s ∧ '.' ∉ s := by
  rw [segment, mem_oneOf_mul]
  cases s with
  | nil => simp [isSymbol]
  | cons c s =>
    simp only [mem_star, isSymbol, Bool.and_eq_true, List.all_eq_true, bne_iff_ne, List.cons.injEq, List.mem_cons]
    constructor
    · rintro ⟨d, u, ⟨hd, hdot⟩, hu, rfl, rfl⟩
      exact ⟨⟨hd, fun x hx => (hu x hx).1⟩, fun h => h.elim (fun he => hdot he.symm) fun hm => (hu '.' hm).2 rfl⟩
    · rintro ⟨⟨hc, hs⟩, hdot⟩
      obtain ⟨hne, hm⟩ := not_or.1 hdot
      exact ⟨c, s, ⟨hc, Ne.symm hne⟩, fun x hx => ⟨hs x hx, fun he => hm (he ▸ hx)⟩, rfl, rfl⟩

theorem mem_dotted : s ∈ oneOrMore (exactly "." * segment) ↔
    ∃ part parts, (∀ p ∈ part :: parts, p ∈ segment) ∧ (part :: parts).flatMap ('.' :: ·) = s := by
  have hstar : ∀ u, u ∈ (exactly "." * segment)∗ ↔
      ∃ parts : List (List Char), (∀ p ∈ parts, p ∈ segment) ∧ parts.flatMap ('.' :: ·) = u := by
    intro u
    rw [Language.mem_kstar]
    constructor
    · rintro ⟨words, rfl, hwords⟩
      induction words with
      | nil => exact ⟨[], by simp, rfl⟩
      | cons w words ih =>
        obtain ⟨parts, hparts, hflat⟩ := ih fun y hy => hwords y (List.mem_cons_of_mem _ hy)
        obtain ⟨part, hpart, rfl⟩ := mem_exactly_mul.1 (hwords w List.mem_cons_self)
        exact ⟨part :: parts, by simpa using ⟨hpart, hparts⟩, by simp [← hflat]⟩
    · rintro ⟨parts, hparts, rfl⟩
      refine ⟨parts.map ('.' :: ·), List.flatMap_def, fun y hy => ?_⟩
      obtain ⟨part, hpart, rfl⟩ := List.mem_map.1 hy
      exact mem_exactly_mul.2 ⟨part, hparts part hpart, rfl⟩
  rw [oneOrMore, Language.mem_mul]
  simp only [mem_exactly_mul, hstar]
  constructor
  · rintro ⟨_, ⟨part, hpart, rfl⟩, _, ⟨parts, hparts, rfl⟩, rfl⟩
    exact ⟨part, parts, by simpa using ⟨hpart, hparts⟩, rfl⟩
  · rintro ⟨part, parts, h, rfl⟩
    exact ⟨_, ⟨part, h part List.mem_cons_self, rfl⟩, _, ⟨parts, fun p hp => h p (List.mem_cons_of_mem _ hp), rfl⟩, rfl⟩

theorem isDotSymbol_iff : isDotSymbol s ↔ s ∈ language .dotSymbol := by
  rw [language, Language.mem_add, mem_dotted]
  constructor
  · intro h
    unfold isDotSymbol at h
    split at h
    · exact .inl rfl
    · rename_i s _
      obtain ⟨part, parts, hs⟩ := List.exists_cons_of_ne_nil (splitAt_ne_nil '.' s)
      refine .inr ⟨part, parts, fun p hp => mem_segment.2 ?_, hs ▸ flatMap_splitAt '.' s⟩
      rw [← hs] at hp
      exact ⟨List.all_eq_true.1 h p hp, notMem_splitAt hp⟩
    · cases h
  · rintro (rfl | ⟨part, parts, h, rfl⟩)
    · rfl
    · have hsplit := splitAt_flatMap fun p hp => (mem_segment.1 (h p hp)).2
      rw [List.flatMap_cons, List.cons_append]
      unfold isDotSymbol
      split
      · rfl
      · rename_i heq
        obtain rfl := (List.cons.inj heq).2
        rw [hsplit, List.all_eq_true]
        exact fun p hp => (mem_segment.1 (h p hp)).1
      · rename_i hne
        exact absurd rfl (hne _)

theorem isCharacter_iff : isCharacter s ↔ s ∈ language .char := by
  rw [language, Language.mem_add, mem_exactly_mul, mem_exactly_mul]
  constructor
  · intro h
    unfold isCharacter at h
    split at h
    case h_2 => cases h
    rename_i c hc
    rcases character?_eq_some hc with rfl | ⟨letter, rfl, hm⟩
    · exact .inl ⟨[c], ⟨c, rfl, rfl⟩, rfl⟩
    · exact .inr ⟨[letter], ⟨letter, Option.isSome_iff_exists.2 ⟨c, hm⟩, rfl⟩, rfl⟩
  · rintro (⟨_, ⟨c, -, rfl⟩, rfl⟩ | ⟨_, ⟨letter, hm, rfl⟩, rfl⟩)
    · rfl
    · obtain ⟨c, hc⟩ := Option.isSome_iff_exists.1 hm
      simp [isCharacter, character?, hc]

end Symbols

end Zygo.Atom
