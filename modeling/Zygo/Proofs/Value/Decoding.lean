import Zygo.Proofs.Atom.Forms
import Zygo.Proofs.Number.Positional
import Zygo.Proofs.Value.Literals

/-!
# The values of tokens that have been read

The value of a token asks more of its payload than that it is a text: digits in a radix, a number with a point or an
exponent, a character. Reading leaves no other payloads, so nothing but the size of an integer can fail.

* `Double.read?_isSome`: floats have values.
* `Token.Readable.writes`: the payloads of integers are digits.
* `Token.value?_of_lex`: the value of a token of a text, by its kind.
-/

namespace Zygo

open Grammar Number

/-! ## Floats -/

namespace Double

variable {s : List Char}

theorem unsignedOrName?_isSome {negative : Bool} (h : (unsigned? negative s).isSome) :
    (unsignedOrName? negative s).isSome := by
  simp only [unsignedOrName?]
  split
  · rfl
  · split
    · rfl
    · exact h

/-- Digits with a point, and behind them an exponent that is read. -/
theorem unsigned?_pointed {rest : List Char} {e : Int} (negative : Bool) (hs : s ∈ Atom.pointed)
    (hrest : ∀ c ∈ rest.head?, c.isDigit = false) (he : exponent? rest = some e) :
    (unsigned? negative (s ++ rest)).isSome := by
  obtain ⟨whole, fraction, rfl, hw, hf, hne⟩ := Atom.mem_pointed.1 hs
  have hpoint : ∀ c ∈ ('.' :: (fraction ++ rest)).head?, c.isDigit = false := by simp
  have hwhole := Numeral.span_digits hw hpoint
  have hfraction := Numeral.span_digits hf hrest
  have hconcat : whole ++ fraction ≠ [] := by simpa [not_and_or, imp_iff_not_or] using hne
  have hnumber := natural?_digits hconcat fun c hc => (List.mem_append.1 hc).elim (hw c) (hf c)
  simp [unsigned?, hwhole, hfraction, hnumber, he]

/-- Digits without a point need an exponent. -/
theorem unsigned?_digits {mark : Char} {power : List Char} {e : Int} (negative : Bool) (hs : s ∈ Atom.digits)
    (hmark : mark == 'e' || mark == 'E') (he : exponent? (mark :: power) = some e) :
    (unsigned? negative (s ++ mark :: power)).isSome := by
  obtain ⟨hne, hdigits⟩ := Atom.isRun_iff.1 (Atom.mem_digits.1 hs)
  have hdigit : mark.isDigit = false ∧ mark ≠ '.' := by
    rcases Bool.or_eq_true_iff.1 hmark with h | h <;> (rw [beq_iff_eq] at h; subst h; decide)
  have hend : ∀ c ∈ (mark :: power).head?, c.isDigit = false := by simpa using hdigit.1
  have hwhole := Numeral.span_digits hdigits hend
  have hnumber := natural?_digits hne hdigits
  simp [unsigned?, hwhole, hdigit.2, hnumber, he]

theorem exponent?_isExponent {mark : Char} {power : List Char} (hmark : mark == 'e' || mark == 'E')
    (hp : Atom.isExponent power) : ∃ e, exponent? (mark :: power) = some e := by
  have hdigits : ∀ {digits}, Atom.isRun Char.isDigit digits → ∃ n, natural? 10 digits = some n := fun hrun =>
    ⟨_, natural?_digits (Atom.isRun_iff.1 hrun).1 (Atom.isRun_iff.1 hrun).2⟩
  have hmark : mark = 'e' ∨ mark = 'E' := by simpa using hmark
  rw [exponent?, if_pos hmark]
  unfold Atom.isExponent at hp
  split at hp
  · obtain ⟨n, hn⟩ := hdigits hp
    exact ⟨-n, by simp [integer?, hn]⟩
  · obtain ⟨n, hn⟩ := hdigits hp
    exact ⟨n, by simp [integer?, hn]⟩
  · obtain ⟨n, hn⟩ := hdigits hp
    obtain ⟨c, digits, rfl⟩ := List.exists_cons_of_ne_nil (Atom.isRun_iff.1 hp).1
    exact ⟨n, by simp [integer?_digit (Atom.isDigit_of_isRun hp List.mem_cons_self), hn]⟩

theorem unsigned?_isSome (negative : Bool) (h : s ∈ Atom.unsignedFloat) : (unsigned? negative s).isSome := by
  rcases Atom.mem_unsignedFloat.1 h with hm | ⟨mantissa, mark, power, hm, hmark, hp, rfl⟩
  · have hend : ∀ c ∈ ([] : List Char).head?, c.isDigit = false := by simp
    simpa using unsigned?_pointed negative hm hend rfl
  · obtain ⟨e, he⟩ := exponent?_isExponent hmark hp
    rcases hm with hm | hm
    · have hend : ∀ c ∈ (mark :: power).head?, c.isDigit = false := by
        rcases Bool.or_eq_true_iff.1 hmark with h | h <;> (rw [beq_iff_eq] at h; subst h; simp)
      exact unsigned?_pointed negative hm hend he
    · exact unsigned?_digits negative hm hmark he

/-- **Every float has a value**: there is a number in front of its exponent, and one in the exponent. -/
theorem read?_isSome {text : String} (h : text.toList ∈ Atom.language .float) : ∃ x, read? text = some x := by
  have hbody := Atom.mem_float.1 h
  rw [← Option.isSome_iff_exists]
  unfold read?
  split
  · rename_i s hs
    rw [hs] at hbody
    exact unsignedOrName?_isSome (unsigned?_isSome true hbody)
  · rename_i s hs
    rw [hs] at hbody
    rcases Atom.head?_unsignedFloat hbody rfl with hd | hd <;> cases hd
  · rename_i hminus _
    have hplain : Atom.dropMinus text.toList = text.toList := by
      unfold Atom.dropMinus
      split
      · rename_i hs
        exact absurd hs (hminus _)
      · rfl
    exact unsignedOrName?_isSome (unsigned?_isSome false (hplain ▸ hbody))

end Double

/-! ## Integers -/

/-- The radix of integers of a kind, and the kind's name in errors. -/
def TokenKind.radix? : TokenKind → Option (Nat × LiteralKind)
  | .decimal => some (10, .decimal)
  | .hex => some (16, .hex)
  | .oct => some (8, .octal)
  | .binary => some (2, .binary)
  | _ => none

section Digits

variable {c : Char} {s : List Char}

theorem Atom.toNat_lt_of_isHexDigit (h : Atom.isHexDigit c) : c.toNat < 128 := by
  have h9 : '9'.val.toNat = 57 := rfl
  have hf : 'f'.val.toNat = 102 := rfl
  have hF : 'F'.val.toNat = 70 := rfl
  simp only [Atom.isHexDigit, Char.isDigit, Bool.or_eq_true, Bool.and_eq_true, decide_eq_true_eq, Char.le_def,
    UInt32.le_iff_toNat_le] at h
  change c.val.toNat < 128
  rcases h with (⟨-, h⟩ | ⟨-, h⟩) | ⟨-, h⟩
  · change c.val.toNat ≤ 57 at h
    omega
  · omega
  · omega

theorem Atom.isHexDigit_of_isOctDigit (h : Atom.isOctDigit c) : Atom.isHexDigit c := by
  simp only [Atom.isOctDigit, Atom.isHexDigit, Char.isDigit, Bool.or_eq_true, Bool.and_eq_true,
    decide_eq_true_eq] at h ⊢
  exact .inl (.inl ⟨h.1, Char.le_trans h.2 (by decide)⟩)

theorem Atom.isHexDigit_of_isBinaryDigit (h : Atom.isBinaryDigit c) : Atom.isHexDigit c := by
  rcases (Bool.or_eq_true_iff.1 h).imp beq_iff_eq.1 beq_iff_eq.1 with rfl | rfl <;> decide

/-- A test of characters that passes no digit from `radix` on leaves digits of the radix. It is enough to look at the
characters among which all digits are. -/
theorem isDigits_of_isRun {p : Char → Bool} {radix : Nat} (hhex : ∀ {c}, p c → Atom.isHexDigit c)
    (htable : ∀ k < 128, p (Char.ofNat k) → digit (Char.ofNat k) < radix) (hs : Atom.isRun p s) :
    IsDigits radix s := by
  obtain ⟨hne, hall⟩ := Atom.isRun_iff.1 hs
  refine ⟨hne, fun c hc => ?_⟩
  have hlt := htable c.toNat (Atom.toNat_lt_of_isHexDigit (hhex (hall c hc)))
  rw [Char.ofNat_toNat] at hlt
  exact hlt (hall c hc)

end Digits

namespace Token

variable {t : Token} {symbols : SymbolTable}

theorem Readable.mem_language (ht : t.Readable) (hk : t.kind.isLiteral) (hs : t.kind ≠ .string)
    (hr : t.kind ≠ .rawString) : t.spelling.toList ∈ Atom.language t.kind :=
  Atom.mem_language_of_classify (ht.isAtom hk hs hr).2

/-- A text behind the letter of its radix. -/
theorem isRun_of_mem {p : Char → Bool} {start text : String}
    (h : (start ++ text).toList ∈ Atom.exactly start * Atom.oneOrMore (Atom.oneOf p)) : Atom.isRun p text.toList := by
  obtain ⟨digits, hdigits, heq⟩ := Atom.mem_exactly_mul.1 h
  rw [String.toList_append, List.append_cancel_left_eq] at heq
  exact Atom.mem_oneOrMore_oneOf.1 (heq ▸ hdigits)

/-- **The payload of an integer is digits in its radix**, behind a minus sign or not. -/
theorem Readable.writes (ht : t.Readable) {radix : Nat} {kind : LiteralKind} (hk : t.kind.radix? = some (radix, kind)) :
    ∃ n, Writes radix t.text.toList n := by
  obtain ⟨k, text⟩ := t
  cases k with
  | decimal =>
    cases hk
    have hmem : text.toList ∈ Atom.language .decimal := ht.mem_language rfl (by simp) (by simp)
    have hrun : Atom.isRun Char.isDigit (Atom.dropMinus text.toList) := Atom.isDecimal_iff.2 hmem
    have hdigits : IsDigits 10 (Atom.dropMinus text.toList) :=
      isDigits_of_isRun (fun h => by simp [Atom.isHexDigit, h]) (by decide +kernel) hrun
    rcases Atom.eq_dropMinus text.toList with heq | heq
    · exact ⟨_, .digits (heq ▸ hdigits)⟩
    · exact ⟨-numberOf 10 (Atom.dropMinus text.toList), by rw [heq]; exact .minus rfl hdigits⟩
  | hex =>
    cases hk
    exact ⟨_, .digits (isDigits_of_isRun id (by decide +kernel)
      (isRun_of_mem (ht.mem_language rfl (by simp) (by simp))))⟩
  | oct =>
    cases hk
    exact ⟨_, .digits (isDigits_of_isRun Atom.isHexDigit_of_isOctDigit (by decide +kernel)
      (isRun_of_mem (ht.mem_language rfl (by simp) (by simp))))⟩
  | binary =>
    cases hk
    exact ⟨_, .digits (isDigits_of_isRun Atom.isHexDigit_of_isBinaryDigit (by decide +kernel)
      (isRun_of_mem (ht.mem_language rfl (by simp) (by simp))))⟩
  | _ => cases hk

theorem value?_of_radix? {radix : Nat} {kind : LiteralKind} (hk : t.kind.radix? = some (radix, kind)) :
    t.value? symbols = (integer radix kind t.text).map fun v => (some v, symbols) := by
  obtain ⟨k, text⟩ := t
  have hmap : ∀ r : Except RuntimeError Value,
      ((r.map some).map fun v => (v, symbols)) = r.map fun v => (some v, symbols) := by
    rintro (e | v) <;> rfl
  cases k with
  | decimal | hex | oct | binary =>
    cases hk
    exact hmap _
  | _ => cases hk

theorem radix?_le {radix : Nat} {kind : LiteralKind} (hk : t.kind.radix? = some (radix, kind)) : radix ≤ 16 := by
  unfold TokenKind.radix? at hk
  split at hk <;> cases hk <;> decide

theorem Readable.value?_integer (ht : t.Readable) {radix : Nat} {kind : LiteralKind}
    (hk : t.kind.radix? = some (radix, kind)) (symbols : SymbolTable) :
    ∃ n, (∀ m, Writes radix t.text.toList m ↔ m = n) ∧
      (-2 ^ 63 ≤ n ∧ n ≤ 2 ^ 63 - 1 → ∃ i : Int64, i.toInt = n ∧ t.value? symbols = .ok (some (.int i), symbols)) ∧
      (¬(-2 ^ 63 ≤ n ∧ n ≤ 2 ^ 63 - 1) → t.value? symbols = .error (.invalidLiteral kind t.text)) := by
  have hr := radix?_le hk
  obtain ⟨n, hn⟩ := ht.writes hk
  obtain ⟨hin, hout⟩ := hn.readInt64? hr
  refine ⟨n, fun m => ⟨fun hm => hm.unique hr hn, fun hm => hm ▸ hn⟩, fun hrange => ?_, fun hrange => ?_⟩
  · obtain ⟨i, hi, hread⟩ := hin hrange
    refine ⟨i, hi, ?_⟩
    rw [value?_of_radix? hk, integer, hread]
    rfl
  · rw [value?_of_radix? hk, integer, hout hrange]
    rfl

/-! ## All kinds -/

theorem value?_of_not_isLiteral (hk : ¬(t.kind.isLiteral ∨ t.kind = .symbol ∨ t.kind = .dotSymbol)) :
    t.value? symbols = .ok (none, symbols) := by
  obtain ⟨k, text⟩ := t
  cases k <;> first | rfl | exact absurd (by simp [TokenKind.isLiteral]) hk

/-- Literals but integers, and symbols, have values of any payloads that can be read. -/
theorem Readable.exists_value? (ht : t.Readable) (hk : t.kind.isLiteral ∨ t.kind = .symbol ∨ t.kind = .dotSymbol)
    (hradix : t.kind.radix? = none) (symbols : SymbolTable) : ∃ v table, t.value? symbols = .ok (some v, table) := by
  obtain ⟨k, text⟩ := t
  cases k with
  | bool | string | rawString | symbol | dotSymbol => exact ⟨_, _, rfl⟩
  | float =>
    have hmem : text.toList ∈ Atom.language .float := ht.mem_language rfl (by simp) (by simp)
    obtain ⟨x, hx⟩ := Double.read?_isSome hmem
    exact ⟨.float x, symbols, by simp only [value?, constant?, hx, Except.map]⟩
  | char =>
    obtain ⟨-, hc⟩ := ht.isAtom rfl (by simp) (by simp)
    obtain ⟨c, heq, -⟩ := (Atom.classify_denotes hc).character? rfl
    obtain rfl : text = c.toString := (Token.mk.inj heq).2
    exact ⟨.char c, symbols, by simp [value?, constant?, Except.map]⟩
  | decimal | hex | oct | binary => cases hradix
  | _ => simp [TokenKind.isLiteral] at hk

/-- **The value of a token that has been read.** Tokens that are neither literals nor symbols have none. An integer
has the value that its digits write if that has 64 bits, and is refused otherwise. All others have a value. -/
theorem value?_of_lex {source : String} {ts : List Token} (hlex : lex source = .ok ts) (ht : t ∈ ts)
    (symbols : SymbolTable) :
    ((t.value? symbols).map Prod.fst = .ok none ↔ ¬(t.kind.isLiteral ∨ t.kind = .symbol ∨ t.kind = .dotSymbol)) ∧
    (∀ radix kind, t.kind.radix? = some (radix, kind) → ∃ n, (∀ m, Writes radix t.text.toList m ↔ m = n) ∧
      (-2 ^ 63 ≤ n ∧ n ≤ 2 ^ 63 - 1 → ∃ i : Int64, i.toInt = n ∧ t.value? symbols = .ok (some (.int i), symbols)) ∧
      (¬(-2 ^ 63 ≤ n ∧ n ≤ 2 ^ 63 - 1) → t.value? symbols = .error (.invalidLiteral kind t.text))) ∧
    (t.kind.isLiteral ∨ t.kind = .symbol ∨ t.kind = .dotSymbol → t.kind.radix? = none →
      ∃ v table, t.value? symbols = .ok (some v, table)) := by
  have hreadable : t.Readable := readable_of_read (lex_ok_iff.1 hlex) ht
  refine ⟨⟨fun hnone hk => ?_, fun hk => ?_⟩, fun radix kind hradix => hreadable.value?_integer hradix symbols,
    fun hk hradix => hreadable.exists_value? hk hradix symbols⟩
  · cases hradix : t.kind.radix? with
    | none =>
      obtain ⟨v, table, hv⟩ := hreadable.exists_value? hk hradix symbols
      rw [hv] at hnone
      cases hnone
    | some radix =>
      rw [value?_of_radix? hradix] at hnone
      cases hi : integer radix.1 radix.2 t.text <;> (rw [hi] at hnone; cases hnone)
  · rw [value?_of_not_isLiteral hk]
    rfl

/-- The least integer of 64 bits, the one behind the greatest, a float and a bracket. -/
theorem value?_of_lex_limits :
    lex "-9223372036854775808 0x8000000000000000 (.5e9" = .ok
      [⟨.decimal, "-9223372036854775808"⟩, ⟨.hex, "8000000000000000"⟩, .bare .lparen, ⟨.float, ".5e9"⟩] ∧
    (∃ i : Int64, i.toInt = -2 ^ 63 ∧
      value? ⟨.decimal, "-9223372036854775808"⟩ .initial = .ok (some (.int i), .initial)) ∧
    value? ⟨.hex, "8000000000000000"⟩ .initial = .error (.invalidLiteral .hex "8000000000000000") ∧
    (value? (.bare .lparen) .initial).map Prod.fst = .ok none ∧
    ∃ v table, value? ⟨.float, ".5e9"⟩ .initial = .ok (some v, table) := by
  have hlex : lex "-9223372036854775808 0x8000000000000000 (.5e9" = .ok
      [⟨.decimal, "-9223372036854775808"⟩, ⟨.hex, "8000000000000000"⟩, .bare .lparen, ⟨.float, ".5e9"⟩] := rfl
  refine ⟨hlex, ?_, ?_, ?_, ?_⟩
  · obtain ⟨n, hn, hin, -⟩ := (value?_of_lex hlex List.mem_cons_self .initial).2.1 10 .decimal rfl
    have hwrites : Writes 10 "-9223372036854775808".toList (-2 ^ 63) := .minus rfl (by decide)
    obtain rfl := (hn _).1 hwrites
    exact hin (by decide)
  · obtain ⟨n, hn, -, hout⟩ :=
      (value?_of_lex hlex (List.mem_cons_of_mem _ List.mem_cons_self) .initial).2.1 16 .hex rfl
    have hwrites : Writes 16 "8000000000000000".toList (2 ^ 63) := .digits (by decide)
    obtain rfl := (hn _).1 hwrites
    exact hout (by decide)
  · exact (value?_of_lex hlex (by decide) .initial).1.2 (by decide)
  · exact (value?_of_lex hlex (by decide) .initial).2.2 (by decide) rfl

end Token

end Zygo
