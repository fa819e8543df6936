import Zygo.Proofs.Number.Shortest
import Zygo.Proofs.Value.Tokens

/-!
# Literals read back from their values

The value of a literal that has been read is rendered as one token. Floats apart, the value is a leaf and its token
gives back an equal value. A finite float is rendered as a float with the same bits. A decimal that is too great is
read as an infinity, though, whose text is a symbol: of the values of literals, the infinities alone do not read back.

* `Double.readable_render`: the text of a finite double is a float token.
* `Token.Readable.constant?_cases`: what the value of a literal can be.
* `Token.relex_value`: the token of a literal's value has an equal value, unless the value is an infinity.
-/

namespace Zygo

open Grammar Number

/-! ## Floats -/

namespace Numeral

variable {t : Numeral}

/-- A point among digits makes a mantissa. -/
theorem isPointed_mantissa {f : List Char} (hf : t.fraction? = some f) : Atom.isPointed (t.whole ++ t.pointText) := by
  have hpoint : t.pointText = '.' :: f := by rw [pointText, hf]
  have hwhole : ∀ c ∈ t.whole, (c == '.') = false := fun c hc => by
    rw [beq_eq_false_iff_ne]
    rintro rfl
    cases isDigit_whole hc
  have hdigits : ∀ c ∈ f, c.isDigit := fun c hc => isDigit_fraction (t := t) (by rwa [fraction, hf])
  rw [Atom.isPointed, hpoint, Atom.splitFirst?_append hwhole rfl]
  simp only [Bool.and_eq_true, List.all_eq_true]
  exact ⟨⟨fun c => isDigit_whole, hdigits⟩, by simp [t.nonempty]⟩

theorem isRun_mantissa (hf : t.fraction? = none) : Atom.isRun Char.isDigit (t.whole ++ t.pointText) := by
  have hpoint : t.pointText = [] := by rw [pointText, hf]
  simp only [hpoint, List.append_nil, Atom.isRun, Bool.and_eq_true, List.all_eq_true]
  exact ⟨by simp [t.nonempty], fun c => isDigit_whole⟩

theorem isExponent_toString (e : Int) : Atom.isExponent (toString e).toList := by
  have hrun := Value.isRun_toDigits e.natAbs
  rw [toList_toString]
  split
  · unfold Atom.isExponent
    split
    · rename_i heq
      exact absurd (isDigit_toDigits e.natAbs '-' (by simp [heq])) (by decide)
    · rename_i heq
      exact absurd (isDigit_toDigits e.natAbs '+' (by simp [heq])) (by decide)
    · exact hrun
  · exact hrun

/-- A numeral is split at the letter of its exponent. -/
theorem splitFirst?_text (t : Numeral) : Atom.splitFirst? (fun c => c == 'e' || c == 'E') t.text =
    t.exponent?.map fun e => (t.whole ++ t.pointText, (toString e).toList) := by
  have hmantissa : ∀ c ∈ t.whole ++ t.pointText, (c == 'e' || c == 'E') = false := by
    intro c hc
    rw [Bool.or_eq_false_iff, beq_eq_false_iff_ne, beq_eq_false_iff_ne]
    constructor <;> rintro rfl <;> rcases mem_mantissa hc with hc | hc <;> cases hc
  cases he : t.exponent? with
  | some e =>
    have htext : t.text = (t.whole ++ t.pointText) ++ 'e' :: (toString e).toList := by
      rw [text, exponentText, he, List.append_assoc]
    rw [htext, Atom.splitFirst?_append hmantissa rfl]
    rfl
  | none =>
    have htext : t.text = t.whole ++ t.pointText := by rw [text, exponentText, he, List.append_nil]
    rw [htext, Atom.splitFirst?_eq_none hmantissa]
    rfl

/-- A numeral is a float, with a minus sign as well as without. -/
theorem isFloat_text {s : List Char} (hs : Atom.dropMinus s = t.text) : Atom.isFloat s := by
  rw [Atom.isFloat, hs, splitFirst?_text]
  cases he : t.exponent? with
  | some e =>
    simp only [Option.map_some, isExponent_toString, Bool.and_true, Bool.or_eq_true]
    cases hf : t.fraction? with
    | some f => exact .inl (isPointed_mantissa hf)
    | none => exact .inr (isRun_mantissa hf)
  | none =>
    have htext : t.text = t.whole ++ t.pointText := by rw [text, exponentText, he, List.append_nil]
    obtain ⟨f, hf⟩ := Option.isSome_iff_exists.1 (t.marked.resolve_right (by simp [he]))
    simpa only [Option.map_none, htext] using isPointed_mantissa hf

end Numeral

namespace Double

variable {x : Double}

theorem isFloat_render (hx : x.Finite) : Atom.isFloat x.render.toList := by
  obtain ⟨t, htext, -⟩ := render_numeral hx
  rw [htext, String.toList_ofList]
  split
  · exact Numeral.isFloat_text rfl
  · obtain ⟨c, s, hs, hc⟩ := t.exists_text
    exact Numeral.isFloat_text (by rw [hs, Atom.dropMinus_of_isDigit hc])

/-- **The text of a finite double is a float token.** -/
theorem readable_render (hx : x.Finite) : Token.Readable ⟨.float, x.render⟩ := by
  have hfloat := isFloat_render hx
  refine .atom ⟨?_, fun c hc => ?_⟩ (Atom.classify_float hfloat)
  · intro hnil
    rw [show Token.spelling ⟨.float, x.render⟩ = x.render from rfl] at hnil
    rw [hnil] at hfloat
    cases hfloat
  · rcases Atom.isFloat_mem hfloat hc with hc | hc
    · exact Value.isWordChar_of_isDigit hc
    · simp only [List.mem_cons, List.not_mem_nil, or_false] at hc
      rcases hc with rfl | rfl | rfl | rfl | rfl <;> decide

/-- An infinity is written by its name. -/
theorem render_infinite (hx : x.isInfinite) : x.render = if x.isNegative then "-inf" else "inf" := by
  have hnan : x.isNaN = false := by
    simp only [isInfinite, beq_iff_eq] at hx
    simp [isNaN, hx]
  simp only [render, hnan, hx, if_true, Bool.false_eq_true, if_false]
  split <;> rfl

end Double

namespace Token

/-- A readable token reads back on its own. -/
theorem Readable.lex_spelling {t : Token} (h : t.Readable) : lex t.spelling = .ok [t] := by
  have hall : ∀ u ∈ [t], u.Readable := by simpa using h
  exact lex_ok_iff.2 (by simpa using read_spellings hall)

end Token

namespace Value

/-- Whether a value is an infinity of either sign. -/
def isInfinite : Value → Bool
  | float x => x.isInfinite
  | _ => false

/-- A value without parts is displayed as it is spelled. -/
theorem display_of_spell? {v : Value} {text : String} (h : v.spell? = some text) (store : Store) :
    store.display v = text := by
  have hwrite : ∀ object, v.writeWith object "" false = some text := by
    intro object
    cases v with
    | sentinel s => cases s <;> simpa [writeWith, writeText, openTail, closeTail, spell?] using h
    | pair | array | function | record | package => cases h
    | _ => simp [writeWith, writeText, openTail, closeTail, h]
  simp [Store.display, Store.render?, renderWith, hwrite]

/-- The token of a leaf that is no symbol is a literal. -/
theorem Leaf.isLiteral_token {v : Value} (h : v.Leaf) (hs : ∀ s, v ≠ .symbol s) : v.token.kind.isLiteral := by
  cases h with
  | symbol => exact absurd rfl (hs _)
  | int | bool | text | rawText | char => rfl

theorem Leaf.isInfinite {v : Value} (h : v.Leaf) : v.isInfinite = false := by
  cases h <;> rfl

end Value

namespace Token

/-! ## Values of literals -/

variable {t : Token} {v : Value}

theorem integer_eq_ok {radix : Nat} {kind : LiteralKind} {text : String} (h : integer radix kind text = .ok v) :
    ∃ n, v = .int n := by
  unfold integer at h
  split at h <;> cases h
  exact ⟨_, rfl⟩

/-- A literal between no quotes is an atom. -/
theorem Readable.isAtom (ht : t.Readable) (hk : t.kind.isLiteral) (hs : t.kind ≠ .string) (hr : t.kind ≠ .rawString) :
    IsWord t.spelling.toList ∧ Atom.classify t.spelling = .ok t := by
  cases ht with
  | @mark kind hm => cases kind <;> first | cases hm; done | cases hk
  | dollar | freshAssign => cases hk
  | string => exact absurd rfl hs
  | rawString => exact absurd rfl hr
  | atom hw hc => exact ⟨hw, hc⟩

theorem Readable.isFloat_text (ht : t.Readable) (hk : t.kind = .float) : Atom.isFloat t.text.toList := by
  have hspell : t.spelling = t.text := by simp only [spelling, hk]
  obtain ⟨-, hc⟩ := ht.isAtom (by rw [hk]; rfl) (by simp [hk]) (by simp [hk])
  exact hspell ▸ Atom.isFloat_of_classify hc hk

theorem Readable.backtick_notMem (ht : t.Readable) (hk : t.kind = .rawString) : '`' ∉ t.text.toList := by
  cases ht with
  | mark hm => subst hk; cases hm
  | dollar | freshAssign | string => cases hk
  | rawString htext => exact htext
  | atom hw hc => exact absurd hk (Atom.classify_denotes hc).kind_ne_rawString

/-- A character literal that has been read is a character of atoms, or an escape stands for it. -/
theorem Readable.char_writable (ht : t.Readable) (hk : t.kind = .char) {c : Char} {rest : List Char}
    (htext : t.text.toList = c :: rest) : c ∉ Value.unwritable := by
  obtain ⟨hw, hc⟩ := ht.isAtom (by rw [hk]; rfl) (by simp [hk]) (by simp [hk])
  obtain ⟨d, rfl, hchar⟩ := (Atom.classify_denotes hc).character? hk
  obtain ⟨rfl, -⟩ : d = c ∧ [] = rest := by simpa using htext
  rcases character?_word hw hchar with hword | hescape
  · have hspecial : Value.unwritable.all special.contains := by decide
    intro hm
    have hd := List.all_eq_true.1 hspecial d hm
    rw [isWordChar, hd] at hword
    cases hword
  · have hplain : ['\n', '\r', '\t'].all (fun d => !Value.unwritable.contains d) := by decide
    simpa using List.all_eq_true.1 hplain d hescape

/-- The value of a literal that has been read is a leaf and no symbol, or a number that is no NaN. -/
theorem Readable.constant?_cases (ht : t.Readable) (h : t.constant? = .ok (some v)) :
    (v.Leaf ∧ ∀ s, v ≠ .symbol s) ∨ ∃ x, v = .float x ∧ x.isNaN = false := by
  have hint : ∀ {radix : Nat} {kind : LiteralKind}, (integer radix kind t.text).map some = .ok (some v) →
      v.Leaf ∧ ∀ s, v ≠ .symbol s := by
    intro radix kind h
    cases hi : integer radix kind t.text with
    | error e => rw [hi] at h; cases h
    | ok w =>
      obtain ⟨n, rfl⟩ := integer_eq_ok hi
      rw [hi] at h
      cases h
      exact ⟨.int n, nofun⟩
  unfold constant? at h
  split at h
  case h_1 => cases h; exact .inl ⟨.bool _, nofun⟩
  case h_2 | h_3 | h_4 | h_5 => exact .inl (hint h)
  case h_6 hk =>
    split at h <;> cases h
    rename_i x hx
    have hname : ∀ c ∈ t.text.toList, c.toLower ≠ 'n' := fun c hc =>
      Double.toLower_ne (Atom.isFloat_mem (ht.isFloat_text hk) hc)
    exact .inr ⟨x, rfl, Double.not_isNaN_of_read? hname hx⟩
  case h_7 hk =>
    split at h <;> cases h
    rename_i htext
    exact .inl ⟨.char (ht.char_writable hk htext), nofun⟩
  case h_8 => cases h; exact .inl ⟨.text _, nofun⟩
  case h_9 hk => cases h; exact .inl ⟨.rawText (ht.backtick_notMem hk), nofun⟩
  case h_10 => cases h

/-! ## Reading back -/

/-- The value of a literal depends on nothing but the literal. -/
theorem value?_of_isLiteral (hk : t.kind.isLiteral) (table : SymbolTable) :
    t.value? table = t.constant?.map fun v => (v, table) := by
  unfold value?
  split
  · rename_i h; rw [h] at hk; cases hk
  · rename_i h; rw [h] at hk; cases hk
  · rfl

/-- The token of a finite float gives the float back. -/
theorem relex_finite {x : Double} (hx : x.Finite) (store : Store) :
    lex (store.display (.float x)) = .ok [⟨.float, x.render⟩] ∧
      ∀ table, value? ⟨.float, x.render⟩ table = .ok (some (.float x), table) := by
  refine ⟨?_, fun table => ?_⟩
  · rw [Value.display_of_spell? rfl]
    exact (Double.readable_render hx).lex_spelling
  · simp only [value?, constant?, Double.read?_render hx, Except.map]

/-- The text of an infinity is a symbol. -/
theorem relex_infinite {x : Double} (hx : x.isInfinite) (store : Store) :
    lex (store.display (.float x)) = .ok [⟨.symbol, x.render⟩] := by
  rw [Value.display_of_spell? rfl, Double.render_infinite hx]
  split <;> rfl

/-- **The text of a literal's value is one token. Its value equals the value of the literal, unless that is an infinity:
then it is a symbol, which equals no float.** -/
theorem relex_value {source : String} {ts : List Token} {symbols symbols' : SymbolTable} (hlex : lex source = .ok ts)
    (ht : t ∈ ts) (hk : t.kind.isLiteral) (hv : t.value? symbols = .ok (some v, symbols')) (store : Store) :
    ∃ u, lex (store.display v) = .ok [u] ∧
      (v.isInfinite = false → u.kind.isLiteral ∧ ∀ table, ∃ w, u.value? table = .ok (some w, table) ∧ w.equal v) ∧
      (v.isInfinite → u.kind = .symbol ∧
        ∀ table, ∃ w table', u.value? table = .ok (some w, table') ∧ w.equal v = false) := by
  have hreadable : t.Readable := readable_of_read (lex_ok_iff.1 hlex) ht
  have hconstant : t.constant? = .ok (some v) := by
    rw [value?_of_isLiteral hk] at hv
    cases hc : t.constant? with
    | error e => rw [hc] at hv; cases hv
    | ok v? => rw [hc] at hv; cases hv; rfl
  rcases hreadable.constant?_cases hconstant with ⟨hleaf, hsymbol⟩ | ⟨x, rfl, hnan⟩
  · refine ⟨v.token, ?_, fun _ => ⟨hleaf.isLiteral_token hsymbol, fun table => ?_⟩, fun hinf => ?_⟩
    · rw [Value.display_of_spell? hleaf.spell?]
      exact hleaf.readable.lex_spelling
    · exact hleaf.value? fun s hs => absurd hs (hsymbol s)
    · cases hleaf.isInfinite.symm.trans hinf
  · cases hinf : x.isInfinite with
    | true =>
      refine ⟨_, relex_infinite hinf store, fun hfin => ?_, fun _ => ⟨rfl, fun table => ⟨_, _, rfl, rfl⟩⟩⟩
      cases hinf.symm.trans hfin
    | false =>
      have hx : x.Finite := by
        simp only [Double.isNaN, Double.isInfinite, decide_eq_false_iff_not, beq_eq_false_iff_ne] at hnan hinf
        exact Nat.lt_of_le_of_ne (Nat.not_lt.1 hnan) hinf
      obtain ⟨hlex, hvalue⟩ := relex_finite hx store
      refine ⟨_, hlex, fun _ => ⟨rfl, fun table => ⟨_, hvalue table, ?_⟩⟩, fun hfin => ?_⟩
      · simp [Value.equal, Double.equal, hnan]
      · cases hinf.symm.trans hfin

/-- A finite number, and one that is too great. -/
theorem relex_value_floats :
    lex "-0.10 1e999" = .ok [⟨.float, "-0.10"⟩, ⟨.float, "1e999"⟩] ∧
      value? ⟨.float, "-0.10"⟩ .initial = .ok (some (.float ⟨0xBFB999999999999A⟩), .initial) ∧
      value? ⟨.float, "1e999"⟩ .initial = .ok (some (.float (.infinity false)), .initial) ∧
      (∃ u, lex (Store.display {} (.float ⟨0xBFB999999999999A⟩)) = .ok [u] ∧
        ∀ table, ∃ w, u.value? table = .ok (some w, table) ∧ w.equal (.float ⟨0xBFB999999999999A⟩)) ∧
      ∃ u, lex (Store.display {} (.float (.infinity false))) = .ok [u] ∧ u.kind = .symbol := by
  have hlex : lex "-0.10 1e999" = .ok [⟨.float, "-0.10"⟩, ⟨.float, "1e999"⟩] := rfl
  have hfinite : value? ⟨.float, "-0.10"⟩ .initial = .ok (some (.float ⟨0xBFB999999999999A⟩), .initial) := rfl
  have hgreat : value? ⟨.float, "1e999"⟩ .initial = .ok (some (.float (.infinity false)), .initial) := rfl
  obtain ⟨u, hu, hsame, -⟩ := relex_value hlex (by decide) rfl hfinite {}
  obtain ⟨i, hi, -, hsymbol⟩ := relex_value hlex (by decide) rfl hgreat {}
  exact ⟨hlex, hfinite, hgreat, ⟨u, hu, (hsame rfl).2⟩, i, hi, (hsymbol rfl).1⟩

/-- A literal that does not read back: it is read as an infinity, whose text is a symbol. -/
theorem not_relex_infinity :
    lex "1e999" = .ok [⟨.float, "1e999"⟩] ∧
      value? ⟨.float, "1e999"⟩ .initial = .ok (some (.float (.infinity false)), .initial) ∧
      ¬∃ u w table, lex (Store.display {} (.float (.infinity false))) = .ok [u] ∧
        u.value? .initial = .ok (some w, table) ∧ w.equal (.float (.infinity false)) := by
  refine ⟨rfl, rfl, ?_⟩
  rintro ⟨u, w, table, hu, hw, heq⟩
  rw [relex_infinite rfl] at hu
  cases hu
  cases hw
  cases heq

end Token

end Zygo
