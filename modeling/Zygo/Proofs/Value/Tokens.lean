import Zygo.Proofs.Lexer.Spelling
import Zygo.Proofs.Number.Decimal
import Zygo.Proofs.Symbol
import Zygo.Store.Render
import Zygo.Value.Equality
import Zygo.Value.Literal

/-!
# Data read back from its text

Lists and arrays of literals and symbols are rendered as source text: the text has the tokens that the structure of
the value calls for, and the token of a leaf has the leaf as its value. A list is written from cell to cell, so the
induction keeps two texts of every value in view, the one of the value and the one that ends a list with the value.

* `Value.tokens_pair`, `Value.tokens_array`: the tokens of a list, from its chain of cells, and of an array.
* `Value.Data.lex_display`: the text of data is lexed to its tokens, which give back the leaves.
-/

namespace Zygo

namespace Value

/-! ## Data and its tokens -/

/-- The characters that end an atom and have no escape, so that no literal holds them. -/
def unwritable : List Char :=
  ['`', '"', ';', ':', '$', '\'', '^', '~', '(', ')', '[', ']', '{', '}', ',', ' ']

/-- Values without parts whose text is one token. -/
inductive Leaf : Value → Prop
  | int (n : Int64) : Leaf (int n)
  | bool (b : Bool) : Leaf (bool b)
  | text (s : String) : Leaf (text s false)
  | rawText {s : String} : '`' ∉ s.toList → Leaf (text s true)
  | symbol {s : Symbol} {kind : TokenKind} : kind = .symbol ∨ kind = .dotSymbol →
      lex s.name = .ok [⟨kind, s.name⟩] → Leaf (symbol s)
  | char {c : Char} : c ∉ unwritable → Leaf (char c)

/-- Lists, proper or not, and arrays of leaves and empty lists, to any depth. -/
inductive Data : Value → Prop
  | leaf {v : Value} : v.Leaf → Data v
  | null : Data null
  | pair {cell : Nat} {head tail : Value} : Data head → Data tail → Data (pair cell head tail)
  | array {items : List Value} : (∀ v ∈ items, Data v) → Data (array items)

/-- The token of a value without parts. -/
def token : Value → Token
  | int n => ⟨.decimal, toString n.toInt⟩
  | bool b => ⟨.bool, toString b⟩
  | char c => ⟨.char, c.toString⟩
  | symbol s => ⟨Atom.symbolKind s.name.toList, s.name⟩
  | text s raw => ⟨if raw then .rawString else .string, s⟩
  | _ => ⟨.symbol, Sentinel.null.spelling⟩

mutual

/-- The tokens of a value. -/
def tokens : Value → List Token
  | pair _ head tail => .bare .lparen :: (head.tokens ++ tail.restTokens)
  | array items => .bare .lsquare :: (itemTokens items ++ [.bare .rsquare])
  | v => [v.token]

/-- The tokens of the rest of a list, from its tail on. -/
def restTokens : Value → List Token
  | pair _ head tail => head.tokens ++ tail.restTokens
  | sentinel .null => [.bare .rparen]
  | array items => .bare .backslash :: .bare .lsquare :: (itemTokens items ++ [.bare .rsquare, .bare .rparen])
  | v => [.bare .backslash, v.token, .bare .rparen]

/-- The tokens of values, one after the other. -/
def itemTokens : List Value → List Token
  | [] => []
  | v :: vs => v.tokens ++ itemTokens vs

end

mutual

/-- The values without parts that a value is made of, empty lists left out. -/
def leaves : Value → List Value
  | pair _ head tail => head.leaves ++ tail.leaves
  | array items => itemLeaves items
  | sentinel .null => []
  | v => [v]

/-- The leaves of values. -/
def itemLeaves : List Value → List Value
  | [] => []
  | v :: vs => v.leaves ++ itemLeaves vs

end

variable {v : Value}

theorem itemTokens_eq (vs : List Value) : itemTokens vs = vs.flatMap tokens := by
  induction vs with
  | nil => rfl
  | cons v vs ih => rw [itemTokens, ih, List.flatMap_cons]

theorem itemLeaves_eq (vs : List Value) : itemLeaves vs = vs.flatMap leaves := by
  induction vs with
  | nil => rfl
  | cons v vs ih => rw [itemLeaves, ih, List.flatMap_cons]

theorem tokens_array (items : List Value) :
    (array items).tokens = .bare .lsquare :: (items.flatMap tokens ++ [.bare .rsquare]) := by
  rw [tokens, itemTokens_eq]

/-- The tokens of the end of a chain of cells: nothing shows an empty list. -/
def endTokens (v : Value) : List Token :=
  if v.isNull then [] else .bare .backslash :: v.tokens

theorem restTokens_eq : ∀ v : Value, v.restTokens = v.chain.1.flatMap tokens ++ (v.chain.2.endTokens ++ [.bare .rparen])
  | pair _ head tail => by
    rw [restTokens, restTokens_eq tail, chain, List.flatMap_cons, List.append_assoc]
  | array items => by simp [restTokens, chain, endTokens, isNull, tokens]
  | sentinel s => by cases s <;> simp [restTokens, chain, endTokens, isNull, tokens]
  | int _ | float _ | bool _ | char _ | symbol _ | text .. | bytes .. | function _ | record _ | package _ | error _
  | host _ | type _ => by simp [restTokens, chain, endTokens, isNull, tokens]

/-- The tokens of a list: those of its elements, and of its end unless that is an empty list, in parentheses. -/
theorem tokens_pair (cell : Nat) (head tail : Value) :
    (pair cell head tail).tokens =
      .bare .lparen :: ((head :: tail.chain.1).flatMap tokens ++ (tail.chain.2.endTokens ++ [.bare .rparen])) := by
  rw [tokens, restTokens_eq, List.flatMap_cons, List.append_assoc]

/-! ## Leaves -/

theorem isWordChar_of_isDigit {c : Char} (h : c.isDigit) : Grammar.isWordChar c := by
  simp only [Grammar.isWordChar, Bool.not_eq_true']
  refine Bool.eq_false_iff.2 fun hm => ?_
  have hall : Grammar.special.all (fun d => !d.isDigit) := by decide
  have hc := List.all_eq_true.1 hall c (List.contains_iff_mem.1 hm)
  rw [h] at hc
  cases hc

theorem isWord_toString (i : Int) : Grammar.IsWord (toString i).toList := by
  have hdigits : ∀ c ∈ Nat.toDigits 10 i.natAbs, Grammar.isWordChar c := fun c hc =>
    isWordChar_of_isDigit (Number.isDigit_toDigits _ c hc)
  rw [Number.toList_toString]
  split
  · exact ⟨Nat.toDigits_ne_nil, hdigits⟩
  · refine ⟨List.cons_ne_nil _ _, fun c hc => ?_⟩
    rcases List.mem_cons.1 hc with rfl | hc
    · decide
    · exact hdigits c hc

theorem isRun_toDigits (n : Nat) : Atom.isRun Char.isDigit (Nat.toDigits 10 n) := by
  simp only [Atom.isRun, Bool.and_eq_true, List.all_eq_true]
  exact ⟨by simp [Nat.toDigits_ne_nil], Number.isDigit_toDigits n⟩

theorem isDecimal_toString (i : Int) : Atom.isDecimal (toString i).toList := by
  have hrun := isRun_toDigits i.natAbs
  obtain ⟨c, s, hs⟩ := List.exists_cons_of_ne_nil (Nat.toDigits_ne_nil (n := i.natAbs) (b := 10))
  rw [Number.toList_toString]
  split
  · rw [hs] at hrun ⊢
    rwa [Atom.isDecimal, Atom.dropMinus_of_isDigit (Atom.isDigit_of_isRun hrun List.mem_cons_self)]
  · exact hrun

/-- The decimal text of an integer is an atom. -/
theorem readable_int (i : Int) : Token.Readable ⟨.decimal, toString i⟩ :=
  .atom (isWord_toString i) (Atom.classify_decimal (isDecimal_toString i))

/-- A text that is lexed to one symbol is the atom of that symbol. -/
theorem classify_of_lex {name : String} {kind : TokenKind} (hk : kind = .symbol ∨ kind = .dotSymbol)
    (h : lex name = .ok [⟨kind, name⟩]) :
    Token.Readable ⟨kind, name⟩ ∧ kind = Atom.symbolKind name.toList := by
  have hr : Token.Readable ⟨kind, name⟩ := Token.readable_of_read (lex_ok_iff.1 h) (by simp)
  refine ⟨hr, ?_⟩
  generalize ht : (⟨kind, name⟩ : Token) = t at hr
  cases hr with
  | mark hm => cases ht; rcases hk with rfl | rfl <;> cases hm
  | dollar | freshAssign | string | rawString => cases ht; simp at hk
  | atom hw hc =>
    subst ht
    have hspell : Token.spelling ⟨kind, name⟩ = name := by rcases hk with rfl | rfl <;> rfl
    rw [hspell] at hc
    exact congrArg Token.kind (Atom.classify_symbol hc hk)

theorem Leaf.readable (h : v.Leaf) : v.token.Readable := by
  cases h with
  | int n => exact readable_int n.toInt
  | bool b =>
    have hspell : Token.spelling ⟨.bool, toString b⟩ = toString b := rfl
    refine .atom ?_ ?_
    · simp only [token, hspell]
      cases b <;> decide
    · simp only [token, hspell]
      cases b <;> rfl
  | text s => exact .string s
  | rawText hs => exact .rawString hs
  | symbol hk hl =>
    obtain ⟨hr, hkind⟩ := classify_of_lex hk hl
    rw [hkind] at hr
    exact hr
  | @char c hc =>
    refine Token.readable_char ?_
    simp only [Grammar.isWordChar, Grammar.special, unwritable, List.contains_eq_mem, List.mem_cons,
      List.not_mem_nil, or_false, Bool.not_eq_true', decide_eq_false_iff_not] at hc ⊢
    grind

/-- A leaf is written as its token is. -/
theorem Leaf.spell? (h : v.Leaf) : v.spell? = some v.token.spelling := by
  cases h with
  | int | bool | text | rawText => rfl
  | @symbol s => simp only [Value.spell?, token, Atom.symbolKind]; split <;> rfl
  | @char c => simp [Value.spell?, token, Token.spelling]

/-- The token of a leaf has a value equal to the leaf, in every table that has issued its symbol. -/
theorem Leaf.value? (h : v.Leaf) {table : SymbolTable} (ht : ∀ s, v = .symbol s → table.Issued s) :
    ∃ w, v.token.value? table = .ok (some w, table) ∧ w.equal v := by
  cases h with
  | int n =>
    refine ⟨.int n, ?_, by simp [equal]⟩
    have hread := Number.readInt64?_toString n
    simp only [token, Token.value?, Token.constant?, Token.integer, hread, Except.map]
  | bool b => exact ⟨.bool b, by cases b <;> rfl, by simp [equal]⟩
  | text s => exact ⟨.text s false, rfl, by simp [equal]⟩
  | @rawText s => exact ⟨.text s true, rfl, by simp [equal]⟩
  | @symbol s =>
    have hmake := (ht s rfl).makeSymbol
    rcases Atom.symbolKind_eq s.name.toList with hk | hk
    · exact ⟨.symbol ⟨s.id, s.name, false⟩, by simp [token, hk, Token.value?, SymbolTable.symbol, hmake],
        by simp [equal, Symbol.same]⟩
    · exact ⟨.symbol ⟨s.id, s.name, true⟩, by simp [token, hk, Token.value?, SymbolTable.dottedSymbol, hmake],
        by simp [equal, Symbol.same]⟩
  | @char c => exact ⟨.char c, by simp [token, Token.value?, Token.constant?, Except.map], by simp [equal]⟩

end Value

/-! ## Reading -/

namespace Grammar

/-- Right before `s`, `text` is read as `ts`. -/
def ReadsAs (text : String) (ts : List Token) (s : List Char) : Prop :=
  read (text.toList ++ s) = (read s).map (ts ++ ·)

variable {a b : String} {ts us : List Token} {s : List Char}

theorem ReadsAs.append (ha : ReadsAs a ts (b.toList ++ s)) (hb : ReadsAs b us s) :
    ReadsAs (a ++ b) (ts ++ us) s := by
  unfold ReadsAs at ha hb ⊢
  rw [String.toList_append, List.append_assoc, ha, hb]
  cases read s <;> simp [Except.map]

theorem readsAs_token {t : Token} (ht : t.Readable) (hs : Ends s) : ReadsAs t.spelling [t] s :=
  Token.read_spelling ht hs

theorem readsAs_space (s : List Char) : ReadsAs " " [] s := by
  unfold ReadsAs
  rw [show " ".toList ++ s = ' ' :: s from rfl, Token.read_space]
  cases read s <;> rfl

/-- A bracket is read on its own, whatever follows. -/
theorem readsAs_bracket {c : Char} {kind : TokenKind} (hc : lexeme c s = .of (.bare kind) s) :
    ReadsAs (String.ofList [c]) [.bare kind] s := by
  unfold ReadsAs
  rw [String.toList_ofList, List.singleton_append, read_of_lexeme hc]
  rfl

theorem readsAs_word {t : Token} (hw : IsWord a.toList) (ht : Atom.classify a = .ok t) (hs : Ends s) :
    ReadsAs a [t] s :=
  read_word hw hs (by simpa using ht)

theorem readsAs_backslash (s : List Char) : ReadsAs " \\ " [.bare .backslash] s := by
  have hslash : ReadsAs "\\" [.bare .backslash] (" ".toList ++ s) :=
    readsAs_word (by decide) rfl (Token.ends_space s)
  exact (readsAs_space _).append (hslash.append (readsAs_space s))

theorem ends_spaced (a : String) (s : List Char) : Ends ((" " ++ a).toList ++ s) := by
  rw [String.toList_append]
  exact Token.ends_space _

theorem ends_bracket {c : Char} (hc : c ∈ [')', ']']) (s : List Char) : Ends (c :: s) := by
  simp only [List.mem_cons, List.not_mem_nil, or_false] at hc
  rcases hc with rfl | rfl <;> simp [Ends, mark?, isWordChar, special]

end Grammar

/-! ## Writing -/

namespace Value

open Grammar

variable {object : Shown → Option String} {v : Value}

/-- A value and the rest of a list from the value on are written as texts of their tokens. -/
def ReadsBack (object : Shown → Option String) (v : Value) : Prop :=
  (∃ text, (∀ out, v.writeWith object out false = some (out ++ text)) ∧ ∀ s, Ends s → ReadsAs text v.tokens s) ∧
    ∃ text, (∀ out, v.writeWith object out true = some (out ++ text)) ∧
      ∀ s, Ends (text.toList ++ s) ∧ ReadsAs text v.restTokens s

/-- A value that is written the same way in both places. -/
theorem readsBack_of_text (text : String)
    (hw : ∀ out tail, v.writeWith object out tail = some (writeText out tail text))
    (hr : ∀ s, Ends s → ReadsAs text v.tokens s)
    (ht : v.restTokens = [.bare .backslash] ++ (v.tokens ++ [.bare .rparen])) : v.ReadsBack object := by
  refine ⟨⟨text, fun out => ?_, hr⟩, " \\ " ++ (text ++ ")"), fun out => ?_, fun s => ⟨?_, ?_⟩⟩
  · rw [hw]; rfl
  · simp [hw, writeText, openTail, closeTail, String.append_assoc]
  · rw [String.toList_append]
    exact Token.ends_space _
  · rw [ht]
    exact (readsAs_backslash _).append ((hr _ (ends_bracket (by decide) s)).append (readsAs_bracket rfl))

theorem Leaf.readsBack (h : v.Leaf) : v.ReadsBack object := by
  have hspell := h.spell?
  have htokens : v.tokens = [v.token] := by cases h <;> rfl
  refine readsBack_of_text v.token.spelling (fun out tail => ?_) (fun s hs => ?_) ?_
  · have hwrite : v.writeWith object out tail = v.spell?.map (writeText out tail) := by cases h <;> rfl
    rw [hwrite, hspell]
    rfl
  · rw [htokens]
    exact readsAs_token h.readable hs
  · cases h <;> rfl

theorem readsBack_null : ReadsBack object null := by
  have hread : ∀ s, Ends s → ReadsAs "nil" [⟨.symbol, "nil"⟩] s := fun s hs =>
    readsAs_word (by decide) rfl hs
  exact ⟨⟨"nil", fun out => by simp [null, writeWith, Sentinel.spelling], hread⟩,
    ")", fun out => by simp [null, writeWith], fun s => ⟨ends_bracket (by decide) s, readsAs_bracket rfl⟩⟩

theorem ReadsBack.pair {cell : Nat} {head tail : Value} (hh : head.ReadsBack object) (ht : tail.ReadsBack object) :
    (Value.pair cell head tail).ReadsBack object := by
  obtain ⟨text, hw, hr⟩ := hh.1
  obtain ⟨rest, hwt, hrt⟩ := ht.2
  have hread : ∀ s, ReadsAs (text ++ rest) (head.tokens ++ tail.restTokens) s := fun s =>
    (hr _ (hrt s).1).append (hrt s).2
  refine ⟨⟨"(" ++ (text ++ rest), fun out => ?_, fun s hs => ?_⟩,
    " " ++ (text ++ rest), fun out => ?_, fun s => ⟨?_, ?_⟩⟩
  · simp [writeWith, hw, hwt, String.append_assoc]
  · exact (readsAs_bracket rfl).append (hread s)
  · simp [writeWith, hw, hwt, String.append_assoc]
  · exact ends_spaced _ s
  · exact (readsAs_space _).append (hread s)

/-- The items behind the first one, up to the end of the array, are written as texts of their tokens. -/
theorem items_readBack {items : List Value} (h : ∀ v ∈ items, v.ReadsBack object) :
    ∃ text, (∀ out, writeItems object out items = some (out ++ text)) ∧
      ∀ s, Ends ((text ++ "]").toList ++ s) ∧ ReadsAs (text ++ "]") (itemTokens items ++ [.bare .rsquare]) s := by
  induction items with
  | nil =>
    exact ⟨"", fun out => by simp [writeItems], fun s => ⟨ends_bracket (by decide) s, readsAs_bracket (c := ']') rfl⟩⟩
  | cons v vs ih =>
    obtain ⟨text, hw, hr⟩ := (h v List.mem_cons_self).1
    obtain ⟨rest, hws, hrs⟩ := ih fun w hm => h w (List.mem_cons_of_mem _ hm)
    refine ⟨" " ++ (text ++ rest), fun out => ?_, fun s => ?_⟩
    · simp [writeItems, hw, hws, String.append_assoc]
    · have hread := (readsAs_space _).append ((hr _ (hrs s).1).append (hrs s).2)
      rw [String.append_assoc, String.append_assoc, itemTokens, List.append_assoc]
      exact ⟨ends_spaced _ s, hread⟩

theorem ReadsBack.array {items : List Value} (h : ∀ v ∈ items, v.ReadsBack object) :
    (Value.array items).ReadsBack object := by
  cases items with
  | nil =>
    refine readsBack_of_text "[]" (fun out tail => by simp [writeWith]) (fun s _ => ?_) rfl
    exact (readsAs_bracket (c := '[') rfl).append (readsAs_bracket (c := ']') rfl)
  | cons v vs =>
    obtain ⟨text, hw, hr⟩ := (h v List.mem_cons_self).1
    obtain ⟨rest, hws, hrs⟩ := items_readBack fun w hm => h w (List.mem_cons_of_mem _ hm)
    refine readsBack_of_text ("[" ++ (text ++ (rest ++ "]"))) (fun out tail => ?_) (fun s _ => ?_) ?_
    · simp [writeWith, hw, hws, writeText, String.append_assoc]
    · rw [tokens, itemTokens, List.append_assoc]
      exact (readsAs_bracket (c := '[') rfl).append ((hr _ (hrs s).1).append (hrs s).2)
    · simp [restTokens, tokens]

/-- **Data is written as a text of its tokens**, as a value and as the end of a list. -/
theorem Data.readsBack (h : v.Data) (object : Shown → Option String) : v.ReadsBack object := by
  induction h with
  | leaf hl => exact hl.readsBack
  | null => exact readsBack_null
  | pair _ _ hh ht => exact hh.pair ht
  | array _ ih => exact ReadsBack.array ih

/-- The leaves of data are leaves. -/
theorem Data.leaf_of_mem {w : Value} (h : v.Data) (hw : w ∈ v.leaves) : w.Leaf := by
  induction h with
  | @leaf v hl =>
    have hleaves : v.leaves = [v] := by cases hl <;> rfl
    rw [hleaves, List.mem_singleton] at hw
    exact hw ▸ hl
  | null => simp [Value.null, leaves] at hw
  | pair _ _ hh ht =>
    rw [leaves, List.mem_append] at hw
    exact hw.elim hh ht
  | array _ ih =>
    rw [leaves, itemLeaves_eq, List.mem_flatMap] at hw
    obtain ⟨u, hu, hw⟩ := hw
    exact ih u hu hw

/-- **The text of data is lexed to the tokens of its structure**, and every leaf is one token whose value equals the
leaf in every table that has issued the leaf's symbol. -/
theorem Data.lex_display (h : v.Data) (store : Store) :
    lex (store.display v) = .ok v.tokens ∧
      ∀ leaf ∈ v.leaves, leaf.tokens = [leaf.token] ∧
        ∀ table : SymbolTable, (∀ s, leaf = .symbol s → table.Issued s) →
          ∃ w, leaf.token.value? table = .ok (some w, table) ∧ w.equal leaf := by
  refine ⟨?_, fun leaf hm => ?_⟩
  · obtain ⟨text, hw, hr⟩ := (h.readsBack store.textOf?).1
    have hdisplay : store.display v = text := by
      simp [Store.display, Store.render?, renderWith, hw]
    rw [hdisplay, lex_ok_iff]
    have hread := hr [] ends_nil
    simpa [ReadsAs, Grammar.read, Except.map] using hread
  · have hl := h.leaf_of_mem hm
    exact ⟨by cases hl <;> rfl, fun table ht => hl.value? ht⟩

/-- An improper list with an array and a symbol in it. -/
theorem Data.lex_display_nested :
    Data (.pair 0 (.symbol ⟨1, ".parent", true⟩) (.pair 1 (.array [.text "a\n" false, .null]) (.int (-3)))) ∧
      lex "(.parent [\"a\\n\" nil] \\ -3)" =
        .ok [.bare .lparen, ⟨.dotSymbol, ".parent"⟩, .bare .lsquare, ⟨.string, "a\n"⟩, ⟨.symbol, "nil"⟩, .bare .rsquare,
          .bare .backslash, ⟨.decimal, "-3"⟩, .bare .rparen] ∧
      ∃ w, Token.value? ⟨.dotSymbol, ".parent"⟩ .initial = .ok (some w, .initial) ∧
        w.equal (.symbol ⟨1, ".parent", true⟩) := by
  have hsymbol : Leaf (.symbol ⟨1, ".parent", true⟩) := .symbol (.inr rfl) rfl
  have hitems : ∀ v ∈ [text "a\n" false, Value.null], Data v := by
    simp only [List.mem_cons, List.not_mem_nil, or_false]
    rintro v (rfl | rfl)
    · exact .leaf (.text _)
    · exact .null
  have hdata := @Data.pair 0 _ _ (.leaf hsymbol) (@Data.pair 1 _ _ (.array hitems) (.leaf (.int (-3))))
  have hissued : SymbolTable.initial.Issued ⟨1, ".parent", true⟩ := .reserved 1
  obtain ⟨hlex, hleaves⟩ := hdata.lex_display {}
  refine ⟨hdata, hlex, ?_⟩
  refine (hleaves (.symbol ⟨1, ".parent", true⟩) (by simp [leaves])).2 _ fun s hs => ?_
  obtain rfl := Value.symbol.inj hs
  exact hissued

end Value

end Zygo
