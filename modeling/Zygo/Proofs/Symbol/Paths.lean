import Zygo.Proofs.Atom.Forms
import Zygo.Proofs.Lexer.Spelling
import Zygo.Proofs.Symbol
import Zygo.Value.Literal

/-!
# Paths of dotted symbols

The path of a dotted symbol is its text, split at the dots, without the empty parts. Dotted symbols of texts are a lone
dot, or names with a dot in front of each, so nothing but the part before the first dot is empty and the path gives the
text back. A plain symbol is a path of one name, whatever dots there are in its text.

* `path_dotted`: names with a dot in front of each make up the text of a symbol with these names as its path.
* `path_of_lex`: the paths of the symbols that tokens have as their values.
-/

namespace Zygo

/-- The symbol of a text has this text. -/
theorem SymbolTable.makeSymbol_name (t : SymbolTable) (dotted : Bool) (text : String) :
    (t.makeSymbol dotted text).1 = ⟨(t.intern text).1, text, dotted⟩ := by
  rw [makeSymbol, (t.numbers_intern text).lookup]

namespace Symbol

/-- Names, each with a dot in front of it. -/
def dottedText (names : List String) : String :=
  String.join (names.map ("." ++ ·))

theorem toList_dottedText (names : List String) :
    (dottedText names).toList = (names.map String.toList).flatMap ('.' :: ·) := by
  simp [dottedText, String.toList_join, List.flatMap_map]

variable {names : List String} {text : String}

/-- **Names are the path of the text that they make up**, if there are no dots in them and none is empty. -/
theorem path_dotted (h : ∀ name ∈ names, name ≠ "" ∧ '.' ∉ name.toList) (id : Nat) :
    path ⟨id, dottedText names, true⟩ = names := by
  have hparts : Atom.splitAt '.' (dottedText names).toList = [] :: names.map String.toList := by
    have hdots : ∀ part ∈ [] :: names.map String.toList, '.' ∉ part := by
      simpa using fun name hname => (h name hname).2
    simpa [toList_dottedText] using Atom.splitAt_flatMap hdots
  have hkept : (names.map String.toList).filter (fun part => !part.isEmpty) = names.map String.toList := by
    refine List.filter_eq_self.2 fun part hpart => ?_
    obtain ⟨name, hname, rfl⟩ := List.mem_map.1 hpart
    simpa using (h name hname).1
  simp only [path, if_true, hparts, List.filter_cons, List.isEmpty_nil, Bool.not_true, Bool.false_eq_true, if_false,
    hkept, List.map_map]
  simp [Function.comp_def]

/-- A lone dot is followed by no name. -/
theorem path_dot (id : Nat) : path ⟨id, ".", true⟩ = [] := by
  simp [path, Atom.splitAt]

/-- The text of a dotted symbol is a lone dot or made up of names. -/
theorem mem_dotSymbol (h : text.toList ∈ Atom.language .dotSymbol) :
    text = "." ∨ ∃ names, names ≠ [] ∧ (∀ name ∈ names, Atom.isSymbol name.toList ∧ '.' ∉ name.toList) ∧
      text = dottedText names := by
  rw [Atom.language, Language.mem_add, Atom.mem_dotted] at h
  rcases h with h | ⟨part, parts, hparts, htext⟩
  · exact .inl (String.toList_inj.1 h)
  · refine .inr ⟨(part :: parts).map String.ofList, by simp, fun name hname => ?_, ?_⟩
    · obtain ⟨p, hp, rfl⟩ := List.mem_map.1 hname
      simpa using Atom.mem_segment.1 (hparts p hp)
    · rw [← String.toList_inj, toList_dottedText, List.map_map, ← htext]
      simp [Function.comp_def]

end Symbol

namespace Token

variable {t : Token}

theorem Readable.mem_dotSymbol (ht : t.Readable) (hk : t.kind = .dotSymbol) :
    t.text.toList ∈ Atom.language .dotSymbol := by
  cases ht with
  | @mark kind hm => subst hk; cases hm
  | dollar | freshAssign | string | rawString => cases hk
  | atom hw hc =>
    have hspell : t.spelling = t.text := by simp only [spelling, hk]
    have hmem := Atom.mem_language_of_classify hc
    rwa [hk, hspell] at hmem

/-- A name starts with something that is no digit. -/
theorem head?_name {name : String} (h : Atom.isSymbol name.toList) :
    name ≠ "" ∧ ∀ c ∈ name.toList.head?, c.isDigit = false := by
  cases hs : name.toList with
  | nil => rw [hs] at h; cases h
  | cons c s =>
    simp only [hs, Atom.isSymbol, Atom.isSymbolStart, Bool.and_eq_true, Bool.not_eq_true'] at h
    refine ⟨?_, by simpa using h.1.2⟩
    rintro rfl
    cases hs

/-- **The path of a symbol gives its text back.** In every symbol table, a dotted symbol of a text has a symbol as its
value. The path of a lone dot is empty. All others have paths of one or more names, which are not empty, hold no dots and
do not start with digits, and the text is the names with a dot in front of each. The path of a plain symbol is its text,
whatever the text is. -/
theorem path_of_lex (symbols : SymbolTable) :
    (∀ (source : String) (ts : List Token) (t : Token), lex source = .ok ts → t ∈ ts → t.kind = .dotSymbol →
      ∃ sym table, t.value? symbols = .ok (some (.symbol sym), table) ∧
        if t.text = "." then sym.path = []
        else sym.path ≠ [] ∧
          (∀ name ∈ sym.path, name ≠ "" ∧ '.' ∉ name.toList ∧ ∀ c ∈ name.toList.head?, c.isDigit = false) ∧
          t.text = String.join (sym.path.map ("." ++ ·))) ∧
    ∀ text : String, ∃ sym table, value? ⟨.symbol, text⟩ symbols = .ok (some (.symbol sym), table) ∧
      sym.path = [text] := by
  constructor
  · intro source ts t hlex ht hk
    have hmem := (readable_of_read (lex_ok_iff.1 hlex) ht).mem_dotSymbol hk
    have hvalue : t.value? symbols =
        .ok (some (.symbol ⟨(symbols.intern t.text).1, t.text, true⟩), (symbols.intern t.text).2) := by
      simp only [value?, hk, SymbolTable.dottedSymbol, SymbolTable.makeSymbol_name]
      rfl
    refine ⟨_, _, hvalue, ?_⟩
    split
    · rename_i hdot
      rw [hdot]
      exact Symbol.path_dot _
    · rename_i hdot
      obtain ⟨names, hne, hnames, htext⟩ := (Symbol.mem_dotSymbol hmem).resolve_left hdot
      have hpath : Symbol.path ⟨(symbols.intern t.text).1, t.text, true⟩ = names := by
        rw [htext]
        exact Symbol.path_dotted (fun name hname => ⟨(head?_name (hnames name hname).1).1, (hnames name hname).2⟩) _
      rw [hpath]
      refine ⟨hne, fun name hname => ?_, htext⟩
      obtain ⟨hsymbol, hdots⟩ := hnames name hname
      exact ⟨(head?_name hsymbol).1, hdots, (head?_name hsymbol).2⟩
  · intro text
    refine ⟨⟨(symbols.intern text).1, text, false⟩, (symbols.intern text).2, ?_, rfl⟩
    simp only [value?, SymbolTable.symbol, SymbolTable.makeSymbol_name]
    rfl

/-- A path of two names, a lone dot, and a text that is no dotted symbol for its digit. -/
theorem path_of_lex_digits :
    lex ".a.b1 . .a.1b" = .ok [⟨.dotSymbol, ".a.b1"⟩, ⟨.dotSymbol, "."⟩, ⟨.symbol, ".a.1b"⟩] ∧
    (∃ sym table, value? ⟨.dotSymbol, ".a.b1"⟩ .initial = .ok (some (.symbol sym), table) ∧ sym.path ≠ [] ∧
      ".a.b1" = String.join (sym.path.map ("." ++ ·))) ∧
    (∃ sym table, value? ⟨.dotSymbol, "."⟩ .initial = .ok (some (.symbol sym), table) ∧ sym.path = []) ∧
    ∃ sym table, value? ⟨.symbol, ".a.1b"⟩ .initial = .ok (some (.symbol sym), table) ∧ sym.path = [".a.1b"] := by
  have hlex : lex ".a.b1 . .a.1b" = .ok [⟨.dotSymbol, ".a.b1"⟩, ⟨.dotSymbol, "."⟩, ⟨.symbol, ".a.1b"⟩] := rfl
  obtain ⟨hdotted, hplain⟩ := path_of_lex .initial
  refine ⟨hlex, ?_, ?_, hplain _⟩
  · obtain ⟨sym, table, hvalue, hpath⟩ := hdotted _ _ _ hlex List.mem_cons_self rfl
    rw [if_neg (by decide)] at hpath
    exact ⟨sym, table, hvalue, hpath.1, hpath.2.2⟩
  · obtain ⟨sym, table, hvalue, hpath⟩ := hdotted _ _ ⟨.dotSymbol, "."⟩ hlex (by decide) rfl
    rw [if_pos rfl] at hpath
    exact ⟨sym, table, hvalue, hpath⟩

end Token

end Zygo
