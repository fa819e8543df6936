import Zygo.LexError
import Zygo.Text.Blank
import Zygo.Token

/-!
# Atoms

An atom is a run of characters that the lexer reads as one word. `Atom.classify` tries the forms of an atom in order:
`$`, the lone backslash, a boolean, a decimal, hexadecimal, octal or binary integer, a float, a dotted symbol, a plain
symbol and last a character literal.
-/

namespace Zygo.Atom

/-! ## Characters of symbols -/

/-- Characters that no symbol holds. -/
def reserved : List Char :=
  ['\'', '#', ':', ';', '\\', '~', '@', '[', ']', '{', '}', '^', '|', '"', '(', ')', '%', ',']

/-- Whether a symbol may hold `c`. -/
def isSymbolChar (c : Char) : Bool :=
  !Text.isBlank c && !reserved.contains c

/-- Whether a symbol may start with `c`. -/
def isSymbolStart (c : Char) : Bool :=
  isSymbolChar c && !c.isDigit

/-- Hexadecimal digits of either case. -/
def isHexDigit (c : Char) : Bool :=
  c.isDigit || ('a' ≤ c && c ≤ 'f') || ('A' ≤ c && c ≤ 'F')

/-- Octal digits. -/
def isOctDigit (c : Char) : Bool :=
  '0' ≤ c && c ≤ '7'

/-- Binary digits. -/
def isBinaryDigit (c : Char) : Bool :=
  c == '0' || c == '1'

/-! ## Forms -/

/-- A non-empty run of characters that all satisfy `p`. -/
def isRun (p : Char → Bool) (s : List Char) : Bool :=
  !s.isEmpty && s.all p

/-- The rest of `s` after an optional minus sign. -/
def dropMinus : List Char → List Char
  | '-' :: s => s
  | s => s

/-- Optional minus sign, then digits. -/
def isDecimal (s : List Char) : Bool :=
  isRun Char.isDigit (dropMinus s)

/-- The digits of `s` after `0` and the letter of a radix. -/
def radixDigits? (letter : Char) (p : Char → Bool) : List Char → Option (List Char)
  | '0' :: l :: s => if l = letter ∧ isRun p s then some s else none
  | _ => none

/-- The parts before and after the first character that satisfies `p`, if there is one. -/
def splitFirst? (p : Char → Bool) : List Char → Option (List Char × List Char)
  | [] => none
  | c :: s => if p c then some ([], s) else (splitFirst? p s).map fun (before, after) => (c :: before, after)

/-- Digits with a point among or beside them. -/
def isPointed (mantissa : List Char) : Bool :=
  match splitFirst? (· == '.') mantissa with
  | some (whole, fraction) =>
    whole.all Char.isDigit && fraction.all Char.isDigit && (!whole.isEmpty || !fraction.isEmpty)
  | none => false

/-- The digits of an exponent after an optional sign. -/
def isExponent : List Char → Bool
  | '-' :: s => isRun Char.isDigit s
  | '+' :: s => isRun Char.isDigit s
  | s => isRun Char.isDigit s

/-- A number with a point, an exponent or both. -/
def isFloat (s : List Char) : Bool :=
  match splitFirst? (fun c => c == 'e' || c == 'E') (dropMinus s) with
  | some (mantissa, exponent) => (isPointed mantissa || isRun Char.isDigit mantissa) && isExponent exponent
  | none => isPointed (dropMinus s)

/-- A symbol character that is no digit, then symbol characters. -/
def isSymbol : List Char → Bool
  | [] => false
  | c :: s => isSymbolStart c && s.all isSymbolChar

/-- The parts of `s` between the characters equal to `sep`. -/
def splitAt (sep : Char) : List Char → List (List Char)
  | [] => [[]]
  | c :: s =>
    if c = sep then [] :: splitAt sep s
    else match splitAt sep s with
      | [] => [[c]]
      | part :: parts => (c :: part) :: parts

/-- A lone dot, or symbols each with a dot in front. -/
def isDotSymbol : List Char → Bool
  | ['.'] => true
  | '.' :: s => (splitAt '.' s).all isSymbol
  | _ => false

/-- The character of a literal `#c`, or of `#\e` with an escape letter `e`. -/
def character? : List Char → Except LexError.Cause (Option Char)
  | ['#', c] => .ok (some c)
  | ['#', '\\', letter] =>
    match Escape.meaning? letter with
    | some c => .ok (some c)
    | none => .error (.invalidEscape letter)
  | _ => .ok none

/-! ## Classification -/

/-- The token that an atom is: the first form that fits the whole text. -/
def classify (text : String) : Except LexError.Cause Token :=
  let s := text.toList
  if s = ['$'] then .ok ⟨.dollar, "$"⟩
  else if s = ['\\'] then .ok (Token.bare .backslash)
  else if text = "true" ∨ text = "false" then .ok ⟨.bool, text⟩
  else if isDecimal s then .ok ⟨.decimal, text⟩
  else if let some digits := radixDigits? 'x' isHexDigit s then .ok ⟨.hex, String.ofList digits⟩
  else if let some digits := radixDigits? 'o' isOctDigit s then .ok ⟨.oct, String.ofList digits⟩
  else if let some digits := radixDigits? 'b' isBinaryDigit s then .ok ⟨.binary, String.ofList digits⟩
  else if isFloat s then .ok ⟨.float, text⟩
  else if isDotSymbol s then .ok ⟨.dotSymbol, text⟩
  else if isSymbol s then .ok ⟨.symbol, text⟩
  else match character? s with
    | .ok (some c) => .ok ⟨.char, c.toString⟩
    | .ok none => .error (.unrecognizedAtom text)
    | .error cause => .error cause

end Zygo.Atom
