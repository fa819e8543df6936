import Zygo.Text.Hidden

/-!
# Quoted text

The diagnostic form of texts and characters: between quotes, with short escapes for the common controls and the quote
itself, and `\u` with a hexadecimal code point for every other character that does not show by itself.
-/

namespace Zygo.Text

/-- The lowercase hexadecimal digits of a number, without padding. -/
def hexDigits (n : Nat) : List Char :=
  Nat.toDigits 16 n

/-- A character between two quotes `quote`. -/
def quoteChar (quote c : Char) : List Char :=
  match c with
  | '\x00' => ['\\', '0']
  | '\t' => ['\\', 't']
  | '\r' => ['\\', 'r']
  | '\n' => ['\\', 'n']
  | '\\' => ['\\', '\\']
  | c =>
    if c = quote then ['\\', c]
    else if isHidden c then ['\\', 'u', '{'] ++ hexDigits c.toNat ++ ['}']
    else [c]

/-- A text in double quotes. -/
def quoted (text : String) : String :=
  "\"" ++ String.ofList (text.toList.flatMap (quoteChar '"')) ++ "\""

/-- A character in single quotes. -/
def quotedChar (c : Char) : String :=
  "'" ++ String.ofList (quoteChar '\'' c) ++ "'"

end Zygo.Text
