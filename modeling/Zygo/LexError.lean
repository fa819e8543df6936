/-!
# Lexical errors

A lexical error has a cause and the line on which it came to light. `LexError.message` is its wording and
`LexError.hint?` the advice that goes with it, where there is any. A line is any natural number, while a running program
has 32 bits for it.
-/

namespace Zygo

/-- A mark that may not follow an atom directly. -/
inductive Mark where
  | backtick
  | quote
  | caret
  | tilde
  deriving DecidableEq, Repr

/-- The words for a mark in a message. -/
def Mark.description : Mark → String
  | .backtick => "backtick"
  | .quote => "quote"
  | .caret => "^ caret"
  | .tilde => "tilde"

/-- Why a text has no tokens. -/
inductive LexError.Cause where
  /-- A backslash before a character outside the escape table. -/
  | invalidEscape (letter : Char)
  /-- A mark right after an atom. -/
  | unexpected (mark : Mark)
  /-- An atom of no known form. -/
  | unrecognizedAtom (text : String)
  /-- The input ended inside a quoted string. -/
  | unterminatedString
  /-- The input ended inside a raw string. -/
  | unterminatedRawString
  deriving DecidableEq, Repr

/-- A cause and the line it was met on, the first line being 1. -/
structure LexError where
  cause : LexError.Cause
  line : Nat
  deriving DecidableEq, Repr

namespace LexError

/-- The wording of a cause. -/
def Cause.message : Cause → String
  | .invalidEscape letter => "invalid escape sequence `\\" ++ letter.toString ++ "`"
  | .unexpected mark => "unexpected " ++ mark.description
  | .unrecognizedAtom text => "unrecognized atom: '" ++ text ++ "'"
  | .unterminatedString => "unterminated string literal"
  | .unterminatedRawString => "unterminated raw string literal"

/-- How to mend an error of this cause, where one answer stands out. -/
def Cause.hint? : Cause → Option String
  | .invalidEscape _ => some "valid escapes are: \\n, \\r, \\a, \\t, \\\\, \\\", \\', \\#"
  | .unexpected _ => some "separate the preceding word from this character with whitespace"
  | .unterminatedString => some "add closing `\"`"
  | .unterminatedRawString => some "add closing `` ` ``"
  | .unrecognizedAtom _ => none

/-- The wording of an error: its line, then its cause. -/
def message (e : LexError) : String :=
  "line " ++ toString e.line ++ ": " ++ e.cause.message

/-- The advice that goes with an error. -/
def hint? (e : LexError) : Option String :=
  e.cause.hint?

/-- The same error, met `lines` lines further down. -/
def shift (lines : Nat) (e : LexError) : LexError :=
  { e with line := lines + e.line }

end LexError

end Zygo
