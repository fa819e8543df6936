import Zygo.Escape

/-!
# Tokens

A token is a kind and a payload text. Structural tokens are known by their kind alone; a literal carries its decoded
payload, such as the digits after `0x` or the characters between the quotes. `Token.spelling` is the canonical source
text of a token.
-/

namespace Zygo

/-- What a token is. -/
inductive TokenKind where
  /-- `(` -/
  | lparen
  /-- `)` -/
  | rparen
  /-- `[` -/
  | lsquare
  /-- `]` -/
  | rsquare
  /-- An opening brace. -/
  | lcurly
  /-- A closing brace. -/
  | rcurly
  /-- A bare dot, which the payload holds. -/
  | dot
  /-- `'` -/
  | quote
  /-- A backtick that opens a template. -/
  | backtick
  /-- `~` -/
  | tilde
  /-- `~@` -/
  | tildeAt
  /-- `^` -/
  | caret
  /-- A backslash that stands alone: it parts the tail of an improper list. -/
  | backslash
  /-- `$` -/
  | dollar
  /-- `:` -/
  | colon
  /-- `:=` -/
  | freshAssign
  /-- A symbol. -/
  | symbol
  /-- A dotted path such as `.a.b`. -/
  | dotSymbol
  /-- `true` or `false`. -/
  | bool
  /-- A decimal integer with an optional minus sign. -/
  | decimal
  /-- The digits after `0x`. -/
  | hex
  /-- The digits after `0o`. -/
  | oct
  /-- The digits after `0b`. -/
  | binary
  /-- A number with a point or an exponent. -/
  | float
  /-- The character of a `#c` literal. -/
  | char
  /-- The text of a quoted string, escapes decoded. -/
  | string
  /-- The text between backticks, verbatim. -/
  | rawString
  /-- The end of all input. -/
  | endOfInput
  deriving DecidableEq, Repr

namespace TokenKind

/-- The name that listings give a kind. -/
def name : TokenKind → String
  | lparen => "lparen"
  | rparen => "rparen"
  | lsquare => "lsquare"
  | rsquare => "rsquare"
  | lcurly => "lcurly"
  | rcurly => "rcurly"
  | dot => "dot"
  | quote => "quote"
  | backtick => "backtick"
  | tilde => "tilde"
  | tildeAt => "tilde-at"
  | caret => "caret"
  | backslash => "backslash"
  | dollar => "dollar"
  | colon => "colon"
  | freshAssign => "fresh-assign"
  | symbol => "symbol"
  | dotSymbol => "dot-symbol"
  | bool => "bool"
  | decimal => "decimal"
  | hex => "hex"
  | oct => "oct"
  | binary => "binary"
  | float => "float"
  | char => "char"
  | string => "string"
  | rawString => "raw-string"
  | endOfInput => "end"

/-- Every kind. -/
def all : List TokenKind :=
  [lparen, rparen, lsquare, rsquare, lcurly, rcurly, dot, quote, backtick, tilde, tildeAt, caret, backslash, dollar,
    colon, freshAssign, symbol, dotSymbol, bool, decimal, hex, oct, binary, float, char, string, rawString, endOfInput]

/-- The kind of a name. -/
def ofName? (n : String) : Option TokenKind :=
  all.find? fun k => k.name == n

/-- Whether tokens of this kind are self-evaluating literals. -/
def isLiteral : TokenKind → Bool
  | bool | decimal | hex | oct | binary | float | char | string | rawString => true
  | _ => false

end TokenKind

/-- A token: its kind and its payload. -/
structure Token where
  kind : TokenKind
  text : String
  deriving DecidableEq, Repr

namespace Token

/-- A token that its kind determines. -/
def bare (kind : TokenKind) : Token :=
  ⟨kind, ""⟩

/-- The token that stands for the end of all input. -/
def endOfInput : Token :=
  bare .endOfInput

/-- Whether a token stands for the end of all input. -/
def isEnd (t : Token) : Bool :=
  t.kind == .endOfInput

/-- The canonical source text of a token. -/
def spelling (t : Token) : String :=
  match t.kind with
  | .lparen => "("
  | .rparen => ")"
  | .lsquare => "["
  | .rsquare => "]"
  | .lcurly => "\x7b"
  | .rcurly => "\x7d"
  | .quote => "'"
  | .backtick => "`"
  | .caret => "^"
  | .tilde => "~"
  | .tildeAt => "~@"
  | .backslash => "\\"
  | .dollar => "$"
  | .colon => ":"
  | .freshAssign => ":="
  | .hex => "0x" ++ t.text
  | .oct => "0o" ++ t.text
  | .binary => "0b" ++ t.text
  | .char => "#" ++ String.ofList (Escape.spell (t.text.toList.head?.getD '\x00'))
  | .string => "\"" ++ Escape.spellText t.text ++ "\""
  | .rawString => "`" ++ t.text ++ "`"
  | .dot | .symbol | .dotSymbol | .bool | .decimal | .float | .endOfInput => t.text

end Token

end Zygo
