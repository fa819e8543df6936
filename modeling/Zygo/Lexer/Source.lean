import Zygo.Text.Quoted

/-!
# Character sources

A source hands out the characters of a text one by one and can look one character ahead without taking it. Looking
ahead changes what `Source.describe` shows and nothing else: `rest` is the view that the lexer reads.
-/

namespace Zygo

/-- The characters that are left of a text, and whether the first of them has been looked at. -/
structure Source where
  rest : List Char
  looked : Bool := false
  deriving DecidableEq, Repr

namespace Source

/-- The source of a text. -/
def ofString (text : String) : Source :=
  { rest := text.toList }

/-- Takes the next character. -/
def next (s : Source) : Option Char × Source :=
  (s.rest.head?, { rest := s.rest.tail })

/-- Looks whether a character is left, without taking it. -/
def hasMore (s : Source) : Bool × Source :=
  (!s.rest.isEmpty, { s with looked := !s.rest.isEmpty })

/-- The character that has been looked at and not taken yet. -/
def lookahead? (s : Source) : Option Char :=
  if s.looked then s.rest.head? else none

/-- The diagnostic form of a source: its lookahead. -/
def describe (s : Source) : String :=
  let shown := match s.lookahead? with
    | some c => "Some(" ++ Text.quotedChar c ++ ")"
    | none => "None"
  "CharStream \x7b peeked: " ++ shown ++ ", .. \x7d"

@[simp] theorem rest_ofString (text : String) : (ofString text).rest = text.toList := rfl

@[simp] theorem rest_hasMore (s : Source) : s.hasMore.2.rest = s.rest := rfl

end Source

end Zygo
