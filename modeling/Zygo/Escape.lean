/-!
# Escapes

String and character literals share one escape table. `meaning?` reads the letter after a backslash and `spell` writes
a character the way a literal holds it.

* `meaning?_letter`: the spelling of an escaped character is a backslash and a letter that means the character.
-/

namespace Zygo.Escape

/-- The character that a letter means after a backslash. -/
def meaning? : Char → Option Char
  | 'n' => some '\n'
  | 'r' => some '\r'
  | 'a' => some '\x07'
  | 't' => some '\t'
  | '\\' => some '\\'
  | '"' => some '"'
  | '\'' => some '\''
  | '#' => some '#'
  | _ => none

/-- The letter that stands after a backslash for a character that a literal cannot hold as it is. -/
def letter? : Char → Option Char
  | '\n' => some 'n'
  | '\r' => some 'r'
  | '\x07' => some 'a'
  | '\t' => some 't'
  | '\\' => some '\\'
  | '"' => some '"'
  | _ => none

/-- A character as it stands inside a string literal or after the `#` of a character literal. -/
def spell (c : Char) : List Char :=
  match letter? c with
  | some l => ['\\', l]
  | none => [c]

/-- The body of the string literal for a text. -/
def spellText (text : String) : String :=
  String.ofList (text.toList.flatMap spell)

theorem meaning?_letter {c l : Char} (h : letter? c = some l) : meaning? l = some c := by
  unfold letter? at h
  split at h <;> simp_all [meaning?] <;> subst h <;> rfl

end Zygo.Escape
