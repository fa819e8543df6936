import Zygo.Lexer.Basic
import Zygo.Value.Literal
import Zygo.Value.Spelling

/-!
# Token listings

A listing reads text in chunks and writes a line for every token as soon as it is complete; the line of a literal also
shows its value. At a lexical error the listing either ends, or drops what is unfinished and starts afresh with the next
chunk. The lines of errors count from the start of all input.

Newlines are counted without end, as they are by the lexer. A running program counts them with 32 bits, and nothing is
said of it once there are more than that.
-/

namespace Zygo

/-- A listing under way. -/
structure Listing where
  /-- Whether the first error ends it. -/
  exitOnFail : Bool
  lexer : Lexer := .initial
  /-- What has been written. -/
  out : String := ""
  /-- The newlines that were fed before the lexer last started afresh. -/
  lineBase : Nat := 0
  /-- The newlines that have been fed. -/
  linesFed : Nat := 0
  /-- The errors that were passed over. -/
  errors : Array LexError := #[]

namespace Listing

/-- A text with blanks behind it up to a width. -/
def padTo (width : Nat) (text : String) : String :=
  text.pushn ' ' (width - text.length)

/-- What the line of a literal shows behind its source text. -/
def valueNote (t : Token) : String :=
  match t.constant? with
  | .ok (some v) => "  => " ++ v.describe?.getD ""
  | .ok none => ""
  | .error (.invalidLiteral kind _) => "  => invalid " ++ kind.name
  | .error e => "  => " ++ e.message

/-- The line of a token: its kind, its source text and, for a literal, its value. -/
def line (t : Token) : String :=
  padTo 12 t.kind.name ++ " " ++ t.spelling ++ if t.kind.isLiteral then valueNote t else ""

/-- The lines of tokens. -/
def lines (ts : List Token) : String :=
  String.join (ts.map fun t => line t ++ "\n")

/-- How many newlines a text holds. -/
def newlines (text : String) : Nat :=
  text.toList.count '\n'

/-- Whether the lexer is between tokens. -/
def isIdle (l : Listing) : Bool :=
  l.lexer.isIdle

/-- Writes a text. -/
def write (l : Listing) (text : String) : Listing :=
  { l with out := l.out ++ text }

/-- Ends with an error, or passes over it and starts afresh. -/
def recover (l : Listing) (error : LexError) : Except (Stuck Listing) Listing :=
  let error := error.shift l.lineBase
  if l.exitOnFail then .error ⟨error, l⟩
  else .ok { l with errors := l.errors.push error, lexer := l.lexer.reset, lineBase := l.linesFed }

/-- Takes the tokens that the lexer completes and writes their lines. -/
def drain (l : Listing) : Listing × Option LexError :=
  let d := l.lexer.drain
  ({ l with lexer := d.lexer, out := l.out ++ lines d.tokens }, d.error?)

/-- Feeds a chunk and writes the lines of the tokens that it completes. -/
def feed (l : Listing) (chunk : String) : Except (Stuck Listing) Listing :=
  let (l, error?) := { l with lexer := l.lexer.addText chunk }.drain
  let l := { l with linesFed := l.linesFed + newlines chunk }
  match error? with
  | some error => l.recover error
  | none => .ok l

/-- Declares the end of all input and writes what that completes. -/
def finish (l : Listing) : Except (Stuck Listing) Listing :=
  match l.lexer.finish with
  | .error stuck => { l with lexer := stuck.state }.recover stuck.error
  | .ok lexer =>
    match { l with lexer }.drain with
    | (l, some error) => l.recover error
    | (l, none) => .ok l

/-- Feeds chunks in turn. -/
def feedAll (l : Listing) : List String → Except (Stuck Listing) Listing
  | [] => .ok l
  | chunk :: chunks =>
    match l.feed chunk with
    | .error stuck => .error stuck
    | .ok l => l.feedAll chunks

/-- The lines of a text, each with its newline; the last one may lack it. -/
def splitLines : List Char → List (List Char)
  | [] => []
  | c :: text =>
    if c = '\n' then [c] :: splitLines text
    else match splitLines text with
      | [] => [[c]]
      | first :: rest => (c :: first) :: rest

/-- The listing of a whole text, line by line. -/
def ofText (text : String) (exitOnFail : Bool) : Except (Stuck Listing) Listing :=
  match feedAll { exitOnFail } ((splitLines text.toList).map String.ofList) with
  | .error stuck => .error stuck
  | .ok l => l.finish

/-- What is reported about an error that was passed over: the error and how to mend it. -/
def report (e : LexError) : String :=
  "error: " ++ e.message ++ "\n" ++ match e.hint? with
    | some hint => "  hint: " ++ hint ++ "\n"
    | none => ""

/-- What is reported about all the errors that were passed over. -/
def reports (l : Listing) : String :=
  String.join (l.errors.toList.map report)

end Listing

end Zygo
