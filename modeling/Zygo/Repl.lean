import Zygo.Listing

/-!
# Line by line

The interactive loop feeds a listing with one line after the other. Before each line it writes a prompt, which shows
whether the line starts afresh or goes on with an unfinished token. Lines are bytes: one that is no valid text ends the
loop.
-/

namespace Zygo

/-- Why reading lines ended early. -/
inductive InputError where
  /-- A lexical error that ends the listing. -/
  | lexical (error : LexError)
  /-- A line that is no valid UTF-8. -/
  | invalidText
  deriving DecidableEq, Repr

/-- The wording of the failure. -/
def InputError.message : InputError → String
  | lexical error => error.message
  | invalidText => "stream did not contain valid UTF-8"

namespace Repl

/-- The prompt for a line that starts afresh. -/
def freshPrompt : String := "zygo> "

/-- The prompt for a line that goes on with an unfinished token. -/
def continuationPrompt : String := "...   "

/-- Writes the prompt for the next line. -/
def prompt (quiet : Bool) (l : Listing) : Listing :=
  if quiet then l else l.write (if l.isIdle then freshPrompt else continuationPrompt)

/-- The lines of an input without their newlines, and whether a newline ended each. -/
def splitBytes : List UInt8 → List (List UInt8 × Bool)
  | [] => []
  | b :: bytes =>
    if b = 10 then ([], true) :: splitBytes bytes
    else match splitBytes bytes with
      | [] => [([b], false)]
      | (line, ended) :: rest => (b :: line, ended) :: rest

/-- A line without the carriage return before its newline. -/
def dropReturn (line : List UInt8) (ended : Bool) : List UInt8 :=
  if ended ∧ line.getLast? = some 13 then line.dropLast else line

/-- The text of a line, if it is one. -/
def decode? (line : List UInt8) : Option String :=
  String.fromUTF8? ⟨line.toArray⟩

/-- Feeds one line with a newline behind it. -/
def feedLine (l : Listing) (line : List UInt8 × Bool) : Except (InputError × Listing) Listing :=
  match decode? (dropReturn line.1 line.2) with
  | none => .error (.invalidText, l)
  | some text =>
    match l.feed (text.push '\n') with
    | .error stuck => .error (.lexical stuck.error, stuck.state)
    | .ok l => .ok l

/-- Declares the end of the input. -/
def close (l : Listing) : Except (InputError × Listing) Listing :=
  match l.finish with
  | .error stuck => .error (.lexical stuck.error, stuck.state)
  | .ok l => .ok l

/-- Feeds lines in turn, each after a prompt; the last prompt stands before the end of the input. -/
def feedLines (quiet : Bool) (l : Listing) : List (List UInt8 × Bool) → Except (InputError × Listing) Listing
  | [] => close (prompt quiet l)
  | line :: rest =>
    match feedLine (prompt quiet l) line with
    | .error failed => .error failed
    | .ok l => feedLines quiet l rest

/-- The whole loop over an input. -/
def run (input : List UInt8) (quiet exitOnFail : Bool) : Except (InputError × Listing) Listing :=
  feedLines quiet { exitOnFail } (splitBytes input)

end Repl

end Zygo
