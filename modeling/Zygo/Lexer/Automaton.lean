import Zygo.Atom

/-!
# The lexing automaton

The automaton reads one character at a time. It collects the characters of an atom or a literal in `pending` and puts
completed tokens into `ready`. Two modes decide on a token by one more character, which they hand back to the normal
mode when it does not belong to the token: `unquote` after `~` and `assign` after `:`.

A failing step leaves the automaton as `Stuck.state` says; the character is spent.

Lines are numbered without end. A running lexer counts them with 32 bits, which are used up after 2 ^ 32 - 1 newlines,
and nothing is said of it from there on.
-/

namespace Zygo

/-- A lexical error and the state it leaves behind. -/
structure Stuck (σ : Type) where
  error : LexError
  state : σ

namespace Lexer

/-- What a character means outside literals and comments. -/
inductive CharClass where
  /-- Ends an atom and is nothing itself. -/
  | separator
  /-- `;` opens a comment. -/
  | comment
  /-- `:` ends an atom or starts `:=`. -/
  | colon
  /-- `$` is a token wherever it stands. -/
  | dollar
  /-- A bracket, which is the token of its kind. -/
  | bracket (kind : TokenKind)
  /-- `'` quotes what follows. -/
  | quote
  /-- `^` opens a template. -/
  | caret
  /-- `~` starts `~` or `~@`. -/
  | tilde
  /-- `"` opens a string. -/
  | doubleQuote
  /-- A backtick opens a raw string. -/
  | backtick
  /-- Any other character is part of an atom. -/
  | plain
  deriving DecidableEq, Repr

/-- The class of a character. -/
def CharClass.of : Char → CharClass
  | '\n' | ',' | ' ' | '\t' | '\r' => separator
  | ';' => comment
  | ':' => colon
  | '$' => dollar
  | '(' => bracket .lparen
  | ')' => bracket .rparen
  | '[' => bracket .lsquare
  | ']' => bracket .rsquare
  | '{' => bracket .lcurly
  | '}' => bracket .rcurly
  | '\'' => quote
  | '^' => caret
  | '~' => tilde
  | '"' => doubleQuote
  | '`' => backtick
  | _ => plain

/-- Where the automaton stands. -/
inductive Mode where
  /-- Between tokens or inside an atom. -/
  | normal
  /-- After `;`, up to the end of the line. -/
  | comment
  /-- Inside a quoted string. -/
  | string
  /-- After a backslash in a quoted string. -/
  | escaped
  /-- After `~`. -/
  | unquote
  /-- Inside a raw string. -/
  | rawString
  /-- After `:`. -/
  | assign
  deriving DecidableEq, Repr

/-- The name of a mode in diagnostics. -/
def Mode.name : Mode → String
  | normal => "Normal"
  | comment => "Comment"
  | string => "StringLiteral"
  | escaped => "StringEscaped"
  | unquote => "Unquote"
  | rawString => "RawString"
  | assign => "ColonOrFreshAssign"

/-- The state of the automaton. -/
structure Automaton where
  /-- Where it stands. -/
  mode : Mode := .normal
  /-- The characters of an unfinished atom or literal. -/
  pending : String := ""
  /-- Tokens that are complete and not handed out yet. -/
  ready : Array Token := #[]
  /-- The line of the next character, the first line being 1. -/
  line : Nat := 1
  deriving DecidableEq

namespace Automaton

/-- The automaton before any input. -/
def initial : Automaton := {}

/-- Whether nothing is unfinished. -/
def isIdle (a : Automaton) : Bool :=
  a.mode == .normal && a.pending.isEmpty

/-- Fails on the current line and stays as it is. -/
def fail (a : Automaton) (cause : LexError.Cause) : Except (Stuck Automaton) Automaton :=
  .error ⟨⟨cause, a.line⟩, a⟩

/-- Completes a token. -/
def emit (a : Automaton) (t : Token) : Automaton :=
  { a with ready := a.ready.push t }

/-- Completes a token of the given kind whose payload is the pending text. -/
def emitPending (a : Automaton) (kind : TokenKind) : Automaton :=
  { a.emit ⟨kind, a.pending⟩ with pending := "" }

/-- Changes the mode. -/
def enter (a : Automaton) (mode : Mode) : Automaton :=
  { a with mode }

/-- Adds a character to the pending text. -/
def collect (a : Automaton) (c : Char) : Automaton :=
  { a with pending := a.pending.push c }

/-- Completes the pending atom, if there is one. -/
def flush (a : Automaton) : Except (Stuck Automaton) Automaton :=
  if a.pending.isEmpty then .ok a
  else match Atom.classify a.pending with
    | .ok t => .ok ({ a with pending := "" }.emit t)
    | .error cause => a.fail cause

/-- Goes on to `next` unless an atom is pending, which the mark may not follow. -/
def apart (a : Automaton) (mark : Mark) (next : Automaton) : Except (Stuck Automaton) Automaton :=
  if a.pending.isEmpty then .ok next else a.fail (.unexpected mark)

/-- One character in the normal mode. -/
def stepNormal (a : Automaton) (c : Char) : Except (Stuck Automaton) Automaton :=
  match CharClass.of c with
  | .separator => a.flush
  | .comment => a.flush.map (·.enter .comment)
  | .colon => .ok (a.enter .assign)
  | .dollar => a.flush.map (·.emit ⟨.dollar, "$"⟩)
  | .bracket kind => a.flush.map (·.emit (.bare kind))
  | .quote => a.apart .quote (a.emit (.bare .quote))
  | .caret => a.apart .caret (a.emit (.bare .caret))
  | .tilde => a.apart .tilde (a.enter .unquote)
  | .doubleQuote => a.apart .quote (a.enter .string)
  | .backtick => a.apart .backtick (a.enter .rawString)
  | .plain => .ok (a.collect c)

/-- One character, line count apart. -/
def step (a : Automaton) (c : Char) : Except (Stuck Automaton) Automaton :=
  match a.mode with
  | .normal => a.stepNormal c
  | .comment => .ok (if c = '\n' then a.enter .normal else a)
  | .rawString => .ok (if c = '`' then (a.emitPending .rawString).enter .normal else a.collect c)
  | .string =>
    .ok (if c = '\\' then a.enter .escaped
      else if c = '"' then (a.emitPending .string).enter .normal
      else a.collect c)
  | .escaped =>
    match Escape.meaning? c with
    | some d => .ok ((a.collect d).enter .string)
    | none => a.fail (.invalidEscape c)
  | .unquote =>
    if c = '@' then .ok ((a.emit (.bare .tildeAt)).enter .normal)
    else ((a.emit (.bare .tilde)).enter .normal).stepNormal c
  | .assign =>
    match (a.enter .normal).flush with
    | .error stuck => .error stuck
    | .ok a =>
      if c = '=' then .ok (a.emit ⟨.freshAssign, ":="⟩)
      else (a.emit (.bare .colon)).stepNormal c

/-- One character. A line ends with its newline, so an atom that a newline ends is on the line before it. -/
def advance (a : Automaton) (c : Char) : Except (Stuck Automaton) Automaton :=
  match a.step c with
  | .error stuck => .error stuck
  | .ok a => .ok (if c = '\n' then { a with line := a.line + 1 } else a)

/-- The end of all input: completes what is pending and decides what is undecided. -/
def finish (a : Automaton) : Except (Stuck Automaton) Automaton :=
  match a.mode with
  | .normal => a.flush
  | .comment => .ok (a.enter .normal)
  | .unquote => .ok ((a.enter .normal).emit (.bare .tilde))
  | .assign => (a.enter .normal).flush.map (·.emit (.bare .colon))
  | .string | .escaped => a.fail .unterminatedString
  | .rawString => a.fail .unterminatedRawString

/-- Reads a text up to the first character that completes a token. Gives the automaton and the rest of the text. -/
def readToken (a : Automaton) : List Char → Except (Stuck (Automaton × List Char)) (Automaton × List Char)
  | [] => .ok (a, [])
  | c :: text =>
    if a.ready.isEmpty then
      match a.advance c with
      | .error stuck => .error ⟨stuck.error, (stuck.state, text)⟩
      | .ok a => a.readToken text
    else .ok (a, c :: text)

/-- Reads a whole text; all the tokens that it completes are in `ready`. A failure gives the rest of the text. -/
def readAll (a : Automaton) : List Char → Except (Stuck (Automaton × List Char)) Automaton
  | [] => .ok a
  | c :: text =>
    match a.advance c with
    | .error stuck => .error ⟨stuck.error, (stuck.state, text)⟩
    | .ok a => a.readAll text

end Automaton

end Lexer

end Zygo
