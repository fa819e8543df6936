import Zygo.Lexer.Automaton
import Zygo.Lexer.Source

/-!
# The streaming lexer

A lexer is an automaton with a queue of sources. The source in front is being read; when it runs dry, the next one goes
on where it stopped, even inside an atom. `next` reads only as far as the next token, `drain` reads everything there is,
and `finish` declares the end of all input. `lex` is the whole way from a text to its tokens.
-/

namespace Zygo

/-- An automaton, the source that it reads and the sources that wait. -/
structure Lexer where
  automaton : Lexer.Automaton := {}
  active : Source := ⟨[], false⟩
  queued : List Source := []

namespace Lexer

/-- A lexer before any input. -/
def initial : Lexer := {}

/-- The name of the automaton's mode. -/
def modeName (l : Lexer) : String :=
  l.automaton.mode.name

/-- Whether no token is unfinished. -/
def isIdle (l : Lexer) : Bool :=
  l.automaton.isIdle

/-- The line of the next character. -/
def line (l : Lexer) : Nat :=
  l.automaton.line

/-- Everything that is waiting to be read, in order. -/
def unread (l : Lexer) : List Char :=
  l.active.rest ++ l.queued.flatMap Source.rest

/-- Queues a source. If the active source has run dry, the first of the queue takes its place. -/
def add (l : Lexer) (source : Source) : Lexer :=
  match l.active.hasMore, l.queued ++ [source] with
  | (true, active), queued => { l with active, queued }
  | (false, _), [] => l
  | (false, _), first :: queued => { l with active := first, queued }

/-- Queues a text. -/
def addText (l : Lexer) (text : String) : Lexer :=
  l.add (Source.ofString text)

/-- Drops all input, all tokens and everything unfinished. -/
def reset (_ : Lexer) : Lexer :=
  initial

/-- Reads `active`, then the sources of `queued`, until a token is complete or they are used up. -/
def fill (a : Automaton) (active : Source) (queued : List Source) : Except (Stuck Lexer) Lexer :=
  if a.ready.isEmpty then
    match a.readToken active.rest with
    | .error ⟨error, a, rest⟩ => .error ⟨error, ⟨a, { rest }, queued⟩⟩
    | .ok (a, rest) =>
      if a.ready.isEmpty then
        match queued with
        | [] => .ok ⟨a, { rest }, []⟩
        | source :: queued => fill a source queued
      else .ok ⟨a, { rest }, queued⟩
  else .ok ⟨a, active, queued⟩

/-- The next token, which stays in the lexer; the final token once the sources are used up. -/
def peek (l : Lexer) : Except (Stuck Lexer) (Token × Lexer) :=
  match fill l.automaton l.active l.queued with
  | .error stuck => .error stuck
  | .ok l => .ok (l.automaton.ready[0]?.getD Token.endOfInput, l)

/-- Takes the next token out of the lexer. -/
def next (l : Lexer) : Except (Stuck Lexer) (Token × Lexer) :=
  match l.peek with
  | .error stuck => .error stuck
  | .ok (t, l) => .ok (t, { l with automaton := { l.automaton with ready := l.automaton.ready.eraseIdxIfInBounds 0 } })

/-- Declares the end of all input. -/
def finish (l : Lexer) : Except (Stuck Lexer) Lexer :=
  match l.automaton.finish with
  | .error stuck => .error ⟨stuck.error, { l with automaton := stuck.state }⟩
  | .ok automaton => .ok { l with automaton }

/-- Reads `active`, then all of `queued`. -/
def exhaust (a : Automaton) (active : Source) (queued : List Source) : Except (Stuck Lexer) Lexer :=
  match a.readAll active.rest with
  | .error ⟨error, a, rest⟩ => .error ⟨error, ⟨a, { rest }, queued⟩⟩
  | .ok a =>
    match queued with
    | [] => .ok ⟨a, { rest := [] }, []⟩
    | source :: queued => exhaust a source queued

/-- What a lexer gives when it is read to the end: the tokens before the first error, the error if there is one, and
the lexer that is left. -/
structure Drained where
  tokens : List Token
  error? : Option LexError
  lexer : Lexer

/-- Takes the tokens that are ready. -/
def takeReady (l : Lexer) : List Token × Lexer :=
  (l.automaton.ready.toList, { l with automaton := { l.automaton with ready := #[] } })

/-- Takes tokens up to the end of the sources or the first error. -/
def drain (l : Lexer) : Drained :=
  match exhaust l.automaton l.active l.queued with
  | .error stuck => ⟨stuck.state.takeReady.1, some stuck.error, stuck.state.takeReady.2⟩
  | .ok l => ⟨l.takeReady.1, none, l.takeReady.2⟩

end Lexer

/-- The tokens of a complete text. -/
def lex (text : String) : Except LexError (List Token) :=
  let body := (Lexer.initial.addText text).drain
  match body.error? with
  | some error => .error error
  | none =>
    match body.lexer.finish with
    | .error stuck => .error stuck.error
    | .ok lexer => .ok (body.tokens ++ lexer.drain.tokens)

end Zygo
