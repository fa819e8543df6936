import Zygo.Main
import Zygo.Proofs.Atom
import Zygo.Proofs.Atom.Forms
import Zygo.Proofs.Command.Flags
import Zygo.Proofs.Command.Input
import Zygo.Proofs.Lexer.Append
import Zygo.Proofs.Lexer.Calls
import Zygo.Proofs.Lexer.Drain
import Zygo.Proofs.Lexer.Failures
import Zygo.Proofs.Lexer.Grammar
import Zygo.Proofs.Lexer.Layout
import Zygo.Proofs.Lexer.Outcome
import Zygo.Proofs.Lexer.Reading
import Zygo.Proofs.Lexer.Spelling
import Zygo.Proofs.Listing.Calls
import Zygo.Proofs.Listing.Lines
import Zygo.Proofs.Listing.Restart
import Zygo.Proofs.Listing.Text
import Zygo.Proofs.Number.Decimal
import Zygo.Proofs.Number.Nearest
import Zygo.Proofs.Number.Numeral
import Zygo.Proofs.Number.Positional
import Zygo.Proofs.Number.Shortest
import Zygo.Proofs.Record.Finding
import Zygo.Proofs.Record.Log
import Zygo.Proofs.Record.Slots
import Zygo.Proofs.Render.Links
import Zygo.Proofs.Render.Loops
import Zygo.Proofs.Render.Shown
import Zygo.Proofs.Repl.Lines
import Zygo.Proofs.Repl.Prompts
import Zygo.Proofs.Scope.Bounded
import Zygo.Proofs.Scope.Chains
import Zygo.Proofs.Scope.Closures
import Zygo.Proofs.Scope.Sharing
import Zygo.Proofs.Session.Arguments
import Zygo.Proofs.Session.Builtins
import Zygo.Proofs.Session.Changes
import Zygo.Proofs.Session.Collisions
import Zygo.Proofs.Session.Dispatch
import Zygo.Proofs.Session.Globals
import Zygo.Proofs.Session.Import
import Zygo.Proofs.Session.Kinds
import Zygo.Proofs.Session.Steps
import Zygo.Proofs.Session.Types
import Zygo.Proofs.Symbol
import Zygo.Proofs.Symbol.Paths
import Zygo.Proofs.Symbol.Requests
import Zygo.Proofs.Value.Characters
import Zygo.Proofs.Value.Decoding
import Zygo.Proofs.Value.Equality
import Zygo.Proofs.Value.Keys
import Zygo.Proofs.Value.Lists
import Zygo.Proofs.Value.Literals
import Zygo.Proofs.Value.Tokens
import Zygo.Session.Call
