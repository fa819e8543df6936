/-!
# Command line arguments

Flags may stand anywhere among the arguments. The first word that is no flag names the command, and a word after `lex`
names the file to list. `help` and `version` count wherever they stand. A configuration that is accepted has what its
command needs.
-/

namespace Zygo

/-- What the program is asked to do. -/
inductive Command where
  /-- List the tokens of a file or of a given text. -/
  | lex
  /-- List the tokens of the input line by line. -/
  | repl
  | help
  | version
  deriving DecidableEq, Repr

/-- Why arguments are refused. -/
inductive ConfigError where
  | unknownCommand (word : String)
  | unknownOption (option : String)
  | missingExpr
  | unexpectedArgument (word : String)
  | missingInput
  | conflictingInput
  | exprWithoutLex
  deriving DecidableEq, Repr

/-- The wording of a refusal. -/
def ConfigError.message : ConfigError → String
  | unknownCommand word => "unknown command: " ++ word
  | unknownOption option => "unknown option: " ++ option
  | missingExpr => "-c requires an expression"
  | unexpectedArgument word => "unexpected argument: " ++ word
  | missingInput => "lex needs a file or -c <expr>"
  | conflictingInput => "lex takes a file or -c <expr>, not both"
  | exprWithoutLex => "-c is only valid with lex"

/-- Where the text to list comes from. -/
inductive Input where
  | file (path : String)
  | text (text : String)
  deriving DecidableEq, Repr

/-- What the arguments ask for. -/
structure Config where
  command : Command := .repl
  file? : Option String := none
  expr? : Option String := none
  quiet : Bool := false
  exitOnFail : Bool := false
  deriving DecidableEq, Repr

namespace Config

/-- What the arguments so far ask for; the command may be open. -/
structure Draft where
  command? : Option Command := none
  file? : Option String := none
  expr? : Option String := none
  quiet : Bool := false
  exitOnFail : Bool := false
  deriving DecidableEq, Repr

/-- Takes a word that is no flag: the command, or the file to list. -/
def Draft.word (d : Draft) (w : String) : Except ConfigError Draft :=
  match d.command?, d.file? with
  | none, _ =>
    if w = "lex" then .ok { d with command? := some .lex }
    else if w = "repl" then .ok { d with command? := some .repl }
    else .error (.unknownCommand w)
  | some .lex, none => .ok { d with file? := some w }
  | some _, _ => .error (.unexpectedArgument w)

/-- Takes one argument other than `-c`. -/
def Draft.argument (d : Draft) (a : String) : Except ConfigError Draft :=
  if a = "--quiet" ∨ a = "-quiet" then .ok { d with quiet := true }
  else if a = "--exitonfail" ∨ a = "-exitonfail" then .ok { d with exitOnFail := true }
  else if a = "help" ∨ a = "--help" ∨ a = "-h" then .ok { d with command? := some .help }
  else if a = "version" ∨ a = "--version" ∨ a = "-V" then .ok { d with command? := some .version }
  else if a.toList.head? = some '-' then .error (.unknownOption a)
  else d.word a

/-- Takes arguments in turn; the one after `-c` is its expression. -/
def Draft.read (d : Draft) : List String → Except ConfigError Draft
  | [] => .ok d
  | a :: args =>
    if a = "-c" then
      match args with
      | [] => .error .missingExpr
      | expr :: args => { d with expr? := some expr }.read args
    else
      match d.argument a with
      | .error e => .error e
      | .ok d => d.read args

/-- Settles an open command: an expression is listed, and else lines are read. -/
def Draft.settle (d : Draft) : Config :=
  { command := d.command?.getD (if d.expr?.isSome then .lex else .repl)
    file? := d.file?
    expr? := d.expr?
    quiet := d.quiet
    exitOnFail := d.exitOnFail }

/-- Refuses what no command can do. -/
def validate (c : Config) : Except ConfigError Unit :=
  match c.command, c.file?, c.expr? with
  | .lex, some _, some _ => .error .conflictingInput
  | .lex, none, none => .error .missingInput
  | .repl, _, some _ => .error .exprWithoutLex
  | _, _, _ => .ok ()

/-- The configuration that arguments ask for. -/
def ofArgs (args : List String) : Except ConfigError Config :=
  match Draft.read {} args with
  | .error e => .error e
  | .ok d =>
    match d.settle.validate with
    | .error e => .error e
    | .ok () => .ok d.settle

/-- The text to list; none but `lex` has one. -/
def input? (c : Config) : Option Input :=
  match c.command, c.file?, c.expr? with
  | .lex, some path, _ => some (.file path)
  | .lex, none, some text => some (.text text)
  | _, _, _ => none

end Config

end Zygo
