import Zygo.Command.Config
import Zygo.Repl

/-!
# Running a command

`Command.run` is the whole program as a function: from the arguments, the input and the way to read files to what is
written and the exit code. Results go to the output, errors to the error output. The code is 2 for arguments that are
refused and 1 for a command that fails or a listing that passed over errors.
-/

namespace Zygo

/-- Why a file cannot be read. -/
inductive FileError where
  | notFound
  | notDirectory
  | isDirectory
  /-- A part of the path or the whole path is longer than the system takes. -/
  | nameTooLong
  | invalidText
  | other (detail : String)
  deriving DecidableEq, Repr

/-- The wording of the failure. -/
def FileError.message : FileError → String
  | notFound => "No such file or directory (os error 2)"
  | notDirectory => "Not a directory (os error 20)"
  | isDirectory => "Is a directory (os error 21)"
  | nameTooLong => "File name too long (os error 36)"
  | invalidText => "stream did not contain valid UTF-8"
  | other detail => detail

/-- A directory that holds plain files only, by name. -/
abbrev Directory := List (String × String)

namespace Directory

/-- Whether a part of a path names no file: it is empty, stays in place or goes up. -/
def isStep (part : String) : Bool :=
  part == "" || part == "." || part == ".."

/-- Whether the steps before a name stay in the directory: they neither start at the root nor go up. -/
def staysInside (steps : List String) : Bool :=
  steps.head? != some "" && !steps.contains ".."

/-- How many bytes a part of a path may have. -/
def maxName : Nat := 255

/-- How many bytes a path may have. -/
def maxPath : Nat := 4095

/-- The text of the file at a path, read from the directory. Outside of it there are directories but no files. -/
def read (d : Directory) (path : String) : Except FileError String :=
  let parts := (Atom.splitAt '/' path.toList).map String.ofList
  if maxPath < path.utf8ByteSize then .error .nameTooLong
  else match parts.dropWhile isStep with
    | [] => .error (if path = "" then .notFound else .isDirectory)
    | name :: below =>
      if maxName < name.utf8ByteSize then .error .nameTooLong
      else match d.lookup name with
        | none => .error .notFound
        | some text =>
          if !staysInside (parts.takeWhile isStep) then .error .notFound
          else if below.isEmpty then .ok text
          else .error .notDirectory

end Directory

namespace Command

/-- What a run writes and the code it ends with. -/
structure Outcome where
  code : Nat := 0
  out : String := ""
  err : String := ""
  deriving DecidableEq, Repr

/-- The version of the program. -/
def versionNumber : String := "0.1.0"

/-- The text of `help`. -/
def usage : String :=
  "Usage: zyc [options] [command]\n"
    ++ "\n"
    ++ "Commands:\n"
    ++ "  repl                 Tokenize stdin line by line (default)\n"
    ++ "  lex <file>           Tokenize a file and print its tokens\n"
    ++ "  lex -c <expr>        Tokenize an expression\n"
    ++ "  help                 Show this help message\n"
    ++ "  version              Show version information\n"
    ++ "\n"
    ++ "Options:\n"
    ++ "  -c <expr>            Expression to tokenize (implies lex)\n"
    ++ "  --quiet              No banner or prompts\n"
    ++ "  --exitonfail         Stop at the first lex error\n"
    ++ "\n"
    ++ "Logging:\n"
    ++ "  ZY_LOG=<filter>      Enable tracing, e.g. ZY_LOG=zy_lexer=trace\n"

/-- The line that greets at a terminal. -/
def banner : String :=
  "zygo tokenizer " ++ versionNumber ++ "; one token per line, Ctrl-D to exit\n"

/-- An error line. -/
def errorLine (message : String) : String :=
  "error: " ++ message ++ "\n"

/-- The listing of a text as a run. -/
def runText (text : String) (exitOnFail : Bool) : Outcome :=
  match Listing.ofText text exitOnFail with
  | .error stuck => { code := 1, out := stuck.state.out, err := stuck.state.reports ++ errorLine stuck.error.message }
  | .ok l =>
    if l.errors.isEmpty then { out := l.out }
    else { code := 1, out := l.out, err := l.reports ++ toString l.errors.size ++ " lex error(s)\n" }

/-- The listing of a file or a given text as a run. -/
def runLex (input : Input) (exitOnFail : Bool) (read : String → Except FileError String) : Outcome :=
  match input with
  | .text text => runText text exitOnFail
  | .file path =>
    match read path with
    | .ok text => runText text exitOnFail
    | .error e => { code := 1, err := errorLine ("cannot read '" ++ path ++ "': " ++ e.message) }

/-- The loop over the lines of an input as a run. -/
def runRepl (input : List UInt8) (quiet exitOnFail : Bool) : Outcome :=
  match Repl.run input quiet exitOnFail with
  | .ok l => { out := l.out, err := l.reports }
  | .error (e, l) => { code := 1, out := l.out, err := l.reports ++ errorLine e.message }

/-- A run of the program. An input that is no terminal is read without prompts. -/
def run (args : List String) (input : List UInt8) (read : String → Except FileError String) : Outcome :=
  match Config.ofArgs args with
  | .error e => { code := 2, out := usage, err := errorLine e.message ++ "\n" }
  | .ok c =>
    match c.command with
    | .help => { out := usage }
    | .version => { out := "zyc " ++ versionNumber ++ "\n" }
    | .repl => runRepl input true c.exitOnFail
    | .lex =>
      match c.input? with
      | some source => runLex source c.exitOnFail read
      | none => { code := 2, out := usage }

end Command

end Zygo
