import Zygo.Command.Run

/-!
# The program

Reads the arguments, files and lines of a real run. What is written is decided by `Command.run` and, at a terminal, by
the steps of `Repl`.
-/

open Zygo

/-- A code of the system, whether it comes as it is or negated. -/
def systemCode (code : UInt32) : UInt32 :=
  min code (-code)

/-- Why the system could not read a file. -/
def fileError : IO.Error → FileError
  | .noFileOrDirectory .. => .notFound
  | .inappropriateType _ code detail =>
    match systemCode code with
    | 20 => .notDirectory
    | 21 => .isDirectory
    | _ => .other detail
  | .invalidArgument _ code detail => if systemCode code = 36 then .nameTooLong else .other detail
  | e => .other (toString e)

/-- The text of a file of the system. -/
def readFileText (path : String) : IO (Except FileError String) := do
  try
    match String.fromUTF8? (← IO.FS.readBinFile path) with
    | some text => return .ok text
    | none => return .error .invalidText
  catch e => return .error (fileError e)

/-- Prints what a listing has written and forgets it. -/
def printListing (l : Listing) : IO Listing := do
  let out ← IO.getStdout
  out.putStr l.out
  out.flush
  IO.eprint l.reports
  return { l with out := "", errors := #[] }

/-- The loop at a terminal. -/
partial def promptLoop (quiet : Bool) (l : Listing) : IO UInt32 := do
  let l ← printListing (Repl.prompt quiet l)
  let bytes := (← (← IO.getStdin).getLine).toUTF8.toList
  let step := match Repl.splitBytes bytes with
    | line :: _ => Repl.feedLine l line
    | [] => Repl.close l
  match step with
  | .error (e, l) =>
    let _ ← printListing l
    IO.eprint (Command.errorLine e.message)
    return 1
  | .ok l =>
    if bytes.isEmpty then
      let _ ← printListing l
      return 0
    else promptLoop quiet l

/-- All the bytes of the standard input. -/
partial def readInput (stream : IO.FS.Stream) (bytes : ByteArray) : IO ByteArray := do
  let chunk ← stream.read 65536
  if chunk.isEmpty then return bytes else readInput stream (bytes ++ chunk)

def main (args : List String) : IO UInt32 := do
  let stdin ← IO.getStdin
  match Config.ofArgs args with
  | .ok { command := .repl, quiet, exitOnFail, .. } =>
    if ← stdin.isTty then
      if !quiet then IO.print Command.banner
      return ← promptLoop quiet { exitOnFail }
  | _ => pure ()
  let (input, path?) ← match Config.ofArgs args with
    | .ok { command := .repl, .. } => do pure ((← readInput stdin .empty).toList, none)
    | .ok { command := .lex, file? := some path, .. } => pure ([], some path)
    | _ => pure ([], none)
  let text ← match path? with
    | some path => readFileText path
    | none => pure (.error .notFound)
  let outcome := Command.run args input fun _ => text
  IO.print outcome.out
  IO.eprint outcome.err
  return UInt32.ofNat outcome.code
