import LoxTokenizer.CommandLine

/-!
# The program

Asks the file system what the run needs to know, runs, and writes what the run leaves. At the
prompt lines are read and answered one by one, so that each answer is there before the next line
is asked for. Where the input cannot be read, or the output cannot be written, the error output
tells so, and the run ends with the status of such a failure.
-/

namespace LoxTokenizer

/-! ## Files -/

/-- What the file system says about a path. -/
structure PathAnswers where
  content : Except FileError (List UInt8)
  isFile : Bool
  canonical : Option Path

/-- The kind of thing that a path leads to. -/
def kindOf? (p : Path) : IO (Option IO.FS.FileType) := do
  try
    let real ← IO.FS.realPath p.text
    return some (← real.metadata).type
  catch _ =>
    return none

/-- The bytes of a file, or why they cannot be had. -/
def contentOf (p : Path) : IO (Except FileError (List UInt8)) := do
  if p.hasNul then
    return .error .nulInPath
  if let some .dir ← kindOf? p then
    return .error .isDirectory
  try
    return .ok (← IO.FS.readBinFile p.text).data.toList
  catch
    | .noFileOrDirectory _ _ _ => return .error .notFound
    | .inappropriateType _ _ _ => return .error .notDirectory
    | .invalidArgument _ 36 _ => return .error .nameTooLong
    | e => return .error (.other (toString e))

/-- The absolute path without links of what a path leads to. -/
def canonicalOf? (p : Path) : IO (Option Path) := do
  try
    return some (.ofText (← IO.FS.realPath p.text).toString)
  catch _ =>
    return none

/-- Asks about a path. -/
def answersFor (p : Path) : IO PathAnswers := do
  return ⟨← contentOf p, (← kindOf? p) == some .file, ← canonicalOf? p⟩

/-- A disk that knows some paths. -/
def diskOf (paths : List Path) : IO Disk := do
  let known ← paths.mapM fun p => do return (p, ← answersFor p)
  let here ← try IO.currentDir catch _ => pure "."
  return {
    read := fun p => ((known.lookup p).map fun a => a.content).getD (.error .notFound)
    isFile := fun p => ((known.lookup p).map fun a => a.isFile).getD false
    canonical? := fun p => (known.lookup p).bind fun a => a.canonical
    workingDirectory := .ofText here.toString }

/-- The disk for a run with some flags: it knows the file, the manifest that is named, and all
paths at which a manifest may be. -/
def diskFor (flags : Flags) : IO Disk := do
  let named := flags.file.toList ++ flags.config.toList
  let start := Settings.searchStart (← diskOf named) flags.file
  diskOf (named ++ Manifest.candidates start)

/-! ## Failures -/

/-- Does something with the input or the output. If that fails, the error output tells what could
not be done, and there is no answer. -/
def orComplain {α : Type} (errors : IO.FS.Stream) (action : String) (act : IO α) :
    IO (Option α) := do
  try
    return some (← act)
  catch e =>
    errors.putStr (errorLine ("could not " ++ action ++ ": " ++ toString e))
    return none

/-- Writes at once, without waiting for more. -/
def writeNow (output : IO.FS.Stream) (bytes : List UInt8) : IO Unit := do
  output.write ⟨bytes.toArray⟩
  output.flush

/-! ## The prompt -/

/-- Reads a line, with the line feed that ends it if there is one. -/
partial def readLine (input : IO.FS.Stream) (line : List UInt8) : IO (List UInt8) := do
  match (← input.read 1).data.toList with
  | [] => return line.reverse
  | b :: _ => if b = Prompt.lineFeed then return (b :: line).reverse else readLine input (b :: line)

/-- Asks for lines and answers them until the input ends. -/
partial def converse (settings : Settings) (input output errors : IO.FS.Stream) :
    IO ExitStatus := do
  let some _ ← orComplain errors "write prompt" (writeNow output (utf8 settings.prompt))
    | return .ioFailure
  let some line ← orComplain errors "read input" (readLine input [])
    | return .ioFailure
  if line.isEmpty then
    let some _ ← orComplain errors "write prompt" (writeNow output [Prompt.lineFeed])
      | return .ioFailure
    return .success
  match Prompt.reply settings line with
  | .unreadable =>
    errors.putStr Prompt.inputFailure
    return .ioFailure
  | .report text =>
    errors.putStr text
    converse settings input output errors
  | .listing pieces =>
    let some _ ← orComplain errors "write tokens" (writeNow output (pieces.flatMap utf8))
      | return .ioFailure
    converse settings input output errors

/-! ## Runs -/

/-- What is said about wrong arguments. -/
def UsageError.message : UsageError → String
  | .unknownArgument => "unexpected argument"
  | .invalidValue => "invalid or missing value"
  | .tooManyValues => "unexpected value"
  | .argumentConflict => "argument given twice"

/-- Writes what a run leaves. Where its tokens cannot be written, they are not counted either. -/
def deliver (o : Outcome) : IO ExitStatus := do
  let errors ← IO.getStderr
  let some _ ← orComplain errors "write tokens" (writeNow (← IO.getStdout) o.output)
    | return .ioFailure
  errors.putStr o.errors
  return o.status

/-- Writes what the arguments ask for instead of a run. If that fails, nothing is said of it. -/
def announce (o : Outcome) : IO ExitStatus := do
  try
    writeNow (← IO.getStdout) o.output
  catch _ =>
    pure ()
  return o.status

/-- Runs with some flags. -/
def runFlags (flags : Flags) : IO ExitStatus := do
  let disk ← diskFor flags
  match flags.file, Settings.load disk flags with
  | none, .ok settings => converse settings (← IO.getStdin) (← IO.getStdout) (← IO.getStderr)
  | _, _ => deliver (CommandLine.runWith disk [] flags)

/-- Runs with some arguments. -/
def runArguments (arguments : List String) : IO ExitStatus := do
  match Flags.parse arguments with
  | .ok flags => runFlags flags
  | .error interruption =>
    if let .error e := interruption then
      (← IO.getStderr).putStr (errorLine (e.message ++ "; for more information, try '--help'"))
    announce (CommandLine.interrupted interruption)

end LoxTokenizer

/-- Runs the program and ends with the status of the run. -/
def main (arguments : List String) : IO UInt32 := do
  return (← LoxTokenizer.runArguments arguments).code.toUInt32
