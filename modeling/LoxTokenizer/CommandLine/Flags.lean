import LoxTokenizer.Files.Path
import LoxTokenizer.Output.Format

/-!
# Flags

The arguments of the program are read from left to right. An argument that starts with two
dashes is an option or a switch by its long name, one that starts with a single dash is a row of
switches by their letters, and any other is the value that an option waits for, or else the file.
After two dashes alone every argument is a file. There is one file at most, and no option or
switch may come twice.

The value of an option may be attached with an equals sign. A value that is an argument of its own,
and the file, are not looked at before the next option, switch or file that is known, or the end.
So an unknown argument is told even if a value before it is wrong.
-/

namespace LoxTokenizer

/-- What the arguments ask for. -/
structure Flags where
  file : Option Path
  format : Option OutputFormat
  noTrivia : Bool
  eof : Bool
  config : Option Path
  quiet : Bool
  deriving DecidableEq, Repr

/-- What is wrong with the arguments. -/
inductive UsageError where
  /-- An option or switch that is not known, or a second file. -/
  | unknownArgument
  /-- A value that is missing, empty or not among the possible ones. -/
  | invalidValue
  /-- A value attached to a switch. -/
  | tooManyValues
  /-- An option or switch that comes twice. -/
  | argumentConflict
  deriving DecidableEq, Repr

/-- Why the arguments do not lead to a run. -/
inductive Interruption where
  | error (e : UsageError)
  /-- Help is asked for, in the short form or the long one. -/
  | help (long : Bool)
  | version
  deriving DecidableEq, Repr

/-- The options, which take a value. -/
inductive ValueFlag where
  | format
  | config
  deriving DecidableEq, Repr

/-- The switches, which take none. -/
inductive SwitchFlag where
  | noTrivia
  | eof
  | quiet
  | help
  | version
  deriving DecidableEq, Repr

namespace Flags

/-- Nothing is asked for. -/
def unset : Flags :=
  ⟨none, none, false, false, none, false⟩

/-- The option or switch of a long name. -/
def ofLongName? : String → Option (ValueFlag ⊕ SwitchFlag)
  | "format" => some (.inl .format)
  | "config" => some (.inl .config)
  | "no-trivia" => some (.inr .noTrivia)
  | "eof" => some (.inr .eof)
  | "quiet" => some (.inr .quiet)
  | "help" => some (.inr .help)
  | "version" => some (.inr .version)
  | _ => none

/-- The switch of a letter. -/
def ofLetter? : Char → Option SwitchFlag
  | 'q' => some .quiet
  | 'h' => some .help
  | 'V' => some .version
  | _ => none

/-- A value that has been met and not been looked at. -/
inductive Pending where
  /-- The value of an option, which may still be missing. -/
  | value (option : ValueFlag) (text : Option String)
  | file (text : String)
  deriving DecidableEq, Repr

/-- The state of reading arguments. -/
structure Reading where
  flags : Flags
  pending : Option Pending
  /-- Whether two dashes alone have been met. -/
  filesOnly : Bool
  /-- Whether a file has been met. -/
  hasFile : Bool
  deriving DecidableEq, Repr

namespace Reading

/-- Nothing has been read. -/
def start : Reading :=
  ⟨unset, none, false, false⟩

/-- Sets an option that is not set yet, if the value is one it can have. -/
def setOption (r : Reading) (option : ValueFlag) (text : String) : Except Interruption Reading :=
  match option with
  | .format =>
    if r.flags.format.isSome then .error (.error .argumentConflict)
    else
      match OutputFormat.ofName? text with
      | some format => .ok { r with flags := { r.flags with format := some format } }
      | none => .error (.error .invalidValue)
  | .config =>
    if r.flags.config.isSome then .error (.error .argumentConflict)
    else if text.isEmpty then .error (.error .invalidValue)
    else .ok { r with flags := { r.flags with config := some (.ofText text) } }

/-- Looks at the value that is pending. -/
def settle (r : Reading) : Except Interruption Reading :=
  let settled := { r with pending := none }
  match r.pending with
  | none => .ok settled
  | some (.value _ none) => .error (.error .invalidValue)
  | some (.value option (some text)) => settled.setOption option text
  | some (.file text) =>
    if text.isEmpty then .error (.error .invalidValue)
    else .ok { settled with flags := { settled.flags with file := some (.ofText text) } }

/-- Sets a switch that is not set yet. Help and the version are given at once. -/
def setSwitch (r : Reading) (switch : SwitchFlag) (isLong : Bool) :
    Except Interruption Reading :=
  let conflict : Except Interruption Reading := .error (.error .argumentConflict)
  match switch with
  | .noTrivia =>
    if r.flags.noTrivia then conflict
    else .ok { r with flags := { r.flags with noTrivia := true } }
  | .eof =>
    if r.flags.eof then conflict else .ok { r with flags := { r.flags with eof := true } }
  | .quiet =>
    if r.flags.quiet then conflict else .ok { r with flags := { r.flags with quiet := true } }
  | .help => .error (.help isLong)
  | .version => .error .version

/-- Reads an argument by its long name, with the value attached to it if there is one. -/
def long (r : Reading) (name : String) (attached : Option String) : Except Interruption Reading :=
  match ofLongName? name, attached with
  | none, _ => .error (.error .unknownArgument)
  | some (.inl option), some text => r.settle.bind fun r => r.setOption option text
  | some (.inl option), none =>
    r.settle.map fun r => { r with pending := some (.value option none) }
  | some (.inr _), some _ => .error (.error .tooManyValues)
  | some (.inr switch), none => r.settle.bind fun r => r.setSwitch switch true

/-- Reads a switch by its letter. -/
def letter (r : Reading) (c : Char) : Except Interruption Reading :=
  match ofLetter? c with
  | none => .error (.error .unknownArgument)
  | some switch => r.settle.bind fun r => r.setSwitch switch false

/-- Reads a file. -/
def file (r : Reading) (text : String) : Except Interruption Reading :=
  if r.hasFile then .error (.error .unknownArgument)
  else r.settle.map fun r => { r with pending := some (.file text), hasFile := true }

/-- Reads an argument that does not start with a dash, or is a single one: a value that an
option waits for, or else the file. -/
def plain (r : Reading) (text : String) : Except Interruption Reading :=
  match r.pending with
  | some (.value option none) => .ok { r with pending := some (.value option (some text)) }
  | _ => r.file text

/-- The value attached with an equals sign. -/
def attached? : List Char → Option String
  | '=' :: value => some (String.ofList value)
  | _ => none

/-- Reads an argument. -/
def argument (r : Reading) (text : String) : Except Interruption Reading :=
  if r.filesOnly then r.file text
  else
    match text.toList with
    | ['-', '-'] => .ok { r with filesOnly := true }
    | '-' :: '-' :: rest =>
      r.long (String.ofList (rest.takeWhile (· != '='))) (attached? (rest.dropWhile (· != '=')))
    | '-' :: c :: rest => (c :: rest).foldlM letter r
    | _ => r.plain text

end Reading

/-- What some arguments ask for. -/
def parse (arguments : List String) : Except Interruption Flags :=
  (arguments.foldlM Reading.argument .start).bind fun r => r.settle.map fun r => r.flags

end Flags

end LoxTokenizer
