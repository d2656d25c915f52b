import LoxTokenizer.Files.Path

/-!
# What a program asks of a file system

A program reads files, asks whether a path leads to a regular file, has links taken out of a path,
and knows the directory it works in. A `Disk` holds the answers; nothing else about files matters
to the program, and nothing changes while it runs.
-/

namespace LoxTokenizer

/-- Why a file cannot be read. -/
inductive FileError where
  | notFound
  | notDirectory
  | isDirectory
  | tooManyLinks
  | nameTooLong
  /-- A character with code point zero in a path. -/
  | nulInPath
  | notText
  /-- Anything else that a file system may say. -/
  | other (description : String)
  deriving DecidableEq, Repr

namespace FileError

/-- The error in words. -/
def message : FileError → String
  | .notFound => "No such file or directory (os error 2)"
  | .notDirectory => "Not a directory (os error 20)"
  | .isDirectory => "Is a directory (os error 21)"
  | .tooManyLinks => "Too many levels of symbolic links (os error 40)"
  | .nameTooLong => "File name too long (os error 36)"
  | .nulInPath => "file name contained an unexpected NUL byte"
  | .notText => "stream did not contain valid UTF-8"
  | .other description => description

end FileError

/-- The answers of a file system. -/
structure Disk where
  /-- The bytes of a file. -/
  read : Path → Except FileError (List UInt8)
  /-- Whether a path leads, through any links, to a regular file. -/
  isFile : Path → Bool
  /-- The absolute path without links of what a path leads to. -/
  canonical? : Path → Option Path
  /-- The directory that relative paths start from. -/
  workingDirectory : Path

/-- The text that some bytes are the UTF-8 form of. -/
def decodeUtf8? (bytes : List UInt8) : Option String :=
  String.fromUTF8? ⟨bytes.toArray⟩

namespace Disk

/-- The text of a file. -/
def readText (disk : Disk) (p : Path) : Except FileError String :=
  match disk.read p with
  | .error e => .error e
  | .ok bytes =>
    match decodeUtf8? bytes with
    | some text => .ok text
    | none => .error .notText

end Disk

end LoxTokenizer
