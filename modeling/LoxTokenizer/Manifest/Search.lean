import LoxTokenizer.Log
import LoxTokenizer.Manifest

/-!
# Searching for a manifest

The manifest of a directory is the one in it or in the nearest directory above it. Going up looks
at the path as it is written and takes off one component at a time; the empty path, which is what
is left of a relative one, is looked at too. Only a regular file counts, so a directory of that
name, or a link to nothing, is passed over; but a file that is found is the manifest even if it
cannot be read.
-/

namespace LoxTokenizer.Manifest

/-- The paths at which the manifest of a directory may be, from the nearest on. -/
def candidates (start : Path) : List Path :=
  start.join manifestFileName ::
    match _h : start.parent? with
    | some above => candidates above
    | none => []
termination_by start.depth
decreasing_by exact Path.depth_parent? _h

/-- The path of the manifest that governs a directory. -/
def find? (disk : Disk) (start : Path) : Option Path :=
  (candidates start).find? disk.isFile

/-- The manifest that governs a directory, or the defaults where there is none. -/
def discover (disk : Disk) (start : Path) : Except ManifestError Manifest :=
  match find? disk start with
  | some p => load disk p
  | none => .ok .default

/-- What a search notes about its result. -/
def discoverLog (disk : Disk) (start : Path) : List LogRecord :=
  match find? disk start with
  | some p => [⟨.debug, "using manifest " ++ p.text⟩]
  | none =>
    [⟨.debug, "no " ++ manifestFileName ++ " found above " ++ start.text ++ ", using defaults"⟩]

end LoxTokenizer.Manifest
