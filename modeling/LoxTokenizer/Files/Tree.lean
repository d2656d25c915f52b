import LoxTokenizer.Files.Disk

/-!
# File trees

A tree of directories, regular files and symbolic links, and the answers it gives as a disk. What
is in the tree is found by location: the names on the way from the root, links taken out. A path
is followed piece by piece; a link is replaced by its target, and after `maxLinks` of them the
path is given up. No name in a directory is longer than `maxNameBytes`, and no path by which a
file is opened is longer than `maxPathBytes`; taking the links out of a path has no such bound.
-/

namespace LoxTokenizer

/-- What a tree has at a location. -/
inductive FileNode where
  | file (content : List UInt8)
  | directory
  | link (target : Path)
  deriving DecidableEq, Repr

/-- A tree: what it has at a location, given by names from the root. -/
structure FileTree where
  node? : List String → Option FileNode

namespace FileTree

/-- How many links are followed on the way along one path. -/
def maxLinks : Nat := 40

/-- How many bytes a name may have. -/
def maxNameBytes : Nat := 255

/-- How many bytes a path may have by which a file is opened. -/
def maxPathBytes : Nat := 4095

/-- The tree with some entries. What lies on the way to an entry is a directory. -/
def ofEntries (entries : List (List String × FileNode)) : FileTree where
  node? location :=
    match entries.lookup location with
    | some node => some node
    | none =>
      if entries.any fun entry => location.isPrefixOf entry.1 then some .directory else none

/-- Follows the pieces of a path from a directory, through at most so many links. -/
def follow (tree : FileTree) (links : Nat) (here : List String) :
    List String → Except FileError (List String)
  | [] => .ok here
  | piece :: rest =>
    if piece = "" ∨ piece = "." then tree.follow links here rest
    else if piece = ".." then tree.follow links here.dropLast rest
    else
      let there := here ++ [piece]
      if maxNameBytes < piece.utf8ByteSize then .error .nameTooLong
      else
        match tree.node? there with
        | none => .error .notFound
        | some .directory => tree.follow links there rest
        | some (.file _) => if rest.isEmpty then .ok there else .error .notDirectory
        | some (.link target) =>
          match links with
          | 0 => .error .tooManyLinks
          | links + 1 =>
            tree.follow links (if target.isAbsolute then [] else here) (target.pieces ++ rest)
termination_by pieces => (links, pieces.length)

/-- The location that a path leads to from a working directory. -/
def locate (tree : FileTree) (workingDirectory : List String) (p : Path) :
    Except FileError (List String) :=
  if p.hasNul then .error .nulInPath
  else if p = .empty then .error .notFound
  else tree.follow maxLinks (if p.isAbsolute then [] else workingDirectory) p.pieces

/-- What a tree has at a location. The root is a directory. -/
def nodeAt (tree : FileTree) (location : List String) : FileNode :=
  (tree.node? location).getD .directory

/-- What a path opens from a working directory. -/
def openAt (tree : FileTree) (workingDirectory : List String) (p : Path) :
    Except FileError FileNode :=
  if !p.hasNul && maxPathBytes < p.text.utf8ByteSize then .error .nameTooLong
  else (tree.locate workingDirectory p).map tree.nodeAt

/-- The absolute path of a location. -/
def pathTo (location : List String) : Path :=
  if location.isEmpty then .root else ⟨"" :: location⟩

/-- A tree as a disk with a working directory. -/
def disk (tree : FileTree) (workingDirectory : List String) : Disk where
  read p :=
    match tree.openAt workingDirectory p with
    | .error e => .error e
    | .ok (.file content) => .ok content
    | .ok _ => .error .isDirectory
  isFile p :=
    match tree.openAt workingDirectory p with
    | .ok (.file _) => true
    | _ => false
  canonical? p := (tree.locate workingDirectory p).toOption.map pathTo
  workingDirectory := pathTo workingDirectory

end FileTree

end LoxTokenizer
