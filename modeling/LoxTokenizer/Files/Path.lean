/-!
# Paths as they are written

A path is what stands between its slashes, piece by piece. A piece that is empty, or a single dot
anywhere but at the front, says nothing and is passed over; the others are the components of the
path. What is done to paths here looks at the pieces alone and asks no file system, so two dots
are a component like any other.

* **`Path.depth_parent?`**: a parent has fewer components, so going up from a path comes to an end.
-/

namespace LoxTokenizer

/-- A path, by the pieces between its slashes. -/
structure Path where
  pieces : List String
  deriving DecidableEq, Repr

namespace Path

/-- Puts a character in front of the first piece. -/
def consPiece (c : Char) : List (List Char) → List (List Char)
  | [] => [[c]]
  | piece :: pieces => (c :: piece) :: pieces

/-- The pieces of a text between slashes. -/
def splitSlashes : List Char → List (List Char)
  | [] => [[]]
  | c :: rest => if c = '/' then [] :: splitSlashes rest else consPiece c (splitSlashes rest)

/-- The path that a text writes. -/
def ofText (text : String) : Path :=
  ⟨(splitSlashes text.toList).map String.ofList⟩

/-- A path as it is written. -/
def text (p : Path) : String :=
  String.intercalate "/" p.pieces

/-- The path of the root of all files. -/
def root : Path := ⟨["", ""]⟩

/-- The empty path. -/
def empty : Path := ⟨[""]⟩

/-- Whether a path starts with a slash. -/
def isAbsolute (p : Path) : Bool :=
  match p.pieces with
  | "" :: _ :: _ => true
  | _ => false

/-- Whether a path has a character with code point zero, which is in the name of no file. -/
def hasNul (p : Path) : Bool :=
  p.pieces.any fun piece => piece.toList.contains '\x00'

/-- Whether a piece is a component. A single dot is one only at the front. -/
def isComponent (isFront : Bool) (piece : String) : Bool :=
  piece != "" && (isFront || piece != ".")

/-- Drops the pieces at the end of a path that are no components. The pieces are listed from the
last to the first. -/
def dropIdle : List String → List String
  | [] => []
  | [piece] => if isComponent true piece then [piece] else []
  | piece :: above => if isComponent false piece then piece :: above else dropIdle above

/-- The path without its last component. What comes before is kept as it is written, up to the
end of the component before. Nothing is left of a single component but a slash it may start with,
and a path without a component has no parent. -/
def parent? (p : Path) : Option Path :=
  match dropIdle p.pieces.reverse with
  | [] => none
  | _ :: above =>
    match dropIdle above with
    | [] => some (if p.isAbsolute then root else empty)
    | kept => some ⟨kept.reverse⟩

/-- The last component, unless it is one dot or two. -/
def fileName? (p : Path) : Option String :=
  match dropIdle p.pieces.reverse with
  | [] => none
  | last :: _ => if last = "." ∨ last = ".." then none else some last

/-- The path of a name in the directory of a path. -/
def join (p : Path) (name : String) : Path :=
  if p.pieces.getLast? = some "" then ⟨p.pieces.dropLast ++ [name]⟩
  else ⟨p.pieces ++ [name]⟩

/-! ## Going up -/

/-- The number of components among pieces listed from the last to the first. -/
def countComponents : List String → Nat
  | [] => 0
  | [piece] => if isComponent true piece then 1 else 0
  | piece :: above => (if isComponent false piece then 1 else 0) + countComponents above

/-- The number of components of a path. -/
def depth (p : Path) : Nat :=
  countComponents p.pieces.reverse

theorem countComponents_dropIdle (pieces : List String) :
    countComponents (dropIdle pieces) = countComponents pieces := by
  fun_induction dropIdle pieces with
  | case1 => rfl
  | case2 => rfl
  | case3 piece h => simp [countComponents, h]
  | case4 => rfl
  | case5 piece above more h ih =>
    cases above with
    | nil => exact absurd rfl more
    | cons next above => simp [countComponents, h, ih]

theorem countComponents_cons_of_dropIdle {pieces above : List String} {last : String}
    (h : dropIdle pieces = last :: above) :
    countComponents pieces = countComponents above + 1 := by
  fun_induction dropIdle pieces with
  | case1 => simp at h
  | case2 piece isPiece =>
    obtain ⟨rfl, rfl⟩ := List.cons.inj h
    simp [countComponents, isPiece]
  | case3 => simp at h
  | case4 piece rest more isPiece =>
    obtain ⟨rfl, rfl⟩ := List.cons.inj h
    cases rest with
    | nil => exact absurd rfl more
    | cons next rest => simp [countComponents, isPiece, Nat.add_comm]
  | case5 piece rest more idle ih =>
    cases rest with
    | nil => exact absurd rfl more
    | cons next rest => simpa [countComponents, idle] using ih h

theorem depth_root : root.depth = 0 := by decide

theorem depth_empty : empty.depth = 0 := by decide

theorem depth_parent? {p q : Path} (h : p.parent? = some q) : q.depth < p.depth := by
  unfold parent? at h
  split at h
  · simp at h
  · rename_i last above found
    have components := countComponents_cons_of_dropIdle found
    split at h
    · obtain rfl := Option.some.inj h
      have none : (if p.isAbsolute then root else empty).depth = 0 := by
        split
        · exact depth_root
        · exact depth_empty
      rw [none, depth, components]
      exact Nat.succ_pos _
    · obtain rfl := Option.some.inj h
      rw [depth, depth, components, List.reverse_reverse, countComponents_dropIdle]
      exact Nat.lt_succ_self _

end Path

end LoxTokenizer
