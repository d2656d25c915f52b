import LoxTokenizer.Diagnostic
import LoxTokenizer.Report.Lines
import LoxTokenizer.Report.Paint
import LoxTokenizer.Text.Blank
import LoxTokenizer.Text.Width

/-!
# Reports

A report draws a diagnostic over the source it is about: the message, the place, the line or the
first and last lines that the label covers, a pointer from the label to the message, and the
advice. Character offsets count the characters of the source, and columns of the screen are
counted in the widths of the characters shown.

A diagnostic without a span is shown in its plain form. A label cannot end before it starts, so
`render?` has no answer for such a span.
-/

namespace LoxTokenizer.Report

/-- The stretch of source that a report points at: character offsets from `start` up to `stop`. -/
structure Label where
  start : Nat
  stop : Nat
  deriving DecidableEq, Repr

namespace Label

/-- The label of a span. An empty span still gets one character. -/
def ofSpan (source : List Char) (span : Span) : Label :=
  let start := Text.charIndex source span.start.offset
  ⟨start, if span.isEmpty then start + 1 else Text.charIndex source span.stop.offset⟩

/-- The offset of the last character of a label, or of its start if it has none. -/
def last (l : Label) : Nat :=
  max (l.stop - 1) l.start

/-- Whether a label covers the character at an offset. -/
def covers (l : Label) (offset : Nat) : Bool :=
  decide (l.start ≤ offset) && decide (offset < l.stop)

/-- The offset that the pointer of a label hangs from: its middle, rounded down. -/
def middle (l : Label) : Nat :=
  max ((l.start + l.stop) / 2) l.start

end Label

/-! ## Columns -/

/-- What is shown of a line: all but the white space at its end. -/
def Line.shown (l : Line) : List Char :=
  (l.chars.reverse.dropWhile Text.isBlank).reverse

/-- The width of a character in some column. A tab goes up to the next multiple of four. -/
def charWidth (column : Nat) (c : Char) : Nat :=
  if c = '\t' then 4 - column % 4
  else if Text.isBlank c then 1
  else Text.displayWidth c

/-- The widths of the first columns of a line. Past what is shown every column is one wide. -/
def Line.widths (l : Line) (columns : Nat) : List Nat :=
  let shown := (l.shown.take columns).mapIdx charWidth
  shown ++ List.replicate (columns - shown.length) 1

/-- The text of a line: white space as so many spaces, and the label in its colour. -/
def Line.text (l : Line) (label : Label) : String :=
  String.join <| l.shown.mapIdx fun column c =>
    let colour : Colour := if label.covers (l.start + column) then .fault else .source
    if Text.isBlank c then colour.paintEach (spaces (charWidth column c))
    else colour.paint (String.singleton c)

/-! ## Margins -/

/-- The margin of a row that shows the line of that number. -/
def numberedMargin (width : Nat) (l : Line) : String :=
  let digits := toString l.number
  " " ++ Colour.paint .margin (spaces (width - digits.length) ++ digits ++ " │") ++ " "

/-- The margin of a row that shows no line. -/
def blankMargin (width : Nat) : String :=
  " " ++ Colour.paint .faintMargin (spaces (width + 1) ++ "│") ++ " "

/-- The margin of a row that stands for the lines left out. -/
def gapMargin (width : Nat) : String :=
  " " ++ Colour.paint .faintMargin (spaces (width + 1) ++ "┆") ++ " "

/-! ## A label on one line -/

/-- So many painted strokes. -/
def strokes (n : Nat) : String :=
  Colour.paintEach .fault (String.ofList (List.replicate n '─'))

/-- The cell of a column in the row under a line: the label, and the pointer at its middle. -/
def underline (label : Label) (offset width : Nat) : String :=
  if offset = label.middle then
    if label.start = label.stop then
      Colour.paint .fault "│" ++ Colour.paintEach .fault (spaces (width - 1))
    else
      Colour.paint .fault "┬" ++ strokes (width - 1)
  else if label.covers offset then
    strokes width
  else
    spaces width

/-- The cell of a column in the row that leads from the pointer to the message. -/
def lead (label : Label) (offset width : Nat) : String :=
  if offset = label.middle then Colour.paint .fault "╰" ++ strokes (width - 1)
  else if label.middle < offset then strokes width
  else spaces width

/-- A row of cells over the columns of a line up to one past the label. -/
def row (l : Line) (label : Label) (cell : Label → Nat → Nat → String) : String :=
  String.join <| (l.widths (label.stop - l.start + 2)).mapIdx fun column width =>
    if width = 0 then "" else cell label (l.start + column) width

/-- The rows for a label that lies on one line. -/
def oneLine (margin : Nat) (l : Line) (label : Label) (message : String) : String :=
  if l.stop < label.stop then blankMargin margin ++ "\n"
  else
    numberedMargin margin l ++ l.text label ++ "\n"
      ++ blankMargin margin ++ row l label underline ++ "\n"
      ++ blankMargin margin ++ row l label lead ++ " " ++ message ++ "\n"

/-! ## A label over several lines -/

/-- The width of a line up to one column past its ending. -/
def Line.fullWidth (l : Line) : Nat :=
  (l.widths (l.chars.length + 2)).foldl (· + ·) 0

/-- The rows for a label that starts on one line and ends on a later one. -/
def severalLines (margin : Nat) (first last : Line) (label : Label) (message : String) : String :=
  let arrow := fun corner => Colour.paintEach .fault (corner ++ "─▶ ")
  numberedMargin margin first ++ arrow "╭" ++ first.text label ++ "\n"
    ++ (if last.number - first.number > 1 then
          gapMargin margin ++ Colour.paint .fault "┆" ++ spaces 3 ++ "\n"
        else "")
    ++ numberedMargin margin last ++ arrow "├" ++ last.text label ++ "\n"
    ++ blankMargin margin ++ Colour.paint .fault "│" ++ spaces (3 + last.fullWidth) ++ "\n"
    ++ blankMargin margin ++ Colour.paint .fault "╰" ++ strokes (3 + last.fullWidth)
    ++ " " ++ message ++ "\n"

/-! ## The whole report -/

/-- The margin of the rows with the advice. A label over several lines that starts with the second
line of the source still has its rail drawn. -/
def helpMargin (margin : Nat) (all : List Line) (first last : Line) (label : Label) : String :=
  blankMargin margin ++
    if first.number = last.number then ""
    else if all[1]?.any fun l => l.start = label.start then
      Colour.paint .fault "│" ++ spaces 3
    else spaces 4

/-- The rows with the advice. -/
def help (margin advice : String) : String :=
  margin ++ "\n" ++ margin ++ Colour.paint .help "Help" ++ ": " ++ advice ++ "\n"

/-- The part of a report that shows the source, between the message and the last row. -/
def body (file : String) (all : List Line) (first last : Line) (margin : Nat) (label : Label)
    (d : Diagnostic) : String :=
  spaces (margin + 2) ++ Colour.paintEach .margin "╭─[" ++ file ++ ":" ++ toString first.number
    ++ ":" ++ toString (label.start - first.start + 1) ++ Colour.paint .margin "]" ++ "\n"
    ++ spaces (margin + 2) ++ Colour.paint .margin "│" ++ "\n"
    ++ (if first.number = last.number then oneLine margin first label d.message
        else severalLines margin first last label d.message)
    ++ (match d.suggestion with
        | some advice => help (helpMargin margin all first last label) advice
        | none => "")
    ++ Colour.paint .margin (String.ofList (List.replicate (margin + 2) '─') ++ "╯") ++ "\n"

/-- A diagnostic with a label drawn over a source. A source without a line at the label has only
the message. -/
def draw (file : String) (source : List Char) (label : Label) (d : Diagnostic) : String :=
  let all := lines source
  let lastOffset := if label.start < label.stop then label.stop - 1 else label.start
  let found := do
    let first ← lineAt? all label.start
    let last ← lineAt? all lastOffset
    let widest ← lineAt? all label.last
    some (body file all first last (toString widest.number).length label d)
  Colour.paint .fault "Error:" ++ " " ++ d.message ++ "\n"
    ++ (if source.length < label.start ∨ source.length < lastOffset then "" else found.getD "")

/-- The report of a diagnostic over a source, unless its label would end before it starts. -/
def render? (file source : String) (d : Diagnostic) : Option String :=
  match d.span with
  | none => some (d.render ++ "\n")
  | some span =>
    let label := Label.ofSpan source.toList span
    if label.stop < label.start then none else some (draw file source.toList label d)

end LoxTokenizer.Report
