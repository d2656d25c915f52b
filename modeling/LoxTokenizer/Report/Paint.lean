/-!
# Coloured text for a terminal

A piece of text in a colour is wrapped in the control sequences that set the colour and take it
back.
-/

namespace LoxTokenizer.Report

/-- The colours of a report. -/
inductive Colour where
  /-- The fault itself and everything that points to it. -/
  | fault
  /-- Line numbers and the frame. -/
  | margin
  /-- The margin of rows that show no source. -/
  | faintMargin
  /-- Source that is not at fault. -/
  | source
  /-- The word before an advice. -/
  | help
  deriving DecidableEq, Repr

namespace Colour

/-- The parameter of the control sequence that sets a colour. -/
def code : Colour → String
  | .fault => "31"
  | .margin => "38;5;246"
  | .faintMargin => "38;5;240"
  | .source => "38;5;249"
  | .help => "38;5;115"

/-- A text in a colour. -/
def paint (colour : Colour) (text : String) : String :=
  "\x1b[" ++ colour.code ++ "m" ++ text ++ "\x1b[0m"

/-- A text in which each character is painted on its own. -/
def paintEach (colour : Colour) (text : String) : String :=
  String.join (text.toList.map fun c => colour.paint (String.singleton c))

end Colour

/-- So many spaces. -/
def spaces (n : Nat) : String :=
  String.ofList (List.replicate n ' ')

end LoxTokenizer.Report
