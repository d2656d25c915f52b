import LoxTokenizer.Position

/-!
# Diagnostics

What went wrong, where, and how to mend it, with no decision yet on how it is shown. `render` is
the plain form; `Report` draws one over the text it is about.
-/

namespace LoxTokenizer

/-- A fault in words, the stretch of text it is about, and advice, where there are any. -/
structure Diagnostic where
  message : String
  span : Option Span
  suggestion : Option String
  deriving DecidableEq, Repr

namespace Diagnostic

/-- The plain form: the message, then a line for the place and a line for the advice. -/
def render (d : Diagnostic) : String :=
  "error: " ++ d.message
    ++ (match d.span with
        | some span => "\n  --> " ++ span.render
        | none => "")
    ++ (match d.suggestion with
        | some advice => "\n   = help: " ++ advice
        | none => "")

end Diagnostic

end LoxTokenizer
