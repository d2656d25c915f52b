/-!
# Log records

What a program notes about its work, with how much it matters. A threshold lets through the
records that matter at least so much.
-/

namespace LoxTokenizer

/-- How much a record matters. -/
inductive LogLevel where
  | debug
  | trace
  deriving DecidableEq, Repr

/-- A line of a log. -/
structure LogRecord where
  level : LogLevel
  text : String
  deriving DecidableEq, Repr

/-- The least level that is kept. -/
inductive LogThreshold where
  | off
  | info
  | debug
  | trace
  deriving DecidableEq, Repr

namespace LogThreshold

/-- Whether a threshold keeps the records of a level. -/
def keeps : LogThreshold → LogLevel → Bool
  | .trace, _ => true
  | .debug, .debug => true
  | _, _ => false

/-- The records that a threshold keeps, in order. -/
def filter (threshold : LogThreshold) (records : List LogRecord) : List LogRecord :=
  records.filter fun record => threshold.keeps record.level

end LogThreshold

end LoxTokenizer
