/-!
# Log records

What the program reports on the side: a level and a text.  A record is written on one line, its
level in brackets in front.
-/

set_option autoImplicit false

namespace Noughts

namespace Log

/-- How serious a record is. -/
inductive Level where
  | debug
  | info
  | warning
  | error
  deriving DecidableEq, Repr

/-- The name of a level. -/
def Level.name : Level → String
  | .debug => "DEBUG"
  | .info => "INFO"
  | .warning => "WARNING"
  | .error => "ERROR"

/-- One record. -/
structure Entry where
  level : Level
  text : String
  deriving DecidableEq, Repr

/-- The written form of a record. -/
def Entry.line (e : Entry) : String :=
  "[" ++ e.level.name ++ "] " ++ e.text

end Log

/-- Records in the order in which they were made. -/
abbrev Log := List Log.Entry

end Noughts
