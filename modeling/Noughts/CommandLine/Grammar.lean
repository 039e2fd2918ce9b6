/-!
# The grammar of a command line

A command line has *switches*, which start with a dash, and at most one *operand*, which does not.
A switch goes by one or more names, takes a value or not, and may have to be there.  The operand
is an integer that may be left out, or the name of a command, with a command line of its own
behind it.

The text that describes a command line is part of its grammar, laid out for eighty columns.
-/

set_option autoImplicit false

namespace Noughts.CommandLine

/-- What a switch does or takes. -/
inductive Kind where
  /-- Prints the description and ends the program. -/
  | help
  /-- Is there or not. -/
  | flag
  | integer
  | choice (among : List String)
  | text
  deriving DecidableEq, Repr

/-- Does a switch of this kind take a value? -/
def Kind.takesValue : Kind → Bool
  | .help => false
  | .flag => false
  | .integer => true
  | .choice _ => true
  | .text => true

/-- A switch. -/
structure Switch where
  /-- The names it goes by.  It is reported under the first. -/
  names : List String
  kind : Kind
  required : Bool := false
  deriving DecidableEq, Repr

/-- The name a switch is reported under. -/
def Switch.key (s : Switch) : String := s.names.headD ""

/-- All names of a switch. -/
def Switch.label (s : Switch) : String := "/".intercalate s.names

/-- What a command line takes that is not a switch. -/
inductive Operand where
  | nothing
  /-- An integer that may be left out. -/
  | integer (name : String)
  /-- One of several commands. -/
  | command (name : String) (among : List String)
  deriving DecidableEq, Repr

/-- The grammar of a command line. -/
structure Grammar where
  /-- The program, with the command if there is one. -/
  program : String
  /-- The line or lines that show its use. -/
  usage : String
  /-- The description behind the usage. -/
  details : String
  switches : List Switch
  operand : Operand := .nothing
  deriving Repr

namespace Grammar

/-- All names, each with its switch. -/
def table (g : Grammar) : List (String × Switch) :=
  g.switches.flatMap fun s => s.names.map fun name => (name, s)

/-- The switch with the given name. -/
def switch? (g : Grammar) (name : String) : Option Switch :=
  (g.table.find? fun e => e.1 == name).map Prod.snd

/-- The whole description. -/
def description (g : Grammar) : String := g.usage ++ "\n" ++ g.details

end Grammar

end Noughts.CommandLine
