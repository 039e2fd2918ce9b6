import Noughts.Files

/-!
# Surroundings

What a program finds when it starts, and never changes: the settings in its environment, the
directory it works in, where its own file is, what the version control program has to say, and
which other software there is.  All of it is data, so that a program is a function of it.
-/

set_option autoImplicit false

namespace Noughts

/-- The settings that are looked up, each unset or with a value. -/
structure Environment where
  /-- The name of the platform. -/
  platform : Option String := none
  /-- Where the repository is. -/
  repository : Option String := none
  /-- Where results go. -/
  results : Option String := none
  /-- The seed of the interpreter's hashes. -/
  hashSeed : Option String := none
  deriving DecidableEq, Repr

/-- What the version control program does when it is asked for the current commit. -/
inductive CommitQuery where
  /-- There is no such program. -/
  | unavailable
  /-- It reports a failure. -/
  | failed
  /-- It does not answer in time. -/
  | timedOut
  /-- It answers with a text. -/
  | answered (output : String)
  deriving DecidableEq, Repr

/-- What a program finds when it starts. -/
structure Surroundings where
  environment : Environment := {}
  workingDirectory : Location := []
  /-- The program's own file, from the root. -/
  programFile : Path := {}
  commitQuery : CommitQuery := .unavailable
  /-- Is there a tracking service? -/
  trackerInstalled : Bool := false
  /-- The interpreter that runs other programs. -/
  interpreter : String := ""
  /-- The version of the language the program runs on. -/
  languageVersion : String := ""
  /-- The name of the machine's operating system. -/
  systemName : String := ""
  /-- The version of the numeric library. -/
  numericVersion : String := ""
  /-- How a double is written into a report. -/
  number : Float → String

end Noughts
