import Noughts.Session
import Noughts.CommandLine.Reader

/-!
# Transcripts

All that can be seen of a program that was run: how it ended, what it printed on its output and
among its messages, and the session it leaves.
-/

set_option autoImplicit false

namespace Noughts

/-- How a program ends of its own accord. -/
inductive Ending where
  /-- Its work is done, or was refused. -/
  | returned (status : Nat)
  /-- Its command line ended it. -/
  | exited (status : Nat)
  deriving DecidableEq, Repr

/-- A program that was run. -/
structure Transcript where
  ending : Except Failure Ending
  output : String
  messages : String
  session : Session

namespace Transcript

/-- The program that its command line ended. -/
def ofStop (s : Session) (stop : CommandLine.Stop) : Transcript :=
  let (output, messages, status) := stop.printed
  ⟨.ok (.exited status), output, messages, s⟩

/-- The program that did an action.  `written` says how a log record shows among the messages, if
it does. -/
def ofAction (s : Session) (written : Log.Entry → Option String) (a : Action Nat) : Transcript :=
  let (result, after) := a.perform s
  ⟨result.map .returned, after.output,
    String.join ((after.log.filterMap written).map fun line => line ++ "\n"), after⟩

end Transcript

end Noughts
