/-!
# Exit statuses

A program that was run ends with a status.  Zero means that all went well, a positive number is
the program's own report of a failure, and a negative one means that a signal ended it.
-/

set_option autoImplicit false

namespace Noughts

/-- How a program ended. -/
abbrev ExitStatus := Int

namespace ExitStatus

/-- The names of the signals `1` to `31`, in order. -/
def signalNames : List String :=
  ["SIGHUP", "SIGINT", "SIGQUIT", "SIGILL", "SIGTRAP", "SIGABRT", "SIGBUS", "SIGFPE", "SIGKILL",
   "SIGUSR1", "SIGSEGV", "SIGUSR2", "SIGPIPE", "SIGALRM", "SIGTERM", "SIGSTKFLT", "SIGCHLD",
   "SIGCONT", "SIGSTOP", "SIGTSTP", "SIGTTIN", "SIGTTOU", "SIGURG", "SIGXCPU", "SIGXFSZ",
   "SIGVTALRM", "SIGPROF", "SIGWINCH", "SIGIO", "SIGPWR", "SIGSYS"]

/-- The name of a signal.  Of the real-time signals only the first and the last have one. -/
def signalName? (signal : Nat) : Option String :=
  if signal = 0 then none
  else if signal = 34 then some "SIGRTMIN"
  else if signal = 64 then some "SIGRTMAX"
  else signalNames[signal - 1]?

/-- What is said of a program that did not end well. -/
def complaint (program : String) (status : ExitStatus) : String :=
  let number := toString status.natAbs
  "Command '" ++ program ++ "' " ++
    if status < 0 then
      match signalName? status.natAbs with
      | some name => "died with <Signals." ++ name ++ ": " ++ number ++ ">."
      | none => "died with unknown signal " ++ number ++ "."
    else "returned non-zero exit status " ++ number ++ "."

end ExitStatus

end Noughts
