import Noughts.Session

/-!
# Tracking

Experiments can be reported to a tracking service.  `tracked` runs a block of steps as one
experiment: if tracking is asked for and the service is there, the run is opened before the block
and closed after it, whether the block fails or not.  Otherwise the block is run all the same, and
is told that it is not tracked; a warning is logged if tracking was asked for.

The requests inside a block (`logParams`, `logMetrics`, `logArtifact`) do not ask whether it is
tracked.  They need the service, and fail where there is none.
-/

set_option autoImplicit false

namespace Noughts

namespace Tracking

/-- The service's URI for runs that are kept under a directory. -/
def storeUri (around : Surroundings) (t : FileTree) (directory : Path) : Except FileError String :=
  (t.resolve around.workingDirectory (directory.child "mlruns")).map Path.uri

/-- Says where runs are kept, if that was settled. -/
def chooseStore (around : Surroundings) : Option (Setting Path) → Action Unit
  | some store => do
    let directory ← Action.needed .directory store
    let uri ← Action.ofExcept .file (storeUri around (← get).files directory)
    Action.track (.setUri uri)
  | none => pure ()

/-- **Runs a block as one tracked experiment**, if it is to be and can be tracked.  The block is
told whether it is. -/
def tracked {α : Type} (around : Surroundings) (enabled : Bool) (name : String)
    (store : Option (Setting Path)) (block : Bool → Action α) : Action α :=
  if !enabled then block false
  else if !around.trackerInstalled then do
    Action.report .warning "mlflow is not installed; continuing without tracking"
    block false
  else do
    chooseStore around store
    Action.track (.startRun name)
    (block true).afterwards fun s => { s with trackerCalls := s.trackerCalls ++ [.endRun] }

/-- Sends a request, if there is a service to send it to. -/
def send (around : Surroundings) (call : TrackerCall) : Action Unit :=
  if around.trackerInstalled then Action.track call else throw .noTracker

/-- Reports the parameters of an experiment. -/
def logParams (around : Surroundings) (params : Fields Document) : Action Unit :=
  send around (.logParams params)

/-- Reports what an experiment measured. -/
def logMetrics (around : Surroundings) (metrics : Fields Float) : Action Unit :=
  send around (.logMetrics metrics)

/-- Hands a file over, into a folder if one is given. -/
def logArtifact (around : Surroundings) (path : Path) (folder : Option String := none) :
    Action Unit :=
  send around (.logArtifact path folder)

/-! ## Blocks as data -/

/-- A step of a block. -/
inductive BlockStep where
  | params (params : Fields Document)
  | metrics (metrics : Fields Float)
  | artifact (path : Path) (folder : Option String)
  /-- A failure of the block's own. -/
  | raise (text : String)

/-- Does one step. -/
def BlockStep.run (around : Surroundings) : BlockStep → Action Unit
  | .params ps => logParams around ps
  | .metrics ms => logMetrics around ms
  | .artifact path folder => logArtifact around path folder
  | .raise text => throw (.raised text)

/-- Does the steps of a block up to the first that fails. -/
def runBlock (around : Surroundings) : List BlockStep → Action Unit
  | [] => pure ()
  | step :: rest => do
    step.run around
    runBlock around rest

end Tracking

end Noughts
