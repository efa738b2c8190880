import BoardDesign.Decimal.Shortest
import BoardDesign.Generation.Error
import BoardDesign.Stage.Basic
/-!
What can go wrong while stages are run.
-/

namespace BoardDesign.Stage

inductive Error where
  /-- The exit status is absent if the program was ended by a signal. -/
  | buildFailed (stage : Stage) (status : Option Int) (log : String)
  | simulationFailed (detail : String) (log : Option String)
  | stopped (stage : Stage)
  | alreadyRunning (board : String) (pid : Nat)
  | workspaceBusy (board : String) (pid : Nat) (stage : String)
  | toolNotFound (tool program : String) (stage : Option Stage)
  | missingArtifact (stage : Stage) (path : String)
  | generation (stage : Stage) (error : Generation.Error)
  | missingGraph (stage : Stage)
  | unreadableLock (path : String)
  /-- The lock was released and taken again while it was being acquired. -/
  | lockVanished (path : String)
  | file (path : String) (fault : File.Fault)
deriving DecidableEq, Repr

namespace Error

/-- The name of the kind of error. -/
def kind : Error → String
  | .buildFailed .. => "BuildFailed"
  | .simulationFailed .. => "SimulationFailed"
  | .stopped _ => "Stopped"
  | .alreadyRunning .. => "AlreadyRunning"
  | .workspaceBusy .. => "WorkspaceBusy"
  | .toolNotFound .. => "ToolNotFound"
  | .missingArtifact .. => "MissingArtifact"
  | .generation .. => "Generation"
  | .missingGraph _ => "MissingGraph"
  | .unreadableLock _ => "CorruptLock"
  | .lockVanished _ => "CorruptLock"
  | .file .. => "Io"

def message : Error → String
  | .buildFailed stage status log =>
    let status := match status with
      | some s => Decimal.intText s
      | none => "unknown"
    s!"{stage.title} failed (exit status {status}); see {log}"
  | .simulationFailed detail log =>
    "simulation failed: " ++ detail ++ (log.map fun l => "; see " ++ l).getD ""
  | .stopped stage => s!"{stage.title} was stopped before it finished"
  | .alreadyRunning board pid =>
    s!"a simulation of board '{board}' is already running (pid " ++ Decimal.natText pid ++ ")"
  | .workspaceBusy board pid stage =>
    s!"board '{board}' is in use by pid " ++ Decimal.natText pid ++ s!" ({stage})"
  | .toolNotFound tool program _ => s!"tool '{tool}' not found (program '{program}')"
  | .missingArtifact stage path => s!"{stage.title} needs {path}, which does not exist"
  | .generation stage error => s!"{stage.title}: {error.message}"
  | .missingGraph stage => s!"{stage.title} needs a validated graph"
  | .unreadableLock path => s!"corrupt lock file {path}: " ++ Text.unreadable
  | .lockVanished path => s!"corrupt lock file {path}: lock vanished while acquiring"
  | .file path fault => s!"I/O error on {path}: {fault.message}"

/-- The stage that the error belongs to, if it belongs to one. -/
def stage? : Error → Option Stage
  | .buildFailed stage _ _ => some stage
  | .simulationFailed _ _ => some .simulate
  | .stopped stage => some stage
  | .toolNotFound _ _ stage => stage
  | .missingArtifact stage _ => some stage
  | .generation stage _ => some stage
  | .missingGraph stage => some stage
  | _ => none

/-- Someone else works with the board. -/
def isContention : Error → Bool
  | .alreadyRunning _ _ => true
  | .workspaceBusy _ _ _ => true
  | _ => false

end Error

end BoardDesign.Stage
