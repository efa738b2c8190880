import BoardDesign.Stage.Error
import BoardDesign.Tool.Command
import BoardDesign.Tool.Supervision
/-!
Tools started for a stage, with their output in a log or passed on.
-/

namespace BoardDesign.Tool

open Stage (Error)
open File (Fault)

/-- Everything that starting a tool for a stage needs. -/
structure Call where
  launch : Launcher
  name : ToolName
  tool : BoardDesign.Tool
  vars : Table String
  cwd : String
  env : Table String
  stage : Option Stage

namespace Call

def invocation (c : Call) : Invocation :=
  ⟨c.tool.program, c.tool.renderArgs c.vars, c.cwd, c.env⟩

/-- Why a tool could not be started. -/
def launchError (c : Call) : Fault → Error
  | .notFound => .toolNotFound c.name.text c.tool.program c.stage
  | fault => .file c.tool.program fault

def start (c : Call) : Action Error Process :=
  Action.reading fun w => (c.launch c.invocation w).mapError c.launchError

end Call

/-- An empty log file. -/
def openLog (log : String) : Action Error Unit := do
  match File.Path.parent? log with
  | some parent => (Action.makeDirs parent).mapError (.file parent)
  | none => pure ()
  (Action.writeBytes log []).mapError (.file log)

/-- Output put into a log, if the log is still there. -/
def writeLog (log : String) (output : List UInt8) : Action Error Unit := do
  if ← Action.isFile log then (Action.writeBytes log output).mapError (.file log)

/-- The world as a process leaves it. -/
def leave (p : Progress) : Action Error Unit := Action.modifying fun _ => p.world

/-- A tool run to its end, with its output and not its errors as the result. -/
def Call.captured (c : Call) (log : String) : Action Error (ExitStatus × List UInt8) := do
  openLog log
  let process ← c.start
  let run := process.progress none process.lifetime
  leave run
  writeLog log (outputOf .err run.output)
  let status := (run.ended.map (·.2)).getD (.signal killSignal)
  return (status, outputOf .out run.output)

/-- A tool watched to its end, with all its output in a log. -/
def Call.logged (c : Call) (log : String) (l : Limits) : Action Error Ending := do
  openLog log
  let process ← c.start
  let (ending, run) := process.supervised l
  leave run
  writeLog log (allOutput run.output)
  return ending

/-- A tool watched to its end, with its output passed on. -/
def Call.shown (c : Call) (l : Limits) : Action Error Ending := do
  let process ← c.start
  let (ending, run) := process.supervised l
  leave run
  Action.modifying (·.print run.output)
  return ending

end BoardDesign.Tool
