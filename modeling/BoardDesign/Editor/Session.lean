import BoardDesign.Editor.Frame
import BoardDesign.Editor.Message
import BoardDesign.Failure
/-!
Sessions with the diagram editor: its calls answered, and builds and simulations run for it.

One reader takes the messages of the editor, and each job that it accepts goes on beside it. The
state is what they share and how far each of them has come; `State.after` says what each of their
steps does, in whatever order the steps come. At most one job counts as running at a time, and each
job looks at the stop flag of its own kind.
-/

namespace BoardDesign.Editor

open File.Path (join)

inductive Job where
  | build
  | run
deriving DecidableEq, Repr

namespace Job

/-- The call that starts a job. -/
def method : Job → String
  | .build => "custom_build"
  | .run => "dataflow_run"

def ofMethod? (method : String) : Option Job :=
  [build, run].find? fun job => job.method == method

def lastStage : Job → Stage
  | .build => .prepareSimulatorFiles
  | .run => .simulate

def successText : Job → String
  | .build => "Build succeeded."
  | .run => "Simulation finished."

def failureText : Job → String
  | .build => "Build failed."
  | .run => "Simulation failed."

end Job

/-- The application that is built for the edited design. -/
inductive Application where
  /-- Made anew before every build. -/
  | template (dir : String)
  | sources (dir : String)
deriving DecidableEq, Repr

/-- What a session works with. -/
structure Backend where
  settings : Settings
  host : Host
  catalog : EffectiveCatalog
  application : Application

namespace Backend

/-- The design that a document holds, checked against the catalog. -/
def design (b : Backend) (dataflow : Json) : Except Failure Graph.ValidDesign := do
  let document ← match Graph.Document.ofJson? dataflow with
    | some d => .ok d
    | none => .error .notDocument
  let design ← (Design.ofDocument document).mapError .noGraph
  (Graph.validate design b.catalog).mapError .invalidDesign

/-- What to run for a job. -/
def request (b : Backend) (job : Job) (g : Graph.ValidDesign) : Request :=
  let board := g.boardName
  let output := join b.settings.workspace.generatedDir board
  { board := board
    first := .prepareBoard
    last := job.lastStage
    design := some g
    template := match b.application with
      | .template dir => some ⟨dir, output, true⟩
      | .sources _ => none
    app := match b.application with
      | .template _ => none
      | .sources dir => some dir
    templatesDir := none
    timeout := none }

/-- A job done; `stop` tells when a stop is requested while the tool of a stage runs. -/
def execute (b : Backend) (job : Job) (dataflow : Json) (stop : Stage → Option Nat) :
    Action Failure Run.Report := do
  let g ← Action.ofExcept (b.design dataflow)
  let setup ← Action.ofExcept ((b.settings.setup b.host true false).mapError .settings)
  ((b.request job g).run { setup with stop := stop }).mapError .stage

/-- The name under which a document is saved. -/
def saveName (dataflow : Json) : String :=
  let name := (Graph.Document.ofJson? dataflow).bind fun d =>
    d.main.toOption.bind fun body => body.name
  Graph.Label.boardName
    ((name.filter fun n => !Text.allBlank n.toList).getD Graph.Label.untitled)

def savePath (b : Backend) (dataflow : Json) : String :=
  join (join b.settings.workspace.root "save") (saveName dataflow ++ ".json")

def writeBelow (dir path text : String) : Action File.Fault Unit := do
  Action.makeDirs dir
  Action.writeText path text

/-- A document saved in the workspace, and the result that tells of it. -/
def save (b : Backend) (dataflow : Json) : StateM World Json := do
  let path := b.savePath dataflow
  let dir := (File.Path.parent? path).getD ""
  match ← (writeBelow dir path dataflow.compact).run with
  | .ok () => return Message.ok (.str ("Graphs saved in " ++ path))
  | .error fault => return Message.failed (.str s!"Could not save {path}: {fault.message}")

end Backend

/-- An imported document is given back as it is. -/
def imported (params : Json) : Json :=
  if ((params.field? "base64").bind Json.bool?).getD false then
    Message.failed (.str "base64-encoded imports are not supported")
  else
    match (params.field? "external_application_dataflow").bind Json.str? with
    | none => Message.failed (.str "missing 'external_application_dataflow'")
    | some text =>
      match Json.parse text with
      | some a => Message.ok a
      | none => Message.failed (.str ("imported dataflow is not JSON: " ++ Text.unreadable))

/-- A call that starts a job. -/
structure JobCall where
  job : Job
  /-- Under which the editor waits for the answer. -/
  id : Json
  dataflow : Json
deriving DecidableEq, Repr

/-- How far a started job has come. -/
inductive Phase where
  | started
  | working
  /-- Worked off, with a report to be shown. -/
  | reporting (text : String)
  /-- Done, and still counted as running. -/
  | ended (failure : Option Failure)
  | failed (failure : Failure)
  | answering (result : Json)
deriving DecidableEq, Repr

/-- A started job. -/
structure Running where
  /-- In the order of the starts, from zero. -/
  number : Nat
  call : JobCall
  phase : Phase
deriving DecidableEq, Repr

/-- How far the reader has come. -/
inductive Reader where
  /-- Before the next message. -/
  | waiting
  /-- A job counts as running, and its stop flag is still as others left it. -/
  | lowering (call : JobCall)
  | starting (call : JobCall)
  | replying (message : Json)
  /-- The session is over, and the stop flags are to be raised one after the other. -/
  | stoppingBuild
  | stoppingRun
  /-- Before the end of the last job. -/
  | joining
  | returned
deriving DecidableEq, Repr

structure State where
  /-- The messages that come before the connection ends and have not been taken. -/
  incoming : List (List UInt8)
  reader : Reader
  /-- A job is accepted and not done. -/
  busy : Bool
  stopBuild : Bool
  stopRun : Bool
  /-- The number of the next job. -/
  nextJob : Nat
  /-- The jobs without an answer, in the order of their starts. -/
  running : List Running
  /-- The number of the next call to the editor. -/
  nextId : Nat
  /-- In the order of sending. -/
  sent : List Json
deriving DecidableEq, Repr

namespace State

/-- A session before its first message; the stop flags are as an earlier one left them. -/
def opened (incoming : List (List UInt8)) (stopBuild stopRun : Bool) : State :=
  ⟨incoming, .waiting, false, stopBuild, stopRun, 0, [], 1, []⟩

/-- The stop flag for a kind of job. -/
def stops (s : State) : Job → Bool
  | .build => s.stopBuild
  | .run => s.stopRun

def setStop (s : State) (job : Job) (flag : Bool) : State :=
  match job with
  | .build => { s with stopBuild := flag }
  | .run => { s with stopRun := flag }

theorem stops_setStop (s : State) (job other : Job) (flag : Bool) :
    (s.setStop job flag).stops other = if other = job then flag else s.stops other := by
  cases job <;> cases other <;> rfl

/-- A message written to the connection, if that takes it. -/
def send (s : State) (delivered : Bool) (message : Json) : State :=
  if delivered then { s with sent := s.sent ++ [message] } else s

/-- A call to the editor whose answer is not waited for. -/
def call (s : State) (delivered : Bool) (method : String) (params : Json) : State :=
  { s.send delivered (Message.request s.nextId method params) with nextId := s.nextId + 1 }

/-- The terminal of the editor that shows what is reported. -/
def terminal : String := "backend-logs"

/-- A text as terminals want it. -/
def terminalText (text : String) : String :=
  String.ofList (text.toList.flatMap fun c => if c = '\n' then ['\r', '\n'] else [c])

def writeTerminal (s : State) (delivered : Bool) (text : String) : State :=
  s.call delivered "terminal_write"
    (.obj [("name", .str terminal), ("message", .str (terminalText text))])

/-- An answer to be sent. -/
def reply (s : State) (message : Json) : State := { s with reader := .replying message }

/-- A job accepted, or refused if parameters are missing or another job is not done. -/
def accept (s : State) (job : Job) (id params : Json) : State :=
  match params.field? "dataflow" with
  | none => s.reply (Message.refused id (Message.missingParameter "dataflow"))
  | some dataflow =>
    if s.busy then s.reply (Message.response id Message.busy)
    else { s with busy := true, reader := .lowering ⟨job, id, dataflow⟩ }

/-- The calls by which the editor tells of every edit; nothing has to be done about them. -/
def editCalls : List String :=
  ["nodes_on_change", "properties_on_change", "connections_on_change", "graph_on_change",
    "metadata_on_change", "position_on_change"]

/-- A stop of the jobs that a method starts. -/
def requestStop (s : State) (method : String) : State :=
  match Job.ofMethod? method with
  | some job => s.setStop job true
  | none => s

/-- A call that is answered at once. -/
def answer (b : Backend) (s : State) (method : String) (params : Json) :
    StateM World (Except Message.Refusal Json × State) := do
  let missing (name : String) : Except Message.Refusal Json × State :=
    (.error (Message.missingParameter name), s)
  match method with
  | "specification_get" => return (.ok (Message.ok b.catalog.composed.toJson), s)
  | "app_capabilities_get" =>
    return (.ok (.obj [("stoppable_methods",
      .arr [.str Job.run.method, .str Job.build.method])]), s)
  | "dataflow_export" =>
    match params.field? "dataflow" with
    | none => return missing "dataflow"
    | some dataflow => return (.ok (← b.save dataflow), s)
  | "dataflow_import" => return (.ok (imported params), s)
  | "dataflow_stop" =>
    match params.field? "method" with
    | none => return missing "method"
    | some name =>
      return (.ok (Message.ok (.str "Stopped.")), s.requestStop (name.str?.getD ""))
  | "terminal_read" => return (.ok .null, s)
  | method =>
    if editCalls.contains method then return (.ok .null, s)
    else return (.error (Message.unknownMethod method), s)

/-- The reader takes a message. What is no message is passed over. -/
def take (b : Backend) (s : State) (payload : List UInt8) : StateM World State := do
  match Incoming.read? payload with
  | some (.request id method params) =>
    match Job.ofMethod? method with
    | some job => return s.accept job id params
    | none =>
      let (result, s) ← answer b s method params
      match result with
      | .ok result => return s.reply (Message.response id result)
      | .error r => return s.reply (Message.refused id r)
  | some (.notification method params) =>
    let (_, s) ← answer b s method params
    return s
  | _ => return s

/-- The next step of the reader. It waits for messages, and at the end for all jobs. -/
def read (b : Backend) (s : State) (delivered : Bool) : StateM World State :=
  match s.reader with
  | .waiting =>
    match s.incoming with
    | [] => return { s with reader := .stoppingBuild }
    | payload :: rest => take b { s with incoming := rest } payload
  | .lowering call => return { s.setStop call.job false with reader := .starting call }
  | .starting call =>
    return { s with
      reader := .waiting
      nextJob := s.nextJob + 1
      running := s.running ++ [⟨s.nextJob, call, .started⟩] }
  | .replying message =>
    return { s.send delivered message with
      reader := if delivered then .waiting else .stoppingBuild }
  | .stoppingBuild => return { s.setStop .build true with reader := .stoppingRun }
  | .stoppingRun => return { s.setStop .run true with reader := .joining }
  | .joining => return { s with reader := if s.running.isEmpty then .returned else .joining }
  | .returned => return s

def setPhase (s : State) (number : Nat) (phase : Phase) : State :=
  { s with
    running := s.running.map fun r => if r.number = number then { r with phase := phase } else r }

/-- The work of a job from its beginning to its end, or to its report. -/
def work (b : Backend) (s : State) (r : Running) (stop : Stage → Option Nat) :
    StateM World State := do
  let stop := if s.stops r.call.job then stop else fun _ => none
  match ← (b.execute r.call.job r.call.dataflow stop).run with
  | .ok report => return s.setPhase r.number (.reporting report.text)
  | .error f => return s.setPhase r.number (.ended (some f))

/-- The next step of a job. -/
def advance (b : Backend) (s : State) (r : Running) (delivered : Bool)
    (stop : Stage → Option Nat) : StateM World State :=
  match r.phase with
  | .started =>
    let params : Json := .obj [("method", .str r.call.job.method), ("progress", .int (-1))]
    return (s.call delivered "progress_change" params).setPhase r.number .working
  | .working => s.work b r stop
  | .reporting text => return (s.writeTerminal delivered text).setPhase r.number (.ended none)
  | .ended none =>
    let result := Message.ok (.str r.call.job.successText)
    return { s.setPhase r.number (.answering result) with busy := false }
  | .ended (some f) => return { s.setPhase r.number (.failed f) with busy := false }
  | .failed f =>
    let result := Message.failed (.str r.call.job.failureText)
    return (s.writeTerminal delivered ("ERROR: " ++ f.message ++ "\n")).setPhase r.number
      (.answering result)
  | .answering result =>
    return { s.send delivered (Message.response r.call.id result) with
      running := s.running.filter fun q => q.number ≠ r.number }

end State

/-- A step of the reader or of a job. What they write is delivered or lost. -/
inductive Event where
  | reader (delivered : Bool)
  /-- If the stop flag of the job is raised when its work is done, `stop` tells when that happened,
  by the stage whose tool was running. -/
  | job (number : Nat) (delivered : Bool) (stop : Stage → Option Nat)

namespace State

/-- The state after a step. -/
def after (b : Backend) (s : State) : Event → StateM World State
  | .reader delivered => s.read b delivered
  | .job number delivered stop =>
    match s.running.find? fun r => r.number = number with
    | some r => s.advance b r delivered stop
    | none => return s

/-- A step of the first job, and of the reader if there is none. -/
def next (s : State) : Event :=
  match s.running with
  | r :: _ => .job r.number true fun _ => none
  | [] => .reader true

def jobsFirst (b : Backend) : Nat → State → StateM World State
  | 0, s => return s
  | n + 1, s => do jobsFirst b n (← s.after b s.next)

end State

/-- No message takes more steps of the reader and of a job. -/
def stepsPerMessage : Nat := 8

/-- The steps of the reader after the last message. -/
def closingSteps : Nat := 4

/-- A session in which each job is done before the next message is taken, to the end of what comes
over the connection. -/
def serve (b : Backend) (stream : List UInt8) : StateM World State :=
  let incoming := (Frame.readAll stream).1
  (State.opened incoming false false).jobsFirst b
    (incoming.length * stepsPerMessage + closingSteps)

end BoardDesign.Editor
