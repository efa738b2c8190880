import BoardDesign.App.Files
import BoardDesign.Board.Platform
import BoardDesign.Run.Report
import BoardDesign.Stage.Cache
import BoardDesign.Tool.Logged
import BoardDesign.Workspace.Layout
import BoardDesign.Workspace.Lock
/-!
Runs: the stages of one board, run under its lock.

A run holds the lock of its board from its beginning to its end. Each stage digests its inputs and
is skipped if the record says that nothing changed; else its record is taken away, it is run, and
the new digest is put on record if it succeeds.
-/

namespace BoardDesign

open Stage (Error Inputs)
open File.Path (join)

/-- What all runs in a workspace share. -/
structure Setup where
  workspace : Workspace
  resourcesDir : String
  zephyrBase : String
  tools : Toolchain
  /-- The environment of tools beyond the program's own. -/
  env : Table String
  /-- The simulator's output is passed on and not logged. -/
  showsOutput : Bool
  grace : Nat
  /-- When a stop of a stage is requested, in milliseconds after its tool is started. -/
  stop : Stage → Option Nat
  /-- The number of the program's own process. -/
  pid : Nat
  launch : Tool.Launcher

/-- A run under way. -/
structure Run where
  board : String
  lock : Workspace.Lock
  cache : Stage.Cache
  results : List Stage.Result
  started : Nat

namespace Run

/-- A run of a board begun, with its lock taken for a stage. -/
def start (s : Setup) (board : String) (stage : Stage) : Action Error Run := do
  let started ← Action.clock
  let lock ← (Workspace.Lock.acquire s.pid s.workspace.locksDir board stage).alone
  return ⟨board, lock, .ofDir (s.workspace.stagesDir board), [], started⟩

/-- The lock given up. -/
def release (r : Run) : Action Error Unit := Action.modifying fun w => (r.lock.release.run w).2

/-- The lock given up and the run summed up. -/
def finish (r : Run) : Action Error Report := do
  r.release
  let now ← Action.clock
  return ⟨r.board, now - r.started, r.results, r.cache.hits, r.cache.misses⟩

/-- The lock tells which stage is run now. -/
def enter (r : Run) (stage : Stage) : Action Error Run := do
  return { r with lock := ← (r.lock.setStage stage).alone }

def record (r : Run) (result : Stage.Result) : Run := { r with results := r.results ++ [result] }

/-- A stage skipped if the record says that it may be, else its record taken away. -/
def checkCache (r : Run) (stage : Stage) (digest : ContentHash) (outputs : List String) :
    Action Error (Bool × Run) := do
  let (hit, cache) ← r.cache.lookup stage digest outputs
  let r := { r with cache := cache }
  if hit then return (true, r.record (.ofCache stage outputs))
  r.cache.invalidate stage
  return (false, r)

/-- A stage as its cache sees it: what it depends on, what it makes, and how it is run. -/
structure Task where
  stage : Stage
  inputs : Inputs
  outputs : List String
  body : Run → Action Error Stage.Result

/-- A task with the cache around it: skipped, or its body run, and the digest put on record. -/
def perform (r : Run) (t : Task) : Action Error Run := do
  let digest := t.inputs.hash
  let (hit, r) ← r.checkCache t.stage digest t.outputs
  if hit then return r
  let result ← t.body r
  r.cache.store t.stage digest
  return r.record result

/-- A stage entered, and its task performed. -/
def staged (r : Run) (stage : Stage) (task : Run → Action Error Task) : Action Error Run := do
  let r ← r.enter stage
  r.perform (← task r)

/-- An action with the time that it took. -/
def timed {α : Type} (a : Action Error α) : Action Error (α × Nat) := do
  let before ← Action.clock
  let x ← a
  return (x, (← Action.clock) - before)

def call (s : Setup) (name : ToolName) (vars : List (String × String)) (stage : Stage) :
    Tool.Call :=
  { launch := s.launch
    name := name
    tool := s.tools.get name
    vars := Table.ofList vars
    cwd := s.workspace.root
    env := s.env
    stage := some stage }

/-- Everything that a board's directory is made from. -/
def boardInputs (s : Setup) (board : String) (g : Graph.ValidDesign) (soc : String) :
    Action Error Inputs := do
  let target := s.workspace.target board s.resourcesDir s.zephyrBase
  let inputs := (((Inputs.ofStage .prepareBoard).text "graph" g.design.toJson.compact).text
    "catalog" g.catalog.toJson.compact).text "board" board
  inputs.dir "soc_resources" (target.socDir soc)

/-- The directory of the board, to be made from a design. -/
def boardTask (s : Setup) (g : Graph.ValidDesign) (r : Run) : Action Error Task := do
  let stage := Stage.prepareBoard
  let target := s.workspace.target r.board s.resourcesDir s.zephyrBase
  let soc ← Action.ofExcept ((Board.socName g).mapError (.generation stage))
  let inputs ← boardInputs s r.board g soc
  return {
    stage := stage
    inputs := inputs
    outputs := [target.boardDir]
    body := fun _ => do
      let (dir, time) ← timed ((Board.generateBoard g target).mapError (.generation stage))
      return ⟨stage, .executed, none, none, [dir], time⟩ }

/-- The directory of the board made from a design. -/
def prepareBoard (s : Setup) (r : Run) (g : Graph.ValidDesign) : Action Error Run :=
  r.staged .prepareBoard (boardTask s g)

/-- An application made after the board; it counts among the inputs of the build. -/
def generateApp (g : Graph.ValidDesign) (source : App.Source) : Action Error App.Application :=
  (App.generate g source).mapError (.generation .prepareBoard)

/-- The files that are kept of a build. -/
def keptFiles : List String := ["zephyr/zephyr.dts", "zephyr/zephyr.elf", "zephyr/.config"]

def removeDirIfThere (dir : String) : Action Error Unit := do
  if ← Action.doesExist dir then (Action.removeDir dir).mapError (.file dir)

def keepFile (buildDir buildsDir relative : String) : Action Error Unit := do
  let source := join buildDir relative
  if ← Action.isFile source then
    let target := join buildsDir relative
    match File.Path.parent? target with
    | some parent => (Action.makeDirs parent).mapError (.file parent)
    | none => pure ()
    (Action.copy source target).mapError (.file target)

/-- What is kept of a build put into its place, without what was kept of an earlier one. -/
def keepOutputs (buildDir buildsDir log : String) : Action Error Unit := do
  removeDirIfThere (join buildsDir "zephyr")
  keptFiles.forM (keepFile buildDir buildsDir)
  if ← Action.isFile log then
    let target := join buildsDir "build.log"
    (Action.copy log target).mapError (.file target)

def requireDir (stage : Stage) (path : String) : Action Error Unit := do
  if !(← Action.isDir path) then throw (.missingArtifact stage path)

def requireFile (stage : Stage) (path : String) : Action Error Unit := do
  if !(← Action.isFile path) then throw (.missingArtifact stage path)

def requireOutput (stage : Stage) (path : String) : Action Error Unit := do
  if !(← Action.doesExist path) then throw (.missingArtifact stage path)

/-- Everything that a build is made from. -/
def buildInputs (boardDir app board : String) (template : Option String) :
    Action Error Inputs := do
  let inputs ← (Inputs.ofStage .build).dir "board_dir" boardDir
  let inputs ← inputs.dir "app" app
  return (inputs.text "board" board).text "template" (template.getD "")

/-- The build in an empty directory, and its exit code. -/
def runBuild (s : Setup) (r : Run) (app : String) : Action Error (Option Int) := do
  let stage := Stage.build
  let ws := s.workspace
  let buildDir := ws.buildDir r.board
  removeDirIfThere buildDir
  (Action.makeDirs buildDir).mapError (.file buildDir)
  let log := r.cache.logPath stage
  let tool := call s .west [("board", r.board), ("build_dir", buildDir), ("app", app),
    ("board_root", ws.root), ("zephyr_base", s.zephyrBase)] stage
  match ← tool.logged log ⟨none, s.grace, s.stop stage⟩ with
  | .exited status =>
    keepOutputs buildDir (ws.buildsDir r.board) log
    if !status.isSuccess then throw (.buildFailed stage status.code? log)
    return status.code?
  | _ => throw (.stopped stage)

/-- The firmware, to be built from the board and an application. -/
def buildTask (s : Setup) (app : String) (template : Option String) (r : Run) :
    Action Error Task := do
  let stage := Stage.build
  let ws := s.workspace
  let boardDir := ws.boardDir r.board
  [boardDir, app].forM (requireDir stage)
  let app ← (Action.canonical app).mapError (.file app)
  let inputs ← buildInputs boardDir app r.board template
  let kept := Board.BuildFiles.inDir (ws.buildsDir r.board)
  let outputs := [kept.program, kept.devicetree]
  return {
    stage := stage
    inputs := inputs
    outputs := outputs
    body := fun r => do
      let (code, time) ← timed do
        let code ← runBuild s r app
        outputs.forM (requireOutput stage)
        return code
      return ⟨stage, .executed, code, some (r.cache.logPath stage), outputs, time⟩ }

/-- The firmware built from the board and an application. -/
def build (s : Setup) (r : Run) (app : String) (template : Option String) : Action Error Run :=
  r.staged .build (buildTask s app template)

/-- The platform description that the translator prints for a devicetree. -/
def translate (s : Setup) (r : Run) (devicetree : String) : Action Error String := do
  let stage := Stage.prepareSimulatorFiles
  let log := r.cache.logPath stage
  let tool := call s .translator [("dts", devicetree), ("board", r.board)] stage
  let (status, output) ← tool.captured log
  if status.isSuccess then return Text.Utf8.lossy output
  throw (.generation stage (.platform (.failed
    s!"{tool.tool.program} exited with {status.text}; see {log}")))

/-- Everything that the simulator's files are made from. -/
def simulatorInputs (built : Board.BuildFiles) (board script : String) : Action Error Inputs := do
  let inputs ← (Inputs.ofStage .prepareSimulatorFiles).file "dts" built.devicetree
  let inputs ← inputs.file "elf" built.program
  return (inputs.text "resc_template" script).text "board" board

/-- The simulator's files, to be made from the kept build. -/
def simulatorTask (s : Setup) (templatesDir : Option String) (r : Run) : Action Error Task := do
  let stage := Stage.prepareSimulatorFiles
  let builds := s.workspace.buildsDir r.board
  let built := Board.BuildFiles.inDir builds
  [built.devicetree, built.program].forM (requireFile stage)
  let script ← (Board.scriptTemplate templatesDir).mapError (.generation stage)
  let inputs ← simulatorInputs built r.board script
  let files := Board.PlatformFiles.inDir builds r.board
  return {
    stage := stage
    inputs := inputs
    outputs := [files.script, files.description]
    body := fun r => do
      let (files, time) ← timed
        (Board.preparePlatform (.generation stage) r.board builds templatesDir (translate s r))
      return ⟨stage, .executed, none, some (r.cache.logPath stage),
        [files.script, files.description], time⟩ }

/-- The simulator's files made from the kept build. -/
def prepareSimulatorFiles (s : Setup) (r : Run) (templatesDir : Option String) :
    Action Error Run :=
  r.staged .prepareSimulatorFiles (simulatorTask s templatesDir)

/-- What the end of a simulator means. -/
def simulationOutcome (log : Option String) : Tool.Ending →
    Except Error (Stage.Outcome × Option Int)
  | .exited status =>
    if status.isSuccess then .ok (.executed, status.code?)
    else .error (.simulationFailed s!"simulator exited with {status.text}" log)
  | .interrupted status =>
    if status.isInterrupt || status.isSuccess then .ok (.timedOut, status.code?)
    else .error (.simulationFailed s!"simulator exited with {status.text} after SIGINT" log)
  | .killed => .error (.simulationFailed "simulator ignored SIGINT and was killed" log)

/-- The simulator run on the kept build, no longer than `timeout` milliseconds. -/
def simulate (s : Setup) (r : Run) (timeout : Option Nat) : Action Error Run := do
  let stage := Stage.simulate
  let r ← r.enter stage
  let builds := s.workspace.buildsDir r.board
  let built := Board.BuildFiles.inDir builds
  let files := Board.PlatformFiles.inDir builds r.board
  [files.script, files.description, built.program].forM (requireFile stage)
  let tool := call s .simulator [("board", r.board), ("resc", files.script),
    ("repl", files.description), ("elf", built.program)] stage
  let limits : Tool.Limits := ⟨timeout, s.grace, s.stop stage⟩
  let log := r.cache.logPath stage
  let (ending, time) ← timed
    (if s.showsOutput then tool.shown limits else tool.logged log limits)
  let shownLog := if s.showsOutput then none else some log
  let (outcome, code) ← Action.ofExcept (simulationOutcome shownLog ending)
  return r.record ⟨stage, outcome, code, shownLog, [], time⟩

end Run

/-- What to run for a board. -/
structure Request where
  board : String
  first : Stage
  last : Stage
  /-- Needed to prepare the board. -/
  design : Option Graph.ValidDesign
  /-- An application to be made after the board. -/
  template : Option App.Source
  /-- The application to build; by default the one that is made. -/
  app : Option String
  templatesDir : Option String
  timeout : Option Nat

namespace Request

def appDir? (q : Request) : Option String := q.app <|> q.template.map (·.outputDir)

/-- One stage of a request. -/
def runStage (s : Setup) (q : Request) (r : Run) (stage : Stage) : Action Error Run := do
  match stage with
  | .prepareBoard =>
    match q.design with
    | none => throw (.missingGraph stage)
    | some g =>
      let r ← Run.prepareBoard s r g
      match q.template with
      | some source =>
        let _ ← Run.generateApp g source
        return r
      | none => return r
  | .build =>
    match q.appDir? with
    | none => throw (.missingArtifact stage "<application>")
    | some app => Run.build s r app (q.template.map (·.templateDir))
  | .prepareSimulatorFiles => Run.prepareSimulatorFiles s r q.templatesDir
  | .simulate => Run.simulate s r q.timeout

/-- The stages of a request run in order up to the first failure, under the board's lock. -/
def run (s : Setup) (q : Request) : Action Error Run.Report := do
  let r ← Run.start s q.board q.first
  match ← Action.attempt ((Stage.range q.first q.last).foldlM (runStage s q) r) with
  | .ok r => r.finish
  | .error e =>
    r.release
    throw e

end Request

end BoardDesign
