import BoardDesign.Program.Design
/-!
Commands that run stages for a board.
-/

namespace BoardDesign.Program

open File.Path (join)

/-- A request for one stage of a board. -/
def single (board : String) (stage : Stage) : Request where
  board := board
  first := stage
  last := stage
  design := none
  template := none
  app := none
  templatesDir := none
  timeout := none

def setup (s : Settings) (host : Host) (needsZephyr showsOutput : Bool) : Action Failure Setup :=
  Action.ofExcept ((s.setup host needsZephyr showsOutput).mapError .settings)

/-- A request run, with the report printed. -/
def reported (setup : Setup) (q : Request) : Action Failure Unit := do
  let report ← (q.run setup).mapError .stage
  Action.print .out report.text

def prepareBoard (s : Settings) (host : Host) (graph : String) (modifications : List String) :
    Action Failure Unit := do
  let g ← loadDesign s graph modifications
  let board := g.boardName
  reported (← setup s host true false) { single board .prepareBoard with design := some g }
  say (s!"Board '{board}' ready in " ++ s.workspace.boardDir board)

def build (s : Settings) (host : Host) (board : String) (app : Option String) :
    Action Failure Unit := do
  let app := app.getD (join s.workspace.generatedDir board)
  reported (← setup s host true false) { single board .build with app := some app }

def prepareSimulatorFiles (s : Settings) (host : Host) (board : String)
    (templatesDir : Option String) : Action Failure Unit := do
  reported (← setup s host false false)
    { single board .prepareSimulatorFiles with templatesDir := templatesDir }

/-- A simulation with the output of the simulator in place of a report. -/
def simulate (s : Settings) (host : Host) (board : String) (seconds : Option Nat) :
    Action Failure Unit := do
  let setup ← setup s host false true
  let q := { single board .simulate with timeout := seconds.map (· * 1000) }
  let report ← (q.run setup).mapError .stage
  if report.outcome? .simulate = some .timedOut then
    say (s!"Simulation of '{board}' stopped" ++
      (seconds.map fun n => " after " ++ Decimal.natText n ++ "s").getD "")

/-- The board prepared and an application built for it, which may be made from a template first. -/
def prepareApplication (s : Settings) (host : Host) (graph source : String)
    (template : Option String) (force : Bool) (modifications : List String) :
    Action Failure Unit := do
  let g ← loadDesign s graph modifications
  let board := g.boardName
  let q : Request := { single board .prepareBoard with
    last := .build
    design := some g
    template := template.map fun dir => ⟨dir, source, force⟩
    app := some source }
  reported (← setup s host true false) q
  say s!"Application for '{board}' built from {source}"

/-- A directory of a board removed, if there is one. -/
def removeDir (dir : String) : Action Failure Unit := do
  if ← Action.doesExist dir then
    (Action.removeDir dir).mapError (.removing dir)
    say ("Removed " ++ dir)
  else say s!"Already clean: {dir} does not exist"

/-- All directories of a board removed while nobody else works with it. -/
def clean (s : Settings) (host : Host) (board : String) : Action Failure Unit := do
  let ws := s.workspace
  let acquired := Workspace.Lock.acquire host.pid ws.locksDir board .prepareBoard
  let lock ← acquired.alone.mapError .stage
  let result ← Action.attempt ((ws.boardDirs board).forM removeDir)
  Action.modifying fun w => (lock.release.run w).2
  Action.ofExcept result

end BoardDesign.Program
