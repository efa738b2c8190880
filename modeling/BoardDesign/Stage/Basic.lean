/-!
The stages of making and running a board, in the order in which they run.
-/

namespace BoardDesign

inductive Stage where
  | prepareBoard
  | build
  | prepareSimulatorFiles
  | simulate
deriving DecidableEq, Repr, Inhabited

namespace Stage

def all : List Stage := [.prepareBoard, .build, .prepareSimulatorFiles, .simulate]

/-- The name in files and messages of the lock. -/
def id : Stage → String
  | .prepareBoard => "prepare_board"
  | .build => "build"
  | .prepareSimulatorFiles => "prepare_simulator_files"
  | .simulate => "simulate"

/-- The name in reports and errors. -/
def title : Stage → String
  | .prepareBoard => "PREPARE_BOARD"
  | .build => "BUILD"
  | .prepareSimulatorFiles => "PREPARE_SIMULATOR_FILES"
  | .simulate => "SIMULATE"

def ofId? (id : String) : Option Stage := all.find? fun s => s.id == id

def index : Stage → Nat
  | .prepareBoard => 0
  | .build => 1
  | .prepareSimulatorFiles => 2
  | .simulate => 3

/-- A simulation is run each time; the other stages are skipped if nothing changed. -/
def cacheable (s : Stage) : Bool := s != .simulate

/-- The stages from one to another one, both included. -/
def range (first last : Stage) : List Stage :=
  all.filter fun s => first.index ≤ s.index && s.index ≤ last.index

theorem mem_all (s : Stage) : s ∈ all := by cases s <;> decide

theorem ofId?_id (s : Stage) : ofId? s.id = some s := by cases s <;> decide

theorem mem_range {first last s : Stage} :
    s ∈ range first last ↔ first.index ≤ s.index ∧ s.index ≤ last.index := by
  simp [range, mem_all]

/-- How a stage went. -/
inductive Outcome where
  | executed
  /-- Nothing changed, so nothing was run. -/
  | cached
  /-- A simulation that was stopped when its time was over, which is no failure. -/
  | timedOut
deriving DecidableEq, Repr

def Outcome.text : Outcome → String
  | .executed => "executed"
  | .cached => "cached"
  | .timedOut => "timed out"

/-- The record of a stage that was run or skipped. -/
structure Result where
  stage : Stage
  outcome : Outcome
  /-- The exit code of its program, if one ran and ended with one. -/
  exitCode : Option Int
  log : Option String
  /-- What the stage made, or found in place. -/
  artifacts : List String
  milliseconds : Nat
deriving DecidableEq, Repr

def Result.ofCache (stage : Stage) (artifacts : List String) : Result :=
  ⟨stage, .cached, none, none, artifacts, 0⟩

end Stage

end BoardDesign
