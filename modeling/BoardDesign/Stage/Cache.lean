import BoardDesign.Stage.Inputs
/-!
The record of the last successful run of each stage.

Each stage has a file that holds the digest of the inputs of its last run. A stage may be skipped
if its inputs have that digest and all that it makes is still there.
-/

namespace BoardDesign.Stage

open File.Path (join)

structure Cache where
  dir : String
  hits : Nat
  misses : Nat
deriving DecidableEq, Repr

namespace Cache

def ofDir (dir : String) : Cache := ⟨dir, 0, 0⟩

def hashPath (c : Cache) (s : Stage) : String := join c.dir (s.id ++ ".hash")

def logPath (c : Cache) (s : Stage) : String := join c.dir (s.id ++ ".log")

/-- The digest on record for a stage. -/
def recorded? (w : World) (c : Cache) (s : Stage) : Option ContentHash :=
  (w.textAt (c.hashPath s)).toOption.bind ContentHash.ofText?

/-- The stage may be skipped for inputs with this digest. -/
def holds (w : World) (c : Cache) (s : Stage) (digest : ContentHash) (outputs : List String) :
    Bool :=
  s.cacheable && recorded? w c s == some digest && outputs.all w.doesExist

def count (c : Cache) (hit : Bool) : Cache :=
  if hit then { c with hits := c.hits + 1 } else { c with misses := c.misses + 1 }

/-- Whether the stage may be skipped, counted as a hit or a miss. -/
def lookup (c : Cache) (s : Stage) (digest : ContentHash) (outputs : List String) :
    Action Error (Bool × Cache) :=
  Action.ask fun w => let hit := holds w c s digest outputs; (hit, c.count hit)

/-- The digest of a successful run put on record. -/
def store (c : Cache) (s : Stage) (digest : ContentHash) : Action Error Unit := do
  (Action.makeDirs c.dir).mapError (.file c.dir)
  let path := c.hashPath s
  (Action.writeText path (digest.text ++ "\n")).mapError (.file path)

/-- The record of a stage taken away before the stage is run, so that a run that is broken off is
never taken for a finished one. -/
def invalidate (c : Cache) (s : Stage) : Action Error Unit := do
  let path := c.hashPath s
  match ← Action.attempt (Action.removeFile path) with
  | .ok () => return
  | .error .notFound => return
  | .error fault => throw (.file path fault)

end Cache

end BoardDesign.Stage
