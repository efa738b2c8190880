import BoardDesign.File.Work
import BoardDesign.Json.Fields
import BoardDesign.Json.Reader
import BoardDesign.Json.Writer
import BoardDesign.Stage.Error
/-!
The lock of a board, which at most one run holds.

A lock is a file that tells who holds it. The file is written under a private name and then
linked to its place, so nobody sees half of it. A lock whose holder does not run any more is taken
over. Acquiring, changing and releasing are work in steps, between which others may act.
-/

namespace BoardDesign.Workspace

open Stage (Error)
open File (Fault)
open File.Path (join withFileName fileName?)

/-- Who holds a lock. -/
structure Holder where
  pid : Nat
  /-- What the holder does; the name of a stage. -/
  stage : String
  token : String
deriving DecidableEq, Repr

namespace Holder

def known : List String := ["pid", "stage", "token"]

def toJson (h : Holder) : Json :=
  .obj [("pid", .int h.pid), ("stage", .str h.stage), ("token", .str h.token)]

def ofJson? (a : Json) : Option Holder := do
  let fields ← Json.Fields.orList? known a
  let pid ← Json.Fields.required fields "pid" (Json.natBelow? (Nat.pow 2 32))
  let stage ← Json.Fields.required fields "stage" Json.str?
  let token ← Json.Fields.required fields "token" Json.str?
  some ⟨pid, stage, token⟩

def bytes (h : Holder) : List UInt8 := Text.Utf8.bytes h.toJson.compact

end Holder

structure Lock where
  path : String
  board : String
  holder : Holder
deriving DecidableEq, Repr

namespace Lock

def pathFor (locksDir board : String) : String := join locksDir (board ++ ".lock")

/-- The name under which a holder writes its file before the file takes its place. -/
def privatePath (path token : String) : String :=
  withFileName path ("." ++ (fileName? path).getD "" ++ "." ++ token)

/-- The holder that a lock file names, if there is a file. -/
def read (path : String) : Steps Error (Option Holder) := do
  match ← (Work.attempt (Action.readText path) : Work _) with
  | .error .notFound => return none
  | .error fault => throw (.file path fault)
  | .ok text =>
    match (Json.parse text).bind Holder.ofJson? with
    | some h => return some h
    | none => throw (.unreadableLock path)

/-- A file removed; one that is not there is no failure. -/
def remove (path : String) : Steps Error Unit := do
  match ← (Work.attempt (Action.removeFile path) : Work _) with
  | .ok () => return
  | .error .notFound => return
  | .error fault => throw (.file path fault)

def writePrivate (path : String) (h : Holder) : Steps Error Unit :=
  Steps.atomic (.file path) (Action.create path h.bytes)

/-- A lock file put into its place; false if there is one already. -/
def publish (path : String) (h : Holder) : Steps Error Bool := do
  let staging := privatePath path h.token
  writePrivate staging h
  let linked ← (Work.attempt (Action.link staging path) : Work _)
  remove staging
  match linked with
  | .ok () => return true
  | .error .exists => return false
  | .error fault => throw (.file path fault)

/-- Why a lock that someone holds cannot be had. -/
def contention (board : String) (h : Holder) : Error :=
  if h.stage = Stage.simulate.id then .alreadyRunning board h.pid
  else .workspaceBusy board h.pid h.stage

def isAlive (pid : Nat) : Steps Error Bool :=
  (Work.atomic fun w => (decide (pid ∈ w.processes), w) : Work Bool)

def freshToken : Steps Error String := (Work.atomic World.fresh : Work String)

/-- The lock file published, with `attempts` tries. A try that finds a holder that runs fails; one
that finds a holder that does not run removes the file before the next one. -/
def acquireWithin (path board : String) (h : Holder) : Nat → Steps Error Unit
  | 0 => do
    match ← read path with
    | some other => throw (contention board other)
    | none => throw (.lockVanished path)
  | attempts + 1 => do
    if ← publish path h then return
    match ← read path with
    | none => acquireWithin path board h attempts
    | some other =>
      if ← isAlive other.pid then throw (contention board other)
      remove path
      acquireWithin path board h attempts

/-- How often a lock is tried for: once, and once more after a lock without a holder. -/
def attempts : Nat := 2

/-- The lock of a board taken by process `self`. -/
def acquire (self : Nat) (locksDir board : String) (stage : Stage) : Steps Error Lock := do
  Steps.atomic (.file locksDir) (Action.makeDirs locksDir)
  let path := pathFor locksDir board
  let h : Holder := ⟨self, stage.id, ← freshToken⟩
  acquireWithin path board h attempts
  return ⟨path, board, h⟩

/-- What the holder does, made known. -/
def setStage (l : Lock) (stage : Stage) : Steps Error Lock := do
  let h := { l.holder with stage := stage.id }
  let staging := privatePath l.path h.token
  writePrivate staging h
  Steps.atomic (.file l.path) (Action.rename staging l.path)
  return { l with holder := h }

/-- The lock given up. A file that someone else has put into its place stays. -/
def release (l : Lock) : Work Unit := do
  match ← ExceptT.run (read l.path) with
  | .ok (some h) =>
    if h.token = l.holder.token then
      let _ ← Work.attempt (Action.removeFile l.path)
  | _ => return

end Lock

end BoardDesign.Workspace
