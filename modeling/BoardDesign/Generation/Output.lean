import BoardDesign.File.World
import BoardDesign.Generation.Error
/-!
Output that appears as a whole or not at all.

A directory is filled beside the place where it belongs and then moved there; the old one is moved
aside first and removed last. Files are written beside their places and moved when all are
written.
-/

namespace BoardDesign.Generation

open File (Fault)

/-- A file operation at a path; its failure names the path. -/
def onPath {α : Type} (path : String) (a : Action Fault α) : Action Error α :=
  a.mapError (.file path)

def removeIfThere (path : String) : Action Error Unit := do
  if ← Action.doesExist path then onPath path (Action.removeDir path)

/-- The filled directory moved into its place, over the old one if there is one. -/
def swapIn (staging target : String) : Action Error Unit := do
  if !(← Action.doesExist target) then onPath target (Action.rename staging target)
  else
    let backup := File.Path.sibling target "old"
    removeIfThere backup
    onPath target (Action.rename target backup)
    match ← Action.attempt (Action.rename staging target) with
    | .error fault =>
      Action.ignoring (Action.rename backup target)
      throw (.file target fault)
    | .ok () => removeIfThere backup

/-- A directory replaced by what `fill` puts into a new one. Without `force` there may be no old
one. If `fill` fails the old directory stays. -/
def replaceDir {α : Type} (target : String) (force : Bool) (fill : String → Action Error α) :
    Action Error α := do
  if (← Action.doesExist target) && !force then throw (.outputExists target)
  match File.Path.parent? target with
  | some parent => if !parent.isEmpty then onPath parent (Action.makeDirs parent)
  | none => pure ()
  let staging := File.Path.sibling target "staging"
  removeIfThere staging
  onPath staging (Action.makeDir staging)
  match ← Action.attempt (fill staging) with
  | .error e =>
    Action.ignoring (Action.removeDir staging)
    throw e
  | .ok result =>
    swapIn staging target
    return result

/-- Texts written beside their places; `staged` are the paths written so far. -/
def stageFiles (staged : List String) : List (String × String) → Action Error Unit
  | [] => pure ()
  | (path, text) :: rest => do
    let temporary := File.Path.sibling path "tmp"
    match ← Action.attempt (Action.writeText temporary text) with
    | .error fault =>
      staged.forM fun t => Action.ignoring (Action.removeFile t)
      throw (.file temporary fault)
    | .ok () => stageFiles (staged ++ [temporary]) rest

/-- Files written so that none is in its place before all are written. -/
def writeFiles (files : List (String × String)) : Action Error Unit := do
  stageFiles [] files
  files.forM fun f => onPath f.1 (Action.rename (File.Path.sibling f.1 "tmp") f.1)

/-- All that is in one directory copied into another one. `fuel` bounds how deep directories can
be nested. -/
def copyTreeFrom (source target : String) : Nat → Action Error Unit
  | 0 => throw (.file source .nameTooLong)
  | fuel + 1 => do
    let names ← onPath source (Action.readDir source)
    names.forM fun name => do
      let a := File.Path.join source name
      let b := File.Path.join target name
      if ← Action.isDir a then
        onPath b (Action.makeDir b)
        copyTreeFrom a b fuel
      else onPath b (Action.copy a b)

/-- The entries of a directory are listed before any of them is copied, so a directory that holds
its own copy is copied as deep as the longest path allows. -/
def deepestPath : Nat := 4096

def copyTree (source target : String) : Action Error Unit :=
  copyTreeFrom source target deepestPath

end BoardDesign.Generation
