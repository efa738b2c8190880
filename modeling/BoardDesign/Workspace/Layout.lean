import BoardDesign.Board.Files
/-!
Where a workspace keeps what belongs to its boards.
-/

namespace BoardDesign

open File (Fault)
open File.Path (join)

/-- The root is an absolute path. -/
structure Workspace where
  root : String
deriving DecidableEq, Repr, Inhabited

namespace Workspace

/-- The workspace in a directory, which is made if it is missing. -/
def openAt (path : String) : Action Fault Workspace := do
  Action.makeDirs path
  return ⟨← Action.canonical path⟩

def settingsFile (w : Workspace) : String := join w.root "vsd-env.yml"

def boardsDir (w : Workspace) : String := join w.root "boards"

def boardDir (w : Workspace) (board : String) : String := join w.boardsDir board

def buildRoot (w : Workspace) : String := join w.root "build"

def buildsRoot (w : Workspace) : String := join w.root "builds"

/-- Where a board is built. -/
def buildDir (w : Workspace) (board : String) : String := join w.buildRoot board

/-- What is kept of a board's builds. -/
def buildsDir (w : Workspace) (board : String) : String := join w.buildsRoot board

def stagesDir (w : Workspace) (board : String) : String := join (w.buildsDir board) ".stages"

/-- Where applications are generated. -/
def generatedDir (w : Workspace) : String := join w.root "generated"

def locksDir (w : Workspace) : String := join w.root ".locks"

def target (w : Workspace) (board resourcesDir zephyrBase : String) : Board.Target :=
  ⟨board, w.boardsDir, resourcesDir, zephyrBase⟩

/-- The directories that belong to a board. -/
def boardDirs (w : Workspace) (board : String) : List String :=
  [w.boardDir board, w.buildDir board, w.buildsDir board]

/-- The directories in a directory, if it is one. -/
def subdirectories (dir : String) : Action Fault (List String) := do
  if !(← Action.isDir dir) then return []
  let names ← Action.readDir dir
  names.filterM fun name => Action.isDir (join dir name)

/-- The boards that the workspace has anything of, in the order of their names. -/
def boards (w : Workspace) : Action Fault (List String) := do
  let names ← [w.boardsDir, w.buildRoot, w.buildsRoot].mapM subdirectories
  return (Table.ofList (names.flatten.map fun n => (n, ()))).keys

end Workspace

end BoardDesign
