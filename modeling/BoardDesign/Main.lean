import BoardDesign.File.Listing
import BoardDesign.Program.Run
import BoardDesign.Shell.Launch
/-!
The command line.

The program acts on a copy of what lies below the working directory; afterwards the differences are
written back, and what was printed is shown. Tools are run by the library's own shell, as scripts.
-/

namespace BoardDesign.CommandLine

/-- How deep directories are read. -/
def depth : Nat := 64

/-- Scripts may be run. -/
def isExecutable (content : List UInt8) : Bool := content.take 2 == [35, 33]

/-- All that lies below a directory of the machine, put below a location. -/
def load (path : String) (l : File.Location) (t : File.Tree) : Nat → IO File.Tree
  | 0 => pure t
  | fuel + 1 => do
    let mut t := t
    for entry in ← (System.mkFilePath [path]).readDir do
      let place := l ++ [entry.fileName]
      let inner := path ++ "/" ++ entry.fileName
      if ← entry.path.isDir then
        t ← load inner place (t.insert place .dir) fuel
      else
        let content := (← IO.FS.readBinFile inner).toList
        t := t.insert place (.file content (isExecutable content))
    return t

/-- One difference written back. -/
def apply (change : String × File.Change) : IO Unit := do
  let (path, what) := change
  match what with
  | .made => IO.FS.createDirAll path
  | .written content =>
    if let some parent := File.Path.parent? path then
      if !parent.isEmpty then IO.FS.createDirAll parent
    IO.FS.writeBinFile path ⟨content.toArray⟩
  | .removed =>
    if path.endsWith "/" then IO.FS.removeDirAll path else IO.FS.removeFile path

/-- The number of the program's own process. -/
def ownPid : IO Nat := do
  let stat ← IO.FS.readFile "/proc/self/stat"
  return (stat.takeWhile Char.isDigit).toNat?.getD 0

def processes : IO (List Nat) := do
  let entries ← (System.mkFilePath ["/proc"]).readDir
  return entries.toList.filterMap fun e => e.fileName.toNat?

/-- The variables that the program or its tools look at. -/
def environment : IO (Table String) := do
  let names := [Settings.zephyrBaseName, Settings.sdkDirName, Settings.workspaceName, "PATH", "HOME"]
  let found ← names.filterMapM fun n => do return (← IO.getEnv n).map fun v => (n, v)
  return Table.ofList found

/-- The machine as it is now. -/
def surroundings (here : File.Location) : IO World := do
  let above := (List.range here.length).map fun n => here.take (n + 1)
  let tree ← load "." here (above.foldl (fun t l => t.insert l .dir) File.Tree.empty) depth
  return Shell.install
    { files := tree
      here := here
      serial := ← IO.rand 0 (Nat.pow 16 12 - 1)
      processes := ← processes
      clock := ← IO.monoMsNow
      console := [] }

def display (printed : Stream × List UInt8) : IO Unit := do
  let stream ← match printed.1 with
    | .err => IO.getStderr
    | _ => IO.getStdout
  stream.write ⟨printed.2.toArray⟩

/-- The program called with arguments, and its exit code. -/
def call (arguments : List String) : IO UInt32 := do
  let here := World.names (toString (← IO.currentDir))
  let env ← environment
  let before ← surroundings here
  let host : Host := ⟨← ownPid, env, Shell.launcher env, none⟩
  let (code, after) := Program.main host arguments before
  for change in (before.files.listing here).changes (after.files.listing here) do
    apply change
  for printed in after.console do
    display printed
  return code.toUInt32

end BoardDesign.CommandLine

def main (arguments : List String) : IO UInt32 := BoardDesign.CommandLine.call arguments
