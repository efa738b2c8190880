import BoardDesign.Program.Design
/-!
What is told about the workspace, the tools and the boards.
-/

namespace BoardDesign.Program

open File.Path (join)

def programVersion : String := "0.1.0"

/-- A path, with a remark if there is nothing. -/
def presence (path : String) : Action Failure String := do
  return if ← Action.doesExist path then path else path ++ " (missing)"

/-- The version of the SDK in a directory, beside the one that is expected. -/
def sdkVersionText (found expected : Option Version) : String :=
  match found, expected with
  | some found, some expected =>
    if found = expected then found.text else s!"{found.text} (expected {expected.text})"
  | some found, none => found.text
  | none, some expected => s!"unknown (expected {expected.text})"
  | none, none => "unknown"

def installedSdk (dir : String) : Action Failure (Option Version) := do
  match ← Action.attempt (Action.readText (join dir "sdk_version")) with
  | .ok text => return Version.ofText? (Text.trimmed text)
  | .error _ => return none

/-- The first line of what a tool says about its version. -/
def versionLine (output : List UInt8) : String :=
  match Text.lines (Text.Utf8.lossy output).toList with
  | line :: _ => String.ofList line
  | [] => "(unknown version)"

def toolLine (host : Host) (name : ToolName) (tool : Tool) : Action Failure String := do
  let head := s!"  {name.text} ({tool.program}): "
  let started ← Action.ask fun w => host.launch ⟨tool.program, ["--version"], ".", Table.empty⟩ w
  match started with
  | .error _ => return head ++ "not found"
  | .ok process =>
    let run := process.progress none process.lifetime
    Action.modifying fun _ => run.world
    return head ++ versionLine (Tool.outputOf .out run.output)

/-- A board with what is known about its lock. -/
def boardLine (s : Settings) (board : String) : Action Failure String := do
  let path := Workspace.Lock.pathFor s.workspace.locksDir board
  match ← Action.attempt (Workspace.Lock.read path).alone with
  | .ok none => return "  " ++ board
  | .ok (some h) =>
    let pid := Decimal.natText h.pid
    if ← Action.ask fun w => w.processes.contains h.pid then
      return s!"  {board}: busy ({h.stage} by pid {pid})"
    else return s!"  {board}: stale lock from pid {pid}"
  | .error e => return s!"  {board}: unreadable lock: {e.message}"

def sayZephyr (s : Settings) : Action Failure Unit := do
  say "--- Zephyr ---"
  match s.zephyrBase with
  | some base => say ("  ZEPHYR_BASE: " ++ (← presence base))
  | none => say "  ZEPHYR_BASE: not set"
  match s.sdkDir with
  | some dir =>
    say ("  SDK:         " ++ (← presence dir))
    say ("  SDK version: " ++ sdkVersionText (← installedSdk dir) s.sdkVersion)
  | none => say "  SDK:         not set"
  say ""

def info (s : Settings) (host : Host) : Action Failure Unit := do
  ["=== VSD Info ===", "", "VSD version: " ++ programVersion, "", "--- Workspace ---",
    "  Root:      " ++ s.workspace.root,
    "  vsd-env.yml: " ++ if s.hasFile then "found" else "not found (using defaults)"].forM say
  say ("  Resources: " ++ (← presence s.resourcesDir))
  say ("  Catalog:   " ++ (← presence s.catalogPath))
  say ""
  sayZephyr s
  say "--- Tools ---"
  ToolName.all.forM fun name => do say (← toolLine host name (s.tools.get name))
  say ""
  let boards ← s.workspace.boards.mapError .listingBoards
  say ("--- Boards (" ++ Decimal.natText boards.length ++ ") ---")
  boards.forM fun board => do say (← boardLine s board)

end BoardDesign.Program
