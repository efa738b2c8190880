import BoardDesign.Run.Basic
import BoardDesign.Settings.File
import BoardDesign.Settings.Version
/-!
Settings: where the workspace, the Zephyr tree and the resources are, and which tools to use.

The environment goes before the settings file of the workspace, and the file before what is usual.
-/

namespace BoardDesign

open File.Path (join)

/-- What the program finds around it. -/
structure Host where
  /-- The number of its own process. -/
  pid : Nat
  env : Table String
  launch : Tool.Launcher
  /-- What comes over the connection to the diagram editor; none if there is no connection. -/
  editor : Option (List UInt8)

structure Settings where
  workspace : Workspace
  zephyrBase : Option String
  sdkDir : Option String
  sdkVersion : Option Version
  resourcesDir : String
  tools : Toolchain
  /-- Further variables for the environment of tools. -/
  vars : Table String
  /-- Whether the workspace has a settings file. -/
  hasFile : Bool
deriving DecidableEq, Repr

namespace Settings

inductive Error where
  | workspace (path : String) (fault : File.Fault)
  | file (path : String) (fault : File.Fault)
  | malformed (path : String) (defect : Defect)
  | badVersion (text : String)
  | unknownTool (name path : String)
  | noZephyrBase
deriving DecidableEq, Repr

def toolNames : String := Text.joinWith ", " (ToolName.all.map ToolName.text)

def Error.message : Error → String
  | .workspace path fault => s!"cannot open workspace {path}: {fault.message}"
  | .file path fault => s!"failed to read {path}: {fault.message}"
  | .malformed path defect => s!"in {path}: {defect.message}"
  | .badVersion text => s!"invalid zephyr_sdk_version '{text}': " ++ Text.unreadable
  | .unknownTool name path => s!"unknown tool '{name}' in {path} (expected one of: {toolNames})"
  | .noZephyrBase => "ZEPHYR_BASE is not set (export it or set it in vsd-env.yml)"

def zephyrBaseName : String := "ZEPHYR_BASE"

def sdkDirName : String := "ZEPHYR_SDK_INSTALL_DIR"

def workspaceName : String := "VSD_WORKSPACE"

def usualResourcesDir : String := "visual-system-designer-resources"

/-- The settings file of a workspace, if it has one. -/
def loadFile (path : String) : Action Error (Option File) := do
  if !(← Action.doesExist path) then return none
  let text ← (Action.readText path).mapError (.file path)
  let file ← Action.ofExcept ((File.read text).mapError (.malformed path))
  return some file

def readVersion (text : String) : Except Error Version :=
  match Version.ofText? text with
  | some v => .ok v
  | none => .error (.badVersion text)

/-- The usual tools with the parts replaced that a file gives. -/
def toolsFrom (path : String) (overrides : Table ToolOverride) : Except Error Toolchain :=
  overrides.toList.foldlM
    (fun tools o =>
      match ToolName.ofText? o.1 with
      | some name => .ok (tools.override name o.2)
      | none => .error (.unknownTool o.1 path))
    Toolchain.standard

/-- The settings of a workspace. The workspace is the one given, else the one that the environment
names, else the working directory. -/
def resolve (given : Option String) (env : Table String) : Action Error Settings := do
  let root := (given <|> env.get? workspaceName).getD "."
  let workspace ← (Workspace.openAt root).mapError (.workspace root)
  let path := workspace.settingsFile
  let found ← loadFile path
  let file := found.getD .empty
  let dir (name : String) : Option String :=
    (env.get? name <|> file.vars.get? name).map (join workspace.root)
  let sdkVersion ← Action.ofExcept (file.sdkVersion.mapM readVersion)
  let tools ← Action.ofExcept (toolsFrom path file.tools)
  return {
    workspace := workspace
    zephyrBase := dir zephyrBaseName
    sdkDir := dir sdkDirName
    sdkVersion := sdkVersion
    resourcesDir := join workspace.root (file.resourcesDir.getD usualResourcesDir)
    tools := tools
    vars := (file.vars.erase zephyrBaseName).erase sdkDirName
    hasFile := found.isSome }

/-- The file of the catalog. -/
def catalogPath (s : Settings) : String := join s.resourcesDir "components-specification.json"

/-- The environment of tools beyond the program's own. -/
def toolEnv (s : Settings) (zephyrBase : String) : Table String :=
  let env := (Table.ofList [(zephyrBaseName, zephyrBase)]).overlay s.vars
  match s.sdkDir with
  | some dir => env.insert sdkDirName dir
  | none => env

/-- How stages are run under the settings. Only some of them need the Zephyr tree. -/
def setup (s : Settings) (host : Host) (needsZephyr showsOutput : Bool) :
    Except Error Setup := do
  let base ← match s.zephyrBase with
    | some base => .ok base
    | none => if needsZephyr then .error .noZephyrBase else .ok ""
  return {
    workspace := s.workspace
    resourcesDir := s.resourcesDir
    zephyrBase := base
    tools := s.tools
    env := s.toolEnv base
    showsOutput := showsOutput
    grace := Tool.defaultGrace
    stop := fun _ => none
    pid := host.pid
    launch := host.launch }

end Settings

end BoardDesign
