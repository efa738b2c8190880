import BoardDesign.Tool.Command
import BoardDesign.Yaml.Fields
/-!
The settings file of a workspace.

Keys in capitals are environment variables for all tools; the other keys are known ones.
-/

namespace BoardDesign.Settings

open Yaml (Node)

/-- What is wrong with a settings file. -/
inductive Defect where
  | unreadable
  | unknownKey (key : String)
deriving DecidableEq, Repr

def Defect.message : Defect → String
  | .unreadable => "failed to parse vsd-env.yml: " ++ Text.unreadable
  | .unknownKey key => s!"unknown key '{key}' (environment variables are upper case)"

structure File where
  /-- The version that the SDK is expected to have. -/
  sdkVersion : Option String
  resourcesDir : Option String
  tools : Table ToolOverride
  vars : Table String
deriving DecidableEq, Repr

namespace File

def empty : File := ⟨none, none, Table.empty, Table.empty⟩

def override? (n : Node) : Option ToolOverride := do
  let fields ← n.record? ToolOverride.known
  if !fields.all fun f => ToolOverride.known.contains f.1 then none
  let program ← Yaml.Fields.optional fields "program" Node.str?
  let args ← Yaml.Fields.optional fields "args" Node.strings?
  some ⟨program, args⟩

def overrides? (n : Node) : Option (Table ToolOverride) :=
  n.fields?.bind fun fields =>
    (fields.mapM fun f => (override? f.2).map (f.1, ·)).map Table.ofList

def text? : Yaml.Value → Option String
  | .text s => some s
  | _ => none

def known : List String := ["zephyr_sdk_version", "resources_dir", "tools"]

def ofNode? (n : Node) : Option File := do
  let fields ← n.record? known
  let sdkVersion ← Yaml.Fields.optional fields "zephyr_sdk_version" Node.str?
  let resourcesDir ← Yaml.Fields.optional fields "resources_dir" Node.str?
  let tools ← Yaml.Fields.default fields "tools" Table.empty overrides?
  let vars ← Yaml.Fields.extra known fields
  let vars ← vars.toList.mapM fun e => (text? e.2).map (e.1, ·)
  some ⟨sdkVersion, resourcesDir, tools, Table.ofList vars⟩

def isCapital (c : Char) : Bool := 'A' ≤ c && c ≤ 'Z'

/-- The name of an environment variable in capitals. -/
def isVariable (key : String) : Bool :=
  match key.toList with
  | [] => false
  | c :: rest =>
    (isCapital c || c == '_') && rest.all fun c => isCapital c || Text.isDigit c || c == '_'

/-- The settings that a text holds; a text without any document holds none. -/
def read (text : String) : Except Defect File := do
  let file ← match Node.parse text with
    | none => .error .unreadable
    | some none => .ok empty
    | some (some n) =>
      match ofNode? n with
      | some file => .ok file
      | none => .error .unreadable
  match file.vars.keys.find? fun k => !isVariable k with
  | some key => .error (.unknownKey key)
  | none => .ok file

end File

end BoardDesign.Settings
