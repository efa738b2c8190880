import BoardDesign.Json.Fields
import BoardDesign.Text.Basic
/-!
The programs that boards are built and run with.

A tool is a program and its arguments. An argument may hold names in braces, which stand for
values that a stage gives; a name without a value stays as it is written.
-/

namespace BoardDesign

structure Tool where
  program : String
  args : List String
deriving DecidableEq, Repr, Inhabited

namespace Tool

def isNameStart (c : Char) : Bool := Text.isLetter c || c == '_'

def isNameChar (c : Char) : Bool := isNameStart c || Text.isDigit c

/-- The name in braces that begins after an opening brace, and the text after the closing one. -/
def placeholder? : List Char → Option (List Char × List Char)
  | [] => none
  | c :: rest =>
    if isNameStart c then
      match rest.dropWhile isNameChar with
      | '\x7d' :: after => some (c :: rest.takeWhile isNameChar, after)
      | _ => none
    else none

/-- The text with the names in braces replaced that have values. `fuel` is the length of the text
at least. -/
def fillFrom (vars : Table String) : Nat → List Char → List Char
  | 0, cs => cs
  | _, [] => []
  | fuel + 1, '\x7b' :: rest =>
    match placeholder? rest with
    | none => '\x7b' :: fillFrom vars fuel rest
    | some (name, after) =>
      let value := match vars.get? (String.ofList name) with
        | some v => v.toList
        | none => '\x7b' :: (name ++ ['\x7d'])
      value ++ fillFrom vars fuel after
  | fuel + 1, c :: rest => c :: fillFrom vars fuel rest

def fill (vars : Table String) (arg : String) : String :=
  String.ofList (fillFrom vars arg.length arg.toList)

def toJson (t : Tool) : Json :=
  .obj [("program", .str t.program), ("args", .arr (t.args.map .str))]

/-- The arguments with values for the names in braces. -/
def renderArgs (t : Tool) (vars : Table String) : List String := t.args.map (fill vars)

end Tool

/-- What settings say about a tool. -/
structure ToolOverride where
  program : Option String
  args : Option (List String)
deriving DecidableEq, Repr

namespace ToolOverride

def known : List String := ["program", "args"]

def ofJson? (a : Json) : Option ToolOverride := do
  let fields ← Json.Fields.closed? known a
  if fields.length < known.length && a.list?.isSome then none
  let program ← Json.Fields.optional fields "program" Json.str?
  let args ← Json.Fields.optional fields "args" Json.strings?
  some ⟨program, args⟩

def toJson (o : ToolOverride) : Json :=
  .obj [("program", (o.program.map .str).getD .null),
    ("args", (o.args.map fun args => .arr (args.map .str)).getD .null)]

end ToolOverride

inductive ToolName where
  | west
  | translator
  | simulator
  | editor
deriving DecidableEq, Repr

namespace ToolName

def all : List ToolName := [.west, .translator, .simulator, .editor]

def text : ToolName → String
  | .west => "west"
  | .translator => "translator"
  | .simulator => "simulator"
  | .editor => "editor"

def ofText? (s : String) : Option ToolName := all.find? fun n => n.text == s

end ToolName

structure Toolchain where
  /-- Builds firmware. -/
  west : Tool
  /-- Prints the platform description for a devicetree. -/
  translator : Tool
  simulator : Tool
  /-- Serves the diagram editor. -/
  editor : Tool
deriving DecidableEq, Repr, Inhabited

namespace Toolchain

/-- A name in braces. -/
def hole (name : String) : String := "\x7b" ++ name ++ "\x7d"

def standard : Toolchain where
  west := ⟨"west", ["build", "-p", "-b", hole "board", "--build-dir", hole "build_dir", hole "app",
    "--", "-DBOARD_ROOT=" ++ hole "board_root"]⟩
  translator := ⟨"dts2repl", [hole "dts"]⟩
  simulator := ⟨"renode", ["--console", "--disable-gui", hole "resc", "-e", "start"]⟩
  editor := ⟨"pipeline_manager", ["--frontend-directory", hole "frontend_dir",
    "--workspace-directory", hole "editor_workspace", "--backend-host", hole "host",
    "--backend-port", hole "port", "--tcp-server-host", hole "backend_host",
    "--tcp-server-port", hole "backend_port"]⟩

def get (t : Toolchain) : ToolName → Tool
  | .west => t.west
  | .translator => t.translator
  | .simulator => t.simulator
  | .editor => t.editor

def set (t : Toolchain) (name : ToolName) (tool : Tool) : Toolchain :=
  match name with
  | .west => { t with west := tool }
  | .translator => { t with translator := tool }
  | .simulator => { t with simulator := tool }
  | .editor => { t with editor := tool }

theorem get_set (t : Toolchain) (m n : ToolName) (tool : Tool) :
    (t.set m tool).get n = if n = m then tool else t.get n := by
  cases m <;> cases n <;> rfl

def toJson (t : Toolchain) : Json := .obj (ToolName.all.map fun n => (n.text, (t.get n).toJson))

/-- One tool with the parts of it replaced that settings give. -/
def override (t : Toolchain) (name : ToolName) (o : ToolOverride) : Toolchain :=
  let old := t.get name
  t.set name ⟨o.program.getD old.program, o.args.getD old.args⟩

end Toolchain

end BoardDesign
