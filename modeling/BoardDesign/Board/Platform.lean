import BoardDesign.Board.Devicetree
import BoardDesign.Generation.Output
import BoardDesign.Template.Render
/-!
The files that a simulator runs a built board with: a script, and a description of the platform.

The description comes from a translator of devicetrees. The script points at the description, so
both files appear together or not at all.
-/

namespace BoardDesign.Board

open Generation (Error onPath)
open File.Path (join)

/-- The file of a templates directory that holds the script's template. -/
def scriptTemplateFile : String := "run.resc"

/-- The script's template when no templates directory is given. -/
def defaultScript : String := String.join [
  ":name: \x7b\x7b board_name \x7d\x7d\n",
  ":description: Simulation of the \x7b\x7b board_name \x7d\x7d board\n",
  "\n",
  "using sysbus\n",
  "$name?=\"\x7b\x7b board_name \x7d\x7d\"\n",
  "mach create $name\n",
  "\n",
  "machine LoadPlatformDescription @\x7b\x7b repl_path \x7d\x7d\n",
  "$bin?=@\x7b\x7b elf_path \x7d\x7d\n",
  "\n",
  "//! for console in consoles\n",
  "showAnalyzer \x7b\x7b console \x7d\x7d\n",
  "//! endfor\n",
  "\n",
  "macro reset\n",
  "\"\"\"\n",
  "    sysbus LoadELF $bin\n",
  "\"\"\"\n",
  "runMacro $reset\n"]

structure PlatformFiles where
  script : String
  description : String
deriving DecidableEq, Repr

namespace PlatformFiles

def inDir (dir board : String) : PlatformFiles :=
  ⟨join dir (board ++ ".resc"), join dir (board ++ ".repl")⟩

end PlatformFiles

/-- The files of a build that the simulator needs. -/
structure BuildFiles where
  devicetree : String
  program : String
deriving DecidableEq, Repr

namespace BuildFiles

def inDir (dir : String) : BuildFiles :=
  let zephyr := join dir "zephyr"
  ⟨join zephyr "zephyr.dts", join zephyr "zephyr.elf"⟩

end BuildFiles

/-- The template of the script. -/
def scriptTemplate (templatesDir : Option String) : Action Error String := do
  match templatesDir with
  | some dir =>
    let path := join dir scriptTemplateFile
    onPath path (Action.readText path)
  | none => return defaultScript

/-- What the script's template can use. -/
def scriptContext (board : String) (files : PlatformFiles) (program : String)
    (console : Option String) : Template.Context :=
  ⟨Table.ofList [("consoles", console.toList)],
    Table.ofList ([("board_name", board), ("resc_path", files.script),
      ("repl_path", files.description), ("elf_path", program)] ++
      (console.map fun c => ("console", c)).toList)⟩

/-- The script for a build. -/
def renderScript (board : String) (files : PlatformFiles) (build : BuildFiles)
    (templatesDir : Option String) : Action Error String := do
  let dts ← onPath build.devicetree (Action.readText build.devicetree)
  let ctx := scriptContext board files build.program (findChosen "zephyr,console" dts)
  let template ← scriptTemplate templatesDir
  let templatePath := match templatesDir with
    | some dir => join dir scriptTemplateFile
    | none => scriptTemplateFile
  match Template.render ctx template with
  | .ok script => return script
  | .error e => throw (.template templatePath e)

def writePlatform (files : PlatformFiles) (script description : String) : Action Error Unit := do
  if Text.allBlank description.toList then throw (.platform .emptyDescription)
  Generation.writeFiles [(files.script, script), (files.description, description)]

/-- The simulator's files made from the build in a directory. `translate` gives the description
for the devicetree at a path, and may fail for reasons of its own. -/
def preparePlatform {ε : Type} (account : Error → ε) (board buildsDir : String)
    (templatesDir : Option String) (translate : String → Action ε String) :
    Action ε PlatformFiles := do
  let dir ← (onPath buildsDir (Action.canonical buildsDir)).mapError account
  let build := BuildFiles.inDir dir
  if !(← Action.isFile build.devicetree) then
    throw (account (.platform (.missingDevicetree build.devicetree)))
  let files := PlatformFiles.inDir dir board
  let script ← (renderScript board files build templatesDir).mapError account
  let description ← translate build.devicetree
  (writePlatform files script description).mapError account
  return files

end BoardDesign.Board
