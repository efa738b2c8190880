import BoardDesign.App.ListRules
import BoardDesign.Generation.Output
import BoardDesign.Template.Render
/-!
Applications made from a directory of templates.

Every file of the template directory is copied; a text with markers is rendered. The file of list
rules at the top is left out.
-/

namespace BoardDesign.App

open Generation (Error onPath replaceDir copyTree)
open Graph (ValidDesign)
open File.Path (join)

/-- A template directory and where its application is made. -/
structure Source where
  templateDir : String
  outputDir : String
  /-- An application that is already there is replaced. -/
  force : Bool
deriving DecidableEq, Repr

structure Application where
  dir : String
  labels : Table (List String)
  /-- The rendered files, relative to the directory. -/
  rendered : List String
deriving DecidableEq, Repr

def listsJson (lists : Table (List String)) : Json :=
  .obj (lists.toList.map fun e => (e.1, .arr (e.2.map .str)))

def Application.toJson (x : Application) : Json :=
  .obj [("dir", .str x.dir), ("labels", listsJson x.labels),
    ("rendered", .arr (x.rendered.map .str))]

/-- The list rules of a template directory; without a file of rules there are none. -/
def loadLists (templateDir : String) : Action Error (Table NodeRule) := do
  let path := join templateDir rulesFile
  if !(← Action.doesExist path) then return Table.empty
  match readLists? (← onPath path (Action.readText path)) with
  | some lists => return lists
  | none => throw (.invalidTemplateConfig path)

/-- What templates can use: the label lists, and the name of the board. -/
def context (g : ValidDesign) (labels : Table (List String)) : Template.Context :=
  ⟨labels, Table.ofList [("board_name", g.boardName)]⟩

/-- A file rendered in its place, if it is a text with markers; the result tells whether it is.
Errors name the template's own file. -/
def renderFile (ctx : Template.Context) (path templatePath : String) : Action Error Bool := do
  match Text.Utf8.text? (← onPath path (Action.readBytes path)) with
  | none => return false
  | some text =>
    if !Template.hasMarkers text then return false
    match Template.render ctx text with
    | .error e => throw (.template templatePath e)
    | .ok output =>
      onPath path (Action.writeText path output)
      return true

/-- The files of a directory rendered in their places; the result are the paths of those that were,
below `relative`. `fuel` bounds how deep directories can be nested. -/
def renderTree (ctx : Template.Context) (templateDir dir relative : String) :
    Nat → Action Error (List String)
  | 0 => throw (.file dir .nameTooLong)
  | fuel + 1 => do
    let names ← onPath dir (Action.readDir dir)
    let rendered ← names.mapM fun name => do
      let path := join dir name
      let below := join relative name
      if ← Action.isDir path then renderTree ctx templateDir path below fuel
      else if ← renderFile ctx path (join templateDir below) then return [below]
      else return []
    return rendered.flatten

/-- A new directory filled with an application; the result are the rendered files. -/
def fill (ctx : Template.Context) (templateDir dir : String) : Action Error (List String) := do
  copyTree templateDir dir
  let rules := join dir rulesFile
  if ← Action.doesExist rules then onPath rules (Action.removeFile rules)
  renderTree ctx templateDir dir "" Generation.deepestPath

/-- An application made anew; if that fails the old one stays. -/
def generate (g : ValidDesign) (s : Source) : Action Error Application := do
  if !(← Action.isDir s.templateDir) then throw (.missingTemplate s.templateDir)
  let lists ← loadLists s.templateDir
  let labels := labelMap g (rulesWith lists)
  let rendered ← replaceDir s.outputDir s.force (fill (context g labels) s.templateDir)
  return ⟨s.outputDir, labels, File.Path.sorted rendered⟩

end BoardDesign.App
