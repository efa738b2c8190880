import BoardDesign.Catalog.Composition
import BoardDesign.Command.Basic
import BoardDesign.Failure
import BoardDesign.File.World
import BoardDesign.Graph.Design
/-!
Designs that commands work with: graph files checked against the catalog.
-/

namespace BoardDesign

/-! ## Catalogs and designs in files -/

namespace Catalog

def readFile (path : String) : Action Error String := (Action.readText path).mapError (.file path)

def load (path : String) : Action Error Catalog := do
  Action.ofExcept (Catalog.read (← readFile path))

end Catalog

/-- A modification is named in errors by the path of its file. -/
def Modification.load (path : String) : Action Catalog.Error Modification := do
  Action.ofExcept (Modification.read (← Catalog.readFile path) path)

/-- The catalog of one file under the modifications of others, in the order given. -/
def EffectiveCatalog.load (base : String) (modifications : List String) :
    Action Catalog.Error EffectiveCatalog := do
  let c ← Catalog.load base
  let mods ← modifications.mapM Modification.load
  Action.ofExcept (c.compose mods)

def Graph.Document.load (path : String) : Action Graph.FileError Graph.Document := do
  Action.ofExcept (Graph.Document.read (← (Action.readText path).mapError (.file path)))

def Design.load (path : String) : Action Graph.FileError Design := do
  Action.ofExcept (Design.ofDocument (← Graph.Document.load path))

end BoardDesign

namespace BoardDesign.Program

/-! ## Commands -/

/-- A line of the program's output. -/
def say (line : String) : Action Failure Unit := Action.print .out (line ++ "\n")

/-- The catalog of the workspace under modifications. -/
def loadCatalog (s : Settings) (modifications : List String) : Action Failure EffectiveCatalog :=
  (EffectiveCatalog.load s.catalogPath modifications).mapError (.composing s.catalogPath)

/-- The design in a graph file, valid for the catalog of the workspace under modifications. -/
def loadDesign (s : Settings) (graph : String) (modifications : List String) :
    Action Failure Graph.ValidDesign := do
  let catalog ← loadCatalog s modifications
  let design ← (Design.load graph).mapError (.loadingGraph graph)
  Action.ofExcept ((Graph.validate design catalog).mapError .invalidDesign)

/-- What is told about a valid design. -/
def validate (s : Settings) (graph : String) (modifications : List String) :
    Action Failure Unit := do
  let g ← loadDesign s graph modifications
  say (graph ++ ": valid")
  say ("  Nodes:       " ++ Decimal.natText g.design.nodes.length)
  say ("  Connections: " ++ Decimal.natText g.design.connections.length)
  match g.boardRoot? with
  | some root => say s!"  Board root:  {root.label} ({root.typeName})"
  | none => say "  Board root:  none (board generation unavailable)"
  say ("  Board name:  " ++ g.boardName)

/-- The modifications of a catalog file put into the file itself. The old text is saved beside it,
but not before it is known that they can be applied. -/
def modifyCatalog (path : String) (modifications : List String) : Action Failure Unit := do
  let base ← (Catalog.load path).mapError (.loadingCatalog path)
  let mods ← modifications.mapM fun m => (Modification.load m).mapError (.loadingCatalog m)
  let effective ← Action.ofExcept ((base.compose mods).mapError .modifying)
  let saved := File.Path.withExtension path "orig"
  (Action.copy path saved).mapError (.saving saved)
  say ("Saved original specification in " ++ saved)
  (Action.writeText path effective.composed.prettyText).mapError (.writing path)
  say ("Applied " ++ Decimal.natText mods.length ++ s!" modification(s) to {path} (" ++
    Decimal.natText effective.resolved.size ++ " node types)")

end BoardDesign.Program
