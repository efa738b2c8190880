/-!
The commands of the program.
-/

namespace BoardDesign

/-- How the diagram editor is started. -/
structure EditorOptions where
  /-- The sources of an application. -/
  app : Option String
  /-- The template of an application. -/
  template : Option String
  host : String
  port : Nat
  backendHost : String
  backendPort : Nat
  modifications : List String
deriving DecidableEq, Repr

/-- Modifications of the catalog are given in the order in which they are applied. -/
inductive Command where
  | prepareBoard (graph : String) (modifications : List String)
  | build (board : String) (app : Option String)
  | prepareSimulatorFiles (board : String) (templatesDir : Option String)
  /-- The simulation is stopped after some seconds. -/
  | simulate (board : String) (seconds : Option Nat)
  | prepareApplication (graph source : String) (template : Option String) (force : Bool)
      (modifications : List String)
  | edit (options : EditorOptions)
  | validate (graph : String) (modifications : List String)
  | modifyCatalog (catalog : Option String) (modifications : List String)
  | info
  | clean (board : String)
deriving DecidableEq, Repr

/-- What the arguments of the program ask for. -/
inductive Invocation where
  | command (workspace : Option String) (command : Command)
  | help
  | version
deriving DecidableEq, Repr

end BoardDesign
