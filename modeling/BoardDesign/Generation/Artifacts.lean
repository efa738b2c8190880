import BoardDesign.App.Files
import BoardDesign.Board.Files
/-!
All that is made from a design: the directory of its board and, from a template, an application.
-/

namespace BoardDesign.Generation

structure Artifacts where
  boardName : String
  boardDir : String
  app : Option App.Application
deriving DecidableEq, Repr

/-- The board made anew, and then the application if there is a template for one. -/
def generate (g : Graph.ValidDesign) (t : Board.Target) (template : Option App.Source) :
    Action Error Artifacts := do
  let boardDir ← Board.generateBoard g t
  let app ← template.mapM (App.generate g)
  return ⟨t.boardName, boardDir, app⟩

end BoardDesign.Generation
