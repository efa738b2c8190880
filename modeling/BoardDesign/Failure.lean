import BoardDesign.Graph.Issue
import BoardDesign.Settings.Basic
/-!
What ends a command or a job of the editor, with what was being done.

The account of a failure names the failure and then, behind colons, each cause in turn; where the
text of an error already holds its cause, the cause is told twice.
-/

namespace BoardDesign

/-- An error and its causes. -/
def causes (messages : List String) : String := Text.joinWith ": " messages

def Catalog.Error.account (e : Catalog.Error) : String :=
  match e with
  | .file _ fault => causes [e.message, fault.message]
  | e => e.message

def Graph.FileError.account (e : Graph.FileError) : String :=
  match e with
  | .file _ fault => causes [e.message, fault.message]
  | e => e.message

def Generation.Error.account (e : Generation.Error) : String :=
  match e with
  | .file _ fault => causes [e.message, fault.message]
  | .template _ error => causes [e.message, error.message]
  | e => e.message

def Stage.Error.account (e : Stage.Error) : String :=
  match e with
  | .file _ fault => causes [e.message, fault.message]
  | .generation _ error => causes [e.message, error.account]
  | e => e.message

inductive Failure where
  | settings (error : Settings.Error)
  | composing (catalog : String) (error : Catalog.Error)
  | loadingGraph (path : String) (error : Graph.FileError)
  | invalidDesign (issues : List Graph.Issue)
  | stage (error : Stage.Error)
  | listingBoards (fault : File.Fault)
  | removing (path : String) (fault : File.Fault)
  | loadingCatalog (path : String) (error : Catalog.Error)
  | modifying (error : Catalog.Error)
  | saving (path : String) (fault : File.Fault)
  | writing (path : String) (fault : File.Fault)
  | noApplication (path : String) (fault : File.Fault)
  | editorEnded (status : Tool.ExitStatus)
  | editorKilled
  /-- What the editor sent is no graph document. -/
  | notDocument
  | noGraph (error : Graph.FileError)
deriving DecidableEq, Repr

namespace Failure

def message : Failure → String
  | .settings e => e.message
  | .composing path e => causes ["failed to compose specification " ++ path, e.account]
  | .loadingGraph path e => causes ["failed to load graph " ++ path, e.account]
  | .invalidDesign issues =>
    causes ["graph does not match the specification", Graph.issuesMessage issues]
  | .stage e => e.account
  | .listingBoards fault => fault.message
  | .removing path fault => causes ["failed to remove " ++ path, fault.message]
  | .loadingCatalog path e => causes ["failed to load " ++ path, e.account]
  | .modifying e => e.account
  | .saving path fault => causes ["failed to save " ++ path, fault.message]
  | .writing path fault => causes ["failed to write " ++ path, fault.message]
  | .noApplication path fault => causes [s!"application {path} not found", fault.message]
  | .editorEnded status => "diagram editor exited with " ++ status.text
  | .editorKilled => "diagram editor was killed"
  | .notDocument => causes ["dataflow is not a graph document", Text.unreadable]
  | .noGraph e => e.account

/-- The exit code for the failure of a stage. -/
def stageCode : Stage → Nat
  | .prepareBoard => 2
  | .build => 3
  | .prepareSimulatorFiles => 4
  | .simulate => 5

/-- Someone else works with the board. -/
def contentionCode : Nat := 6

/-- The input is not as it has to be. -/
def inputCode : Nat := 65

def stageErrorCode (e : Stage.Error) : Nat :=
  if e.isContention then contentionCode else (e.stage?.map stageCode).getD 1

/-- The exit code of the program. -/
def code : Failure → Nat
  | .composing _ _ => inputCode
  | .invalidDesign _ => inputCode
  | .loadingCatalog _ _ => inputCode
  | .modifying _ => inputCode
  | .stage e => stageErrorCode e
  | _ => 1

end Failure

end BoardDesign
