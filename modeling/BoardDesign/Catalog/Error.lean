import BoardDesign.File.Fault
import BoardDesign.Text.Basic
/-!
What can be wrong with a catalog or with a modification of it.
-/

namespace BoardDesign.Catalog

/-- What is wrong with a document. -/
inductive Defect where
  /-- Not a document of the form at all. -/
  | unreadable
  | memberTwice (nodeType member : String)
  | addedTwice (nodeType : String)
  | addedWithoutName
  | addedMemberTwice (nodeType member : String)
  | entryWithoutNames (entry : Nat)
  | entryMemberTwice (entry : Nat) (member : String)
deriving DecidableEq, Repr

def Defect.message : Defect → String
  | .unreadable => Text.unreadable
  | .memberTwice nodeType member => s!"node type '{nodeType}' declares '{member}' twice"
  | .addedTwice nodeType => s!"node type '{nodeType}' added twice"
  | .addedWithoutName => "added node type has an empty name"
  | .addedMemberTwice nodeType member => s!"added node type '{nodeType}' declares '{member}' twice"
  | .entryWithoutNames entry => s!"mods[{entry}] names no node types"
  | .entryMemberTwice entry member => s!"mods[{entry}] lists '{member}' twice"

inductive Error where
  | duplicateNodeType (name : String)
  /-- `modification` counts from zero in the order of application. -/
  | unknownNodeType (name : String) (modification : Nat)
  | malformedModification (origin : String) (defect : Defect)
  | malformedCatalog (defect : Defect)
  /-- Each type extends the next one, and the last one occurred before. -/
  | cyclicExtends (chain : List String)
  | file (path : String) (fault : File.Fault)
deriving DecidableEq, Repr

/-- The name of the kind of error. -/
def Error.kind : Error → String
  | .duplicateNodeType _ => "DuplicateNodeType"
  | .unknownNodeType _ _ => "UnknownNodeTypeReferenced"
  | .malformedModification _ _ => "MalformedModification"
  | .malformedCatalog _ => "MalformedCatalog"
  | .cyclicExtends _ => "CyclicExtends"
  | .file _ _ => "Io"

def Error.message : Error → String
  | .duplicateNodeType name => s!"duplicate node type: {name}"
  | .unknownNodeType name modification =>
    s!"modification #{modification} references unknown node type '{name}'"
  | .malformedModification origin defect =>
    s!"malformed modification {origin}: {defect.message}"
  | .malformedCatalog defect => s!"malformed catalog: {defect.message}"
  | .cyclicExtends chain => "cyclic extends chain: " ++ Text.joinWith " -> " chain
  | .file path fault => s!"reading {path}: {fault.message}"

end BoardDesign.Catalog
