import BoardDesign.Catalog.Basic
/-!
Modifications of a catalog: metadata to set, node types to add, and members to add to the node
types that are there.
-/

namespace BoardDesign

/-- Members to add to each of some node types. -/
structure MemberAddition where
  names : List String
  properties : List Property
  interfaces : List Interface
deriving DecidableEq, Repr, Inhabited

structure Modification where
  metadata : Table Json
  addedNodes : List NodeType
  additions : List MemberAddition
deriving DecidableEq, Repr, Inhabited

namespace MemberAddition

def known : List String := ["names", "add_properties", "add_interface"]

def toJson (m : MemberAddition) : Json :=
  .obj [("names", .arr (m.names.map .str)),
    ("add_properties", .arr (m.properties.map Property.toJson)),
    ("add_interface", .arr (m.interfaces.map Interface.toJson))]

def ofJson? (a : Json) : Option MemberAddition := do
  let fields ← Json.Fields.closed? known a
  let names ← Json.Fields.required fields "names" Json.strings?
  let properties ← Json.Fields.default fields "add_properties" []
    (Json.listOf? Property.ofJson?)
  let interfaces ← Json.Fields.default fields "add_interface" [] (Json.listOf? Interface.ofJson?)
  some ⟨names, properties, interfaces⟩

def repeatedMember (m : MemberAddition) : Option String :=
  firstRepeated (m.properties.map (·.name)) <|> firstRepeated (m.interfaces.map (·.name))

end MemberAddition

namespace Modification

open Catalog (Error Defect)

def known : List String := ["metadata", "add_nodes", "mods"]

def toJson (m : Modification) : Json :=
  .obj [("metadata", .ofTable m.metadata), ("add_nodes", .arr (m.addedNodes.map NodeType.toJson)),
    ("mods", .arr (m.additions.map MemberAddition.toJson))]

def ofJson? (a : Json) : Option Modification := do
  let fields ← Json.Fields.closed? known a
  let metadata ← Json.Fields.default fields "metadata" .empty Json.table?
  let addedNodes ← Json.Fields.default fields "add_nodes" [] (Json.listOf? NodeType.ofJson?)
  let additions ← Json.Fields.default fields "mods" [] (Json.listOf? MemberAddition.ofJson?)
  some ⟨metadata, addedNodes, additions⟩

def addedNodesDefect? : List NodeType → Option Defect
  | [] => none
  | t :: rest =>
    if Text.allBlank t.name.toList then some .addedWithoutName
    else
      match t.repeatedMember with
      | some member => some (.addedMemberTwice t.name member)
      | none => addedNodesDefect? rest

def additionsDefect? (index : Nat) : List MemberAddition → Option Defect
  | [] => none
  | m :: rest =>
    if m.names.isEmpty then some (.entryWithoutNames index)
    else
      match m.repeatedMember with
      | some member => some (.entryMemberTwice index member)
      | none => additionsDefect? (index + 1) rest

/-- The first rule that the modification breaks. -/
def defect? (m : Modification) : Option Defect :=
  match firstRepeated (m.addedNodes.map (·.name)) with
  | some name => some (.addedTwice name)
  | none => addedNodesDefect? m.addedNodes <|> additionsDefect? 0 m.additions

/-- Added types have names, and nothing is added twice in one place. -/
def check (m : Modification) (origin : String) : Except Error Unit :=
  match m.defect? with
  | some defect => .error (.malformedModification origin defect)
  | none => .ok ()

/-- The checked modification that a text holds; `origin` names it in errors. -/
def read (text origin : String) : Except Error Modification :=
  match (Json.parse text).bind ofJson? with
  | none => .error (.malformedModification origin .unreadable)
  | some m => (m.check origin).map fun _ => m

end Modification

end BoardDesign
