import BoardDesign.Catalog.Error
import BoardDesign.Catalog.NodeType
import BoardDesign.Json.Reader
import BoardDesign.Json.Writer
/-!
Catalogs: the node types from which a board may be designed.

In a well-formed catalog no two types have one name, and no type has two
properties or two interfaces of one name; `check` finds the first fault.
-/

namespace BoardDesign

structure Catalog where
  metadata : Table Json
  nodes : List NodeType
  extra : Table Json
deriving DecidableEq, Repr, Inhabited

namespace Catalog

def known : List String := ["metadata", "nodes"]

def node? (c : Catalog) (name : String) : Option NodeType := c.nodes.find? fun t => t.name == name

def contains (c : Catalog) (name : String) : Bool := (c.node? name).isSome

/-- The first fault in a list of types of which `seen` were named before. -/
def checkNodes (seen : List String) : List NodeType → Except Error Unit
  | [] => .ok ()
  | t :: rest =>
    if t.name ∈ seen then .error (.duplicateNodeType t.name)
    else
      match t.repeatedMember with
      | some member => .error (.malformedCatalog (.memberTwice t.name member))
      | none => checkNodes (t.name :: seen) rest

/-- No two types of one name, and no member declared twice. -/
def check (c : Catalog) : Except Error Unit := checkNodes [] c.nodes

def toJson (c : Catalog) : Json :=
  .obj ([("metadata", .ofTable c.metadata), ("nodes", .arr (c.nodes.map NodeType.toJson))] ++
    c.extra.toList)

/-- The text with sorted fields, four spaces to a level. -/
def prettyText (c : Catalog) : String := c.toJson.normal.pretty 4

def ofJson? (a : Json) : Option Catalog := do
  let fields ← Json.Fields.of? known a
  let metadata ← Json.Fields.default fields "metadata" .empty Json.table?
  let nodes ← Json.Fields.default fields "nodes" [] (Json.listOf? NodeType.ofJson?)
  some ⟨metadata, nodes, Json.Fields.extra known fields⟩

/-- The well-formed catalog that a text holds. -/
def read (text : String) : Except Error Catalog :=
  match (Json.parse text).bind ofJson? with
  | none => .error (.malformedCatalog .unreadable)
  | some c => c.check.map fun _ => c

end Catalog

end BoardDesign
