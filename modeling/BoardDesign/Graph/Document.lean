import BoardDesign.File.Fault
import BoardDesign.Json.Fields
import BoardDesign.Json.Reader
import BoardDesign.Json.Writer
import BoardDesign.Text.Basic
/-!
Graph files as an editor saves them: placed nodes, their interfaces under identifiers, and
connections between identifiers.

What the compiler does not read is kept. `Document.canonical` is the text that does not depend on
the order of fields or on spacing.
-/

namespace BoardDesign.Graph

structure PlacedProperty where
  name : String
  value : Json
  extra : Table Json
deriving DecidableEq, Repr, Inhabited

structure PlacedInterface where
  id : String
  name : String
  extra : Table Json
deriving DecidableEq, Repr, Inhabited

structure PlacedNode where
  id : String
  typeName : String
  instanceName : Option String
  properties : List PlacedProperty
  interfaces : List PlacedInterface
  extra : Table Json
deriving DecidableEq, Repr, Inhabited

/-- A connection between two interface identifiers. -/
structure PlacedConnection where
  source : String
  target : String
  extra : Table Json
deriving DecidableEq, Repr, Inhabited

structure Body where
  id : String
  name : Option String
  nodes : List PlacedNode
  connections : List PlacedConnection
  extra : Table Json
deriving DecidableEq, Repr, Inhabited

/-- One graph, or several of which one is the entry. -/
structure Document where
  graph : Option Body
  graphs : List Body
  entryGraph : Option String
  extra : Table Json
deriving DecidableEq, Repr, Inhabited

inductive FileError where
  | file (path : String) (fault : File.Fault)
  | malformed
  | empty
deriving DecidableEq, Repr

/-- The name of the kind of error. -/
def FileError.kind : FileError → String
  | .file _ _ => "Io"
  | .malformed => "Malformed"
  | .empty => "Empty"

def FileError.message : FileError → String
  | .file path fault => s!"I/O error on {path}: {fault.message}"
  | .malformed => "malformed graph file: " ++ Text.unreadable
  | .empty => "graph file contains no graph"

open Json (Fields.of? Fields.required Fields.default Fields.optional Fields.extra)

namespace PlacedProperty

def known : List String := ["name", "value"]

def toJson (p : PlacedProperty) : Json :=
  .obj ([("name", .str p.name), ("value", p.value)] ++ p.extra.toList)

def ofJson? (a : Json) : Option PlacedProperty := do
  let fields ← Fields.of? known a
  let name ← Fields.required fields "name" Json.str?
  let value ← Fields.default fields "value" .null fun v => some v.normal
  some ⟨name, value, Fields.extra known fields⟩

end PlacedProperty

namespace PlacedInterface

def known : List String := ["id", "name"]

def toJson (i : PlacedInterface) : Json :=
  .obj ([("id", .str i.id), ("name", .str i.name)] ++ i.extra.toList)

def ofJson? (a : Json) : Option PlacedInterface := do
  let fields ← Fields.of? known a
  let id ← Fields.required fields "id" Json.str?
  let name ← Fields.required fields "name" Json.str?
  some ⟨id, name, Fields.extra known fields⟩

end PlacedInterface

namespace PlacedNode

def known : List String := ["id", "name", "instanceName", "properties", "interfaces"]

def toJson (n : PlacedNode) : Json :=
  .obj ([("id", .str n.id), ("name", .str n.typeName)] ++
    (n.instanceName.map fun s => ("instanceName", .str s)).toList ++
    [("properties", .arr (n.properties.map PlacedProperty.toJson)),
      ("interfaces", .arr (n.interfaces.map PlacedInterface.toJson))] ++
    n.extra.toList)

def ofJson? (a : Json) : Option PlacedNode := do
  let fields ← Fields.of? known a
  let id ← Fields.required fields "id" Json.str?
  let name ← Fields.required fields "name" Json.str?
  let instanceName ← Fields.optional fields "instanceName" Json.str?
  let properties ← Fields.default fields "properties" [] (Json.listOf? PlacedProperty.ofJson?)
  let interfaces ← Fields.default fields "interfaces" [] (Json.listOf? PlacedInterface.ofJson?)
  some ⟨id, name, instanceName, properties, interfaces, Fields.extra known fields⟩

end PlacedNode

namespace PlacedConnection

def known : List String := ["from", "to"]

def toJson (c : PlacedConnection) : Json :=
  .obj ([("from", .str c.source), ("to", .str c.target)] ++ c.extra.toList)

def ofJson? (a : Json) : Option PlacedConnection := do
  let fields ← Fields.of? known a
  let source ← Fields.required fields "from" Json.str?
  let target ← Fields.required fields "to" Json.str?
  some ⟨source, target, Fields.extra known fields⟩

end PlacedConnection

namespace Body

def known : List String := ["id", "name", "nodes", "connections"]

def toJson (b : Body) : Json :=
  .obj ([("id", .str b.id)] ++ (b.name.map fun s => ("name", .str s)).toList ++
    [("nodes", .arr (b.nodes.map PlacedNode.toJson)),
      ("connections", .arr (b.connections.map PlacedConnection.toJson))] ++
    b.extra.toList)

def ofJson? (a : Json) : Option Body := do
  let fields ← Fields.of? known a
  let id ← Fields.default fields "id" "" Json.str?
  let name ← Fields.optional fields "name" Json.str?
  let nodes ← Fields.default fields "nodes" [] (Json.listOf? PlacedNode.ofJson?)
  let connections ← Fields.default fields "connections" []
    (Json.listOf? PlacedConnection.ofJson?)
  some ⟨id, name, nodes, connections, Fields.extra known fields⟩

end Body

namespace Document

def known : List String := ["graph", "graphs", "entryGraph"]

def toJson (d : Document) : Json :=
  .obj ((d.graph.map fun b => ("graph", b.toJson)).toList ++
    (if d.graphs.isEmpty then [] else [("graphs", .arr (d.graphs.map Body.toJson))]) ++
    (d.entryGraph.map fun s => ("entryGraph", .str s)).toList ++
    d.extra.toList)

def ofJson? (a : Json) : Option Document := do
  let fields ← Fields.of? known a
  let graph ← Fields.optional fields "graph" Body.ofJson?
  let graphs ← Fields.default fields "graphs" [] (Json.listOf? Body.ofJson?)
  let entryGraph ← Fields.optional fields "entryGraph" Json.str?
  some ⟨graph, graphs, entryGraph, Fields.extra known fields⟩

def read (text : String) : Except FileError Document :=
  match (Json.parse text).bind ofJson? with
  | some d => .ok d
  | none => .error .malformed

/-- The graph to compile: the single one, else the entry, else the first. -/
def main (d : Document) : Except FileError Body :=
  let entry := d.entryGraph.bind fun id => d.graphs.find? fun b => b.id == id
  match d.graph <|> entry <|> d.graphs.head? with
  | some b => .ok b
  | none => .error .empty

/-- The text with sorted fields and no spaces. -/
def canonical (d : Document) : String := d.toJson.normal.compact

end Document

end BoardDesign.Graph
