import BoardDesign.Graph.Document
import BoardDesign.Graph.Label
/-!
Designs: nodes in a row, addressed by their place, and connections between their interfaces.

A connection of a graph file becomes a connection of the design if both of its identifiers belong
to some node, and is kept as unresolved otherwise; either way it keeps its position in the file.
-/

namespace BoardDesign

namespace Design

/-- A node with the values that the graph gives its properties. -/
structure Node where
  id : String
  typeName : String
  label : String
  /-- The label was given, not derived. -/
  named : Bool
  properties : Table Json
  /-- The names of the interfaces, in the order of the file. -/
  interfaces : List String
deriving DecidableEq, Repr, Inhabited

structure Endpoint where
  node : Nat
  interface : String
deriving DecidableEq, Repr, Inhabited

structure Connection where
  source : Endpoint
  target : Endpoint
deriving DecidableEq, Repr, Inhabited

/-- The end at a node and the end opposite to it. -/
def Connection.otherSide (c : Connection) (node : Nat) : Option (Endpoint × Endpoint) :=
  if c.source.node = node then some (c.source, c.target)
  else if c.target.node = node then some (c.target, c.source)
  else none

/-- A connection one of whose identifiers no node has. -/
structure Unresolved where
  position : Nat
  interfaceId : String
deriving DecidableEq, Repr, Inhabited

end Design

open Design in
structure Design where
  id : String
  name : Option String
  nodes : List Node
  /-- The first node of each label. -/
  labels : Table Nat
  /-- Each with its position in the file. -/
  connections : List (Nat × Connection)
  unresolved : List Unresolved
deriving DecidableEq, Repr

namespace Design

open Graph

def empty : Design := ⟨"", none, [], .empty, [], []⟩

instance : Inhabited Design := ⟨empty⟩

def node? (d : Design) (index : Nat) : Option Node := d.nodes[index]?

/-- The first node with a label. -/
def nodeByLabel? (d : Design) (label : String) : Option Nat := d.labels.get? label

/-- A node at the end; a label that is taken stays with the node that has it. -/
def push (d : Design) (n : Node) : Design :=
  { d with
    nodes := d.nodes ++ [n]
    labels := d.labels.insertNew n.label d.nodes.length }

def nodeOf (n : PlacedNode) : Node :=
  let given := n.instanceName.filter fun s => !Text.allBlank s.toList
  { id := n.id
    typeName := n.typeName
    label := (given.map Label.sanitize).getD (Label.derived n.typeName n.id)
    named := given.isSome
    properties := Table.ofList (n.properties.map fun p => (p.name, p.value))
    interfaces := n.interfaces.map (·.name) }

/-- The identifiers of all interfaces, with the endpoints that they stand for. -/
def endpoints (nodes : List PlacedNode) : List (String × Endpoint) := go 0 nodes
where
  go (index : Nat) : List PlacedNode → List (String × Endpoint)
    | [] => []
    | n :: rest => n.interfaces.map (fun i => (i.id, ⟨index, i.name⟩)) ++ go (index + 1) rest

/-- The endpoint of an identifier; of several, the last. -/
def endpoint? (known : List (String × Endpoint)) (id : String) : Option Endpoint :=
  findEntry id known.reverse

/-- A connection of the file, added at its position. -/
def addPlaced (known : List (String × Endpoint)) (d : Design) (position : Nat)
    (c : PlacedConnection) : Design :=
  match endpoint? known c.source, endpoint? known c.target with
  | some source, some target =>
    { d with connections := d.connections ++ [(position, ⟨source, target⟩)] }
  | none, _ => { d with unresolved := d.unresolved ++ [⟨position, c.source⟩] }
  | some _, none => { d with unresolved := d.unresolved ++ [⟨position, c.target⟩] }

def addAllPlaced (known : List (String × Endpoint)) (d : Design) (position : Nat) :
    List PlacedConnection → Design
  | [] => d
  | c :: rest => addAllPlaced known (addPlaced known d position c) (position + 1) rest

/-- The design of a graph. -/
def ofBody (b : Body) : Design :=
  let start : Design :=
    { empty with id := b.id, name := b.name.filter fun s => !Text.allBlank s.toList }
  let placed := b.nodes.foldl (fun d n => d.push (nodeOf n)) start
  addAllPlaced (endpoints b.nodes) placed 0 b.connections

def ofDocument (doc : Document) : Except FileError Design := doc.main.map ofBody

def read (text : String) : Except FileError Design := (Document.read text).bind ofDocument

/-- A new node with a label; its place is the number of nodes before. -/
def addNode (d : Design) (typeName label : String) : Design × Nat :=
  (d.push ⟨"node-" ++ Decimal.natText d.nodes.length, typeName, label, true, .empty, []⟩,
    d.nodes.length)

def setProperty (d : Design) (node : Nat) (name : String) (value : Json) : Design :=
  { d with
    nodes := d.nodes.modify node fun n => { n with properties := n.properties.insert name value } }

/-- The node at an end has the interface of that end, at the end of its interfaces if it is new. -/
def register (nodes : List Node) (e : Endpoint) : List Node :=
  nodes.modify e.node fun n =>
    if e.interface ∈ n.interfaces then n
    else { n with interfaces := n.interfaces ++ [e.interface] }

/-- A new connection, after all that are there; the number is its position. -/
def connect (d : Design) (source target : Endpoint) : Design × Nat :=
  let position := d.connections.length + d.unresolved.length
  ({ d with
      nodes := register (register d.nodes source) target
      connections := d.connections ++ [(position, ⟨source, target⟩)] },
    position)

def Node.toJson (n : Node) : Json :=
  .obj [("id", .str n.id), ("type_name", .str n.typeName), ("label", .str n.label),
    ("named", .bool n.named), ("properties", .ofTable n.properties),
    ("interfaces", .arr (n.interfaces.map .str))]

def Endpoint.toJson (e : Endpoint) : Json :=
  .obj [("node", .int e.node), ("interface", .str e.interface)]

def Connection.toJson (c : Connection) : Json :=
  .obj [("from", c.source.toJson), ("to", c.target.toJson)]

def Unresolved.toJson (u : Unresolved) : Json :=
  .obj [("position", .int u.position), ("interface_id", .str u.interfaceId)]

def toJson (d : Design) : Json :=
  .obj [("id", .str d.id), ("name", (d.name.map .str).getD .null),
    ("nodes", .arr (d.nodes.map Node.toJson)),
    ("by_label", .obj (d.labels.toList.map fun e => (e.1, .int e.2))),
    ("connections", .arr (d.connections.map fun c => .arr [.int c.1, c.2.toJson])),
    ("unresolved", .arr (d.unresolved.map Unresolved.toJson))]

end Design

end BoardDesign
