import BoardDesign.Catalog.Composition
import BoardDesign.Graph.Design
import BoardDesign.Graph.Issue
/-!
Validation of designs against a catalog.

Every rule is applied to every node and connection; the issues are collected in a fixed order.
A design without issues becomes a `ValidDesign`, in which each node has its type, its label and
its properties with the declared defaults.
-/

namespace BoardDesign.Graph

open Design (Node Endpoint Connection)

/-- The type of a node if nodes may be of it. -/
def typeOf? (c : EffectiveCatalog) (n : Node) : Option NodeType :=
  (c.get? n.typeName).filter fun t => !t.isAbstract

/-- The given label, else one from the category of the type, else the derived one. -/
def labelOf (c : EffectiveCatalog) (n : Node) : String :=
  match (c.get? n.typeName).bind (·.category) with
  | some category =>
    if !n.named && category ≠ "" then Label.ofCategory category n.id else n.label
  | none => n.label

/-- What is wrong with the given values of a node's properties. -/
def propertyIssues (label : String) (t : NodeType) : List (String × Json) → List Issue
  | [] => []
  | (name, value) :: rest =>
    (match t.property? name with
      | none => [.unknownProperty label name]
      | some p => if value.isNull || p.accepts value then [] else [.typeMismatch label p value]) ++
    propertyIssues label t rest

/-- The given values that are declared and not null, and the defaults of the other properties. -/
def resolvedProperties (t : NodeType) (n : Node) : Table Json :=
  let given := (n.properties.toList.filter fun e => t.hasProperty e.1 && !e.2.isNull)
  (t.properties.filterMap fun p => p.default.map fun v => (p.name, v)).foldl
    (fun table e => table.insertNew e.1 e.2) (Table.ofList given)

def nodeIssues (c : EffectiveCatalog) (n : Node) : List Issue :=
  match typeOf? c n with
  | some t => propertyIssues (labelOf c n) t n.properties.toList
  | none => [.unknownNodeType (labelOf c n) n.typeName]

/-- How often each name occurs, in the order of the names. -/
def tally (names : List String) : Table Nat :=
  names.foldl (fun t name => t.insert name (((t.get? name).getD 0) + 1)) .empty

def labelIssues (labels : List String) : List Issue :=
  (tally labels).toList.filterMap fun e =>
    if 1 < e.2 then some (.duplicateLabel e.1 e.2) else none

/-- The places of the nodes whose types are board roots. -/
def rootsOf (types : List (Option NodeType)) : List Nat := go 0 types
where
  go (index : Nat) : List (Option NodeType) → List Nat
    | [] => []
    | t :: rest =>
      if t.any NodeType.isBoardRoot then index :: go (index + 1) rest else go (index + 1) rest

def rootIssues (labels : List String) (types : List (Option NodeType)) : List Issue :=
  let roots := rootsOf types
  if 1 < roots.length then [.multipleBoardRoots (roots.filterMap (labels[·]?))] else []

def labelAt (labels : List String) (index : Nat) : String := labels[index]?.getD ""

def typeAt? (types : List (Option NodeType)) (index : Nat) : Option NodeType :=
  (types[index]?).bind id

def endpointName (labels : List String) (e : Endpoint) : String :=
  labels[e.node]?.getD "?" ++ "." ++ e.interface

/-- The declared interface at an end. -/
def interfaceAt? (types : List (Option NodeType)) (e : Endpoint) : Option Interface :=
  (typeAt? types e.node).bind (·.interface? e.interface)

/-- An end whose node has a known type without the interface. -/
def endpointIssues (labels : List String) (types : List (Option NodeType)) (position : Nat)
    (e : Endpoint) : List Issue :=
  match typeAt? types e.node with
  | none => []
  | some t =>
    if t.hasInterface e.interface then []
    else [.unknownInterface position (labelAt labels e.node) e.interface]

/-- The first end at a place where there is no node. -/
def outside? (types : List (Option NodeType)) (c : Connection) : Option Endpoint :=
  [c.source, c.target].find? fun e => types.length ≤ e.node

/-- What two declared interfaces have against a connection. -/
def pairIssues (labels : List String) (position : Nat) (c : Connection) (a b : Interface) :
    List Issue :=
  (if a.tags.compatible b.tags then []
    else [.incompatibleTypes position (endpointName labels c.source)
      (endpointName labels c.target) a.tags b.tags]) ++
  if a.direction.pairsWith b.direction then []
  else [.directionConflict position (endpointName labels c.source)
    (endpointName labels c.target) a.direction b.direction]

def connectionIssues (labels : List String) (types : List (Option NodeType)) (position : Nat)
    (c : Connection) : List Issue :=
  match outside? types c with
  | some e =>
    [.danglingConnection position
      ("node " ++ Decimal.natText e.node ++ "." ++ e.interface)]
  | none =>
    endpointIssues labels types position c.source ++
      endpointIssues labels types position c.target ++
      match interfaceAt? types c.source, interfaceAt? types c.target with
      | some a, some b => pairIssues labels position c a b
      | _, _ => []

/-- The ends of all connections whose both ends are at nodes. -/
def ends (types : List (Option NodeType)) (connections : List (Nat × Connection)) :
    List Endpoint :=
  connections.flatMap fun c =>
    if (outside? types c.2).isSome then [] else [c.2.source, c.2.target]

/-- The interfaces at one node that have more connections than they take. -/
def limitIssues (labels : List String) (types : List (Option NodeType)) (all : List Endpoint)
    (node : Nat) : List Issue :=
  let used := tally ((all.filter fun e => e.node = node).map (·.interface))
  used.toList.filterMap fun e =>
    match (interfaceAt? types ⟨node, e.1⟩).bind (·.connectionLimit) with
    | some limit =>
      if limit < e.2 then some (.limitExceeded (labelAt labels node) e.1 limit e.2) else none
    | none => none

/-- Every issue, in the order in which they are reported. -/
def issues (d : Design) (c : EffectiveCatalog) : List Issue :=
  let labels := d.nodes.map (labelOf c)
  let types := d.nodes.map (typeOf? c)
  let all := ends types d.connections
  d.nodes.flatMap (nodeIssues c) ++
    labelIssues labels ++
    rootIssues labels types ++
    d.unresolved.map (fun u => .danglingConnection u.position u.interfaceId) ++
    d.connections.flatMap (fun e => connectionIssues labels types e.1 e.2) ++
    (List.range d.nodes.length).flatMap (limitIssues labels types all)

/-- A node of a design with its type, its label and its resolved properties. -/
structure NodeView where
  index : Nat
  node : Node
  type : NodeType
  label : String
  properties : Table Json
deriving DecidableEq, Repr

/-- A connection of the board root, seen from the root. -/
structure RootLink where
  rootInterface : String
  nodeInterface : String
  node : NodeView
deriving DecidableEq, Repr

/-- A design without issues. -/
structure ValidDesign where
  design : Design
  catalog : EffectiveCatalog
  nodes : List NodeView
  root : Option Nat
deriving DecidableEq, Repr

/-- What is found out of the nodes of a design, each kind of it in a row of its own. -/
structure Rows where
  /-- The types of the nodes; a node of an unknown type has none, and leaves no gap. -/
  types : List NodeType
  labels : List String
  properties : List (Table Json)
deriving DecidableEq, Repr

namespace Rows

/-- The properties with which a node goes on; those of an unknown type stay as they are given. -/
def propertiesOf (c : EffectiveCatalog) (n : Node) : Table Json :=
  match typeOf? c n with
  | some t => resolvedProperties t n
  | none => n.properties

def ofNodes (c : EffectiveCatalog) (nodes : List Node) : Rows where
  types := (nodes.map (typeOf? c)).filterMap id
  labels := nodes.map (labelOf c)
  properties := nodes.map (propertiesOf c)

/-- The node at a place with what stands at that place of each row. -/
def view? (r : Rows) (nodes : List Node) (index : Nat) : Option NodeView := do
  let node ← nodes[index]?
  let type ← r.types[index]?
  let label ← r.labels[index]?
  let properties ← r.properties[index]?
  return ⟨index, node, type, label, properties⟩

def views (r : Rows) (nodes : List Node) : List NodeView :=
  (List.range nodes.length).filterMap (r.view? nodes)

end Rows

/-- The first place of each label. -/
def firstPlaces (labels : List String) : Table Nat :=
  labels.zipIdx.foldl (fun t e => t.insertNew e.1 e.2) .empty

/-- The design if it has no issue, else all issues. -/
def validate (d : Design) (c : EffectiveCatalog) : Except (List Issue) ValidDesign :=
  match issues d c with
  | [] =>
    .ok ⟨d, c, (Rows.ofNodes c d.nodes).views d.nodes, (rootsOf (d.nodes.map (typeOf? c))).head?⟩
  | found => .error found

namespace NodeView

def typeName (v : NodeView) : String := v.node.typeName

/-- The address on an interface: the value of the first property whose name contains
`address (<interface>)`. -/
def interfaceAddress (v : NodeView) (interface : String) : Option Nat :=
  let key := ("address (" ++ interface ++ ")").toList
  match v.properties.toList.find? fun e => Text.occurs key e.1.toList with
  | some (_, .str s) => Address.parse s
  | _ => none

end NodeView

namespace ValidDesign

def node? (g : ValidDesign) (index : Nat) : Option NodeView := g.nodes[index]?

/-- The first node with a label. -/
def nodeByLabel? (g : ValidDesign) (label : String) : Option NodeView :=
  ((firstPlaces (g.nodes.map (·.label))).get? label).bind g.node?

/-- The node around which the board is built. -/
def boardRoot? (g : ValidDesign) : Option NodeView := g.root.bind g.node?

/-- A connection as a link from one interface of the root to another node. -/
def linkAt? (g : ValidDesign) (root : Nat) (interface : String) (c : Connection) :
    Option RootLink :=
  match c.otherSide root with
  | none => none
  | some (own, other) =>
    if own.interface ≠ interface || other.node = root then none
    else (g.node? other.node).map fun v => ⟨own.interface, other.interface, v⟩

/-- The links of the board root, grouped by its interfaces, in the order of the file. -/
def rootNeighbours (g : ValidDesign) : List RootLink :=
  match g.root with
  | none => []
  | some root =>
    match g.design.node? root with
    | none => []
    | some n =>
      n.interfaces.flatMap fun interface =>
        g.design.connections.filterMap fun c => g.linkAt? root interface c.2

/-- The name of the design, else of the type of its root, as the name of a board. -/
def boardName (g : ValidDesign) : String :=
  Label.boardName
    ((g.design.name <|> g.boardRoot?.map (·.typeName)).getD Label.untitled)

end ValidDesign

end BoardDesign.Graph
