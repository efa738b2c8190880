import BoardDesign.Catalog.Modification
/-!
Composition: modifications applied to a catalog in order, then each type completed with what it
inherits.

The first fault ends the composition. A type that is added again and differs in nothing changes
nothing.
-/

namespace BoardDesign

/-- A composed catalog and its node types with their inherited members. -/
structure EffectiveCatalog where
  composed : Catalog
  resolved : Table NodeType
deriving DecidableEq, Repr, Inhabited

namespace Catalog

/-- The first type of a name changed. -/
def updateFirst (name : String) (change : NodeType → NodeType) : List NodeType → List NodeType
  | [] => []
  | t :: rest => if t.name == name then change t :: rest else t :: updateFirst name change rest

def update (c : Catalog) (name : String) (change : NodeType → NodeType) : Catalog :=
  { c with nodes := updateFirst name change c.nodes }

/-- A type added at the end, unless the type of its name subsumes it. -/
def addNode (c : Catalog) (t : NodeType) : Except Error Catalog :=
  match c.node? t.name with
  | none => .ok { c with nodes := c.nodes ++ [t] }
  | some old => if old.subsumes t then .ok c else .error (.duplicateNodeType t.name)

/-- Members added to each named type; all names are looked up before any type is changed. -/
def addMembers (c : Catalog) (index : Nat) (m : MemberAddition) : Except Error Catalog :=
  match m.names.find? fun name => !c.contains name with
  | some name => .error (.unknownNodeType name index)
  | none =>
    .ok (m.names.foldl
      (fun c name => c.update name fun t => t.mergeMembers m.properties m.interfaces) c)

/-- One modification applied; `index` is its place in the order of application. -/
def apply (c : Catalog) (index : Nat) (m : Modification) : Except Error Catalog := do
  let c := { c with metadata := c.metadata.overlay m.metadata }
  let c ← m.addedNodes.foldlM addNode c
  m.additions.foldlM (fun c entry => c.addMembers index entry) c

/-- Modifications applied in order, the first one at place `index`. -/
def applyAll (c : Catalog) (index : Nat) : List Modification → Except Error Catalog
  | [] => .ok c
  | m :: rest =>
    match c.apply index m with
    | .error e => .error e
    | .ok c => c.applyAll (index + 1) rest

/-- A type with all that it inherits, or none if the catalog lacks it. `chain` are the types whose
resolution is going on, `done` those that are resolved already. -/
def resolve (c : Catalog) : Nat → List String → String → Table NodeType →
    Except Error (Option NodeType × Table NodeType)
  | 0, chain, _, _ => .error (.cyclicExtends chain)
  | fuel + 1, chain, name, done =>
    match done.get? name with
    | some t => .ok (some t, done)
    | none =>
      if name ∈ chain then .error (.cyclicExtends (chain ++ [name]))
      else
        match c.node? name with
        | none => .ok (none, done)
        | some own => do
          let (t, done) ← own.extending.foldlM
            (fun (state : NodeType × Table NodeType) parentName => do
              let (parent, done) ← c.resolve fuel (chain ++ [name]) parentName state.2
              .ok ((parent.map state.1.inherit).getD state.1, done))
            (own, done)
          .ok (some t, done.insert name t)

/-- Every type with all that it inherits. A chain of extensions without repetition is no longer
than the catalog. -/
def flatten (c : Catalog) : Except Error (Table NodeType) :=
  c.nodes.foldlM
    (fun done t => (c.resolve (c.nodes.length + 1) [] t.name done).map (·.2)) .empty

/-- The modifications applied in order, and the result flattened. -/
def compose (base : Catalog) (modifications : List Modification) :
    Except Error EffectiveCatalog := do
  base.check
  let composed ← base.applyAll 0 modifications
  let resolved ← composed.flatten
  .ok ⟨composed, resolved⟩

end Catalog

namespace EffectiveCatalog

def get? (c : EffectiveCatalog) (name : String) : Option NodeType := c.resolved.get? name

/-- The resolved types in the order of their names. -/
def nodeTypes (c : EffectiveCatalog) : List NodeType := c.resolved.values

/-- The names of the types that may be the root of a board. -/
def boardRoots (c : EffectiveCatalog) : List String :=
  (c.nodeTypes.filter fun t => !t.isAbstract && t.isBoardRoot).map (·.name)

def toJson (c : EffectiveCatalog) : Json :=
  .obj [("composed", c.composed.toJson),
    ("resolved", .obj (c.resolved.toList.map fun e => (e.1, e.2.toJson)))]

end EffectiveCatalog

end BoardDesign
