import BoardDesign.Proofs.Catalog.Gist
import BoardDesign.Proofs.Graph.Reports

/-!
# What the text of a graph tells of its design

A board depends on the nodes of a design and on the connections of its root. The texts of the graph
and of the catalog tell all of that.

* `Node.Gist`, `NodeView.Gist`: what of a node a board depends on;
* `nodes_of_compact`: designs with the same text have nodes with the same gists, and the same
  connections;
* `ValidDesign.Alike`: the same nodes around the same root, as far as a board depends on them;
* `alike_of_compact`: designs are alike if their texts and those of their catalogs are the same.
-/

namespace BoardDesign

open Json (compact told)

namespace Design

/-- What of a node a board depends on: its properties with the texts of their values. -/
@[ext] structure Node.Gist where
  id : String
  typeName : String
  label : String
  named : Bool
  properties : Table String
  interfaces : List String

def Node.gist (n : Node) : Node.Gist :=
  ⟨n.id, n.typeName, n.label, n.named, n.properties.map compact, n.interfaces⟩

theorem Node.gist_of_compact {n m : Node} (same : n.toJson.compact = m.toJson.compact) :
    n.gist = m.gist := by
  simp only [toJson, Json.ofTable, Json.compact_obj_inj, List.map_cons, List.map_nil, told,
    List.cons.injEq, Prod.mk.injEq, true_and, and_true, Json.compact_str_inj, Json.compact_bool_inj,
    Json.compact_arr_inj] at same
  obtain ⟨id, typeName, label, named, properties, interfaces⟩ := same
  have names : n.interfaces = m.interfaces := by
    rw [List.map_map, List.map_map] at interfaces
    exact List.map_injective_iff.mpr (fun _ _ => Json.compact_str_inj.mp) interfaces
  exact Node.Gist.ext id typeName label named ((Table.map_eq_iff compact).mpr properties) names

theorem Connection.eq_of_compact {a b : Nat × Connection}
    (same : (Json.arr [.int a.1, a.2.toJson]).compact = (Json.arr [.int b.1, b.2.toJson]).compact) :
    a = b := by
  obtain ⟨i, ⟨⟨k, s⟩, ⟨l, t⟩⟩⟩ := a
  obtain ⟨j, ⟨⟨k', s'⟩, ⟨l', t'⟩⟩⟩ := b
  simpa [toJson, Endpoint.toJson, told] using same

theorem nodes_of_compact {d e : Design} (same : d.toJson.compact = e.toJson.compact) :
    d.nodes.map Node.gist = e.nodes.map Node.gist ∧ d.connections = e.connections := by
  simp only [toJson, Json.compact_obj_inj, List.map_cons, List.map_nil, told,
    List.cons.injEq, Prod.mk.injEq, true_and, Json.compact_arr_inj, List.map_map] at same
  obtain ⟨-, -, nodes, -, connections, -⟩ := same
  exact ⟨map_eq_of_map_eq (fun _ _ _ _ => Node.gist_of_compact) nodes,
    List.map_injective_iff.mpr (fun _ _ => Connection.eq_of_compact) connections⟩

end Design

namespace Graph

open Design (Node)

variable {c e : EffectiveCatalog} {n m : Node}

/-- The types of one name have the same gist. -/
def TypesAlike (c e : EffectiveCatalog) : Prop :=
  ∀ name, (c.get? name).map NodeType.gist = (e.get? name).map NodeType.gist

section TypesAlike

variable (types : TypesAlike c e) (same : n.gist = m.gist)
include types same

theorem typeOf?_congr : (typeOf? c n).map NodeType.gist = (typeOf? e m).map NodeType.gist := by
  have name : n.typeName = m.typeName := congrArg Node.Gist.typeName same
  have pick (c : EffectiveCatalog) (n : Node) : (typeOf? c n).map NodeType.gist =
      ((c.get? n.typeName).map NodeType.gist).filter fun g => !g.isAbstract := by
    cases known : c.get? n.typeName <;> simp [typeOf?, known, Option.filter, NodeType.gist]
  rw [pick, pick, types, name]

theorem labelOf_congr : labelOf c n = labelOf e m := by
  have name : n.typeName = m.typeName := congrArg Node.Gist.typeName same
  have named : n.named = m.named := congrArg Node.Gist.named same
  have label : n.label = m.label := congrArg Node.Gist.label same
  have id : n.id = m.id := congrArg Node.Gist.id same
  have category (c : EffectiveCatalog) (name : String) : (c.get? name).bind (·.category) =
      ((c.get? name).map NodeType.gist).bind (·.category) := by
    cases c.get? name <;> rfl
  rw [labelOf, labelOf, category, category, types, name, named, label, id]

end TypesAlike

theorem hasProperty_congr {t u : NodeType} (same : t.gist = u.gist) (name : String) :
    t.hasProperty name = u.hasProperty name := by
  have names (t : NodeType) : t.hasProperty name = t.gist.properties.any fun p => p.1 == name := by
    rw [NodeType.hasProperty, NodeType.property?, List.isSome_find?, NodeType.gist, List.any_map]
    rfl
  rw [names, names, same]

/-- The given values that count, with their texts. -/
theorem given_congr {t u : NodeType} (types : t.gist = u.gist) (same : n.gist = m.gist) :
    (n.properties.toList.filter fun e => t.hasProperty e.1 && !e.2.isNull).map told =
      (m.properties.toList.filter fun e => u.hasProperty e.1 && !e.2.isNull).map told := by
  have values : n.properties.toList.map told = m.properties.toList.map told :=
    (Table.map_eq_iff compact).mp (congrArg Node.Gist.properties same)
  simp only [← hasProperty_congr types]
  refine map_filter_eq_of_map_eq (fun a b alike => ?_) values
  obtain ⟨names, texts⟩ := Prod.mk.inj alike
  rw [names, Json.isNull_of_compact texts]

theorem defaults_eq (t : NodeType) :
    (t.properties.filterMap fun p => p.default.map (p.name, ·)).map told =
      t.gist.properties.filterMap fun p => p.2.map (p.1, ·) := by
  rw [NodeType.gist, List.map_filterMap, List.filterMap_map]
  refine List.filterMap_congr fun p _ => ?_
  rw [Option.map_map, Function.comp_apply, Property.gist, Option.map_map]
  rfl

/-- Nodes with the same gist have properties with values of the same texts. -/
theorem resolvedProperties_congr {t u : NodeType} (types : t.gist = u.gist) (same : n.gist = m.gist) :
    (resolvedProperties t n).map compact = (resolvedProperties u m).map compact := by
  have whole (t : NodeType) (n : Node) : (resolvedProperties t n).map compact =
      ((t.properties.filterMap fun p => p.default.map (p.name, ·)).map told).foldl
        (fun table e => table.insertNew e.1 e.2)
        (Table.ofList ((n.properties.toList.filter
          fun e => t.hasProperty e.1 && !e.2.isNull).map told)) := by
    rw [resolvedProperties, Table.map_foldl_insertNew, Table.map_ofList]
    rfl
  rw [whole, whole, defaults_eq, defaults_eq, types, given_congr types same]

/-! ## Completed nodes -/

/-- What of a completed node a board depends on. -/
@[ext] structure NodeView.Gist where
  typeName : String
  type : NodeType.Gist
  label : String
  properties : Table String

def NodeView.gist (v : NodeView) : NodeView.Gist :=
  ⟨v.typeName, v.type.gist, v.label, v.properties.map compact⟩

theorem viewsFrom_congr (types : TypesAlike c e) {ns ms : List Node}
    (same : ns.map Node.gist = ms.map Node.gist) (start : Nat) :
    (viewsFrom c start ns).map NodeView.gist = (viewsFrom e start ms).map NodeView.gist := by
  induction ns generalizing ms start with
  | nil =>
    cases ms with
    | nil => rfl
    | cons m ms => cases same
  | cons n ns ih =>
    cases ms with
    | nil => cases same
    | cons m ms =>
      obtain ⟨first, rest⟩ := List.cons.inj same
      have known := typeOf?_congr types first
      rw [viewsFrom, viewsFrom]
      cases typed : typeOf? c n with
      | none =>
        rw [typed, Option.map_none, eq_comm, Option.map_eq_none_iff] at known
        rw [known]
        exact ih rest (start + 1)
      | some t =>
        rw [typed, Option.map_some, eq_comm, Option.map_eq_some_iff] at known
        obtain ⟨u, typed', alike⟩ := known
        have view : (viewOf c start n t).gist = (viewOf e start m u).gist :=
          NodeView.Gist.ext (congrArg Node.Gist.typeName first) alike.symm
            (labelOf_congr types first) (resolvedProperties_congr alike.symm first)
        rw [typed', List.map_cons, List.map_cons, view, ih rest (start + 1)]

theorem rootsOf_congr {ts us : List (Option NodeType)}
    (same : ts.map (Option.map NodeType.gist) = us.map (Option.map NodeType.gist)) :
    rootsOf ts = rootsOf us := by
  have kind (t : Option NodeType) : t.any NodeType.isBoardRoot =
      (t.map NodeType.gist).any fun g => Text.startsWith "SoC".toList (g.category.getD "Other").toList := by
    cases t <;> rfl
  have all (start : Nat) : rootsOf.go start ts = rootsOf.go start us := by
    induction ts generalizing us start with
    | nil =>
      cases us with
      | nil => rfl
      | cons u us => cases same
    | cons t ts ih =>
      cases us with
      | nil => cases same
      | cons u us =>
        obtain ⟨first, rest⟩ := List.cons.inj same
        rw [rootsOf.go, rootsOf.go, kind, kind, first, ih rest]
  exact all 0

/-- The same nodes around the same root, as far as a board depends on them. -/
structure ValidDesign.Alike (g h : ValidDesign) : Prop where
  nodes : g.nodes.map NodeView.gist = h.nodes.map NodeView.gist
  root : g.root = h.root
  interfaces : g.design.nodes.map (·.interfaces) = h.design.nodes.map (·.interfaces)
  connections : g.design.connections = h.design.connections

/-- Designs are alike if their texts and those of their catalogs are the same. -/
theorem ValidDesign.alike_of_compact {d d' : Design} {g h : ValidDesign}
    (valid : validate d c = .ok g) (valid' : validate d' e = .ok h) (tidy : c.Tidy) (tidy' : e.Tidy)
    (designs : d.toJson.compact = d'.toJson.compact)
    (catalogs : c.toJson.compact = e.toJson.compact) : g.Alike h := by
  obtain ⟨-, rfl⟩ := validate_eq_ok_iff.mp valid
  obtain ⟨-, rfl⟩ := validate_eq_ok_iff.mp valid'
  have types : TypesAlike c e := EffectiveCatalog.gist_of_compact tidy tidy' catalogs
  obtain ⟨nodes, connections⟩ := Design.nodes_of_compact designs
  have kinds : (d.nodes.map (typeOf? c)).map (Option.map NodeType.gist) =
      (d'.nodes.map (typeOf? e)).map (Option.map NodeType.gist) := by
    rw [List.map_map, List.map_map]
    exact map_eq_of_map_eq (fun _ _ _ _ => typeOf?_congr types) nodes
  refine ⟨viewsFrom_congr types nodes 0, congrArg List.head? (rootsOf_congr kinds), ?_, connections⟩
  exact map_eq_of_map_eq (fun _ _ _ _ => congrArg Node.Gist.interfaces) nodes

end Graph

end BoardDesign
