import BoardDesign.Graph.Document
import BoardDesign.Proofs.Json.Record

/-!
# Records of a graph file as they are read and written

* `PlacedProperty.ReadFrom` and its like: the fields that a record is read from;
* `PlacedProperty.Proper` and its like: records as they are after reading (`proper_of_ofJson?`);
* `ofJson?_toJson`: they are read back from what is written of them;
* `keeps_ofJson?`: every record is read from its value tidied as from the value itself.
-/

namespace BoardDesign.Graph

open Json (Further Keeps)

/-! ## Properties -/

namespace PlacedProperty

/-- As it is after reading: all values in the form in which they are kept. -/
structure Proper (p : PlacedProperty) : Prop where
  value : p.value.normal = p.value
  extra : Further known p.extra

/-- The value of a field as it is written. -/
def written? (p : PlacedProperty) : String → Option Json
  | "name" => some (.str p.name)
  | "value" => some p.value
  | _ => none

theorem toJson_eq (p : PlacedProperty) :
    p.toJson = .obj (Json.Fields.write known p.written? p.extra) := rfl

/-- The fields that the record is read from. -/
structure ReadFrom (p : PlacedProperty) (fields : List (String × Json)) : Prop where
  name : Json.Fields.required fields "name" Json.str? = some p.name
  value : Json.Fields.default fields "value" .null (fun v => some v.normal) = some p.value
  extra : Json.Fields.extra known fields = p.extra

variable {p : PlacedProperty} {v : Json}

theorem ofJson?_eq_some_iff : ofJson? v = some p ↔
    ∃ fields, Json.Fields.of? known v = some fields ∧ p.ReadFrom fields := by
  simp only [ofJson?, Option.bind_eq_bind, Option.bind_eq_some_iff, Option.some.injEq]
  constructor
  · rintro ⟨fields, record, name, named, value, given, rfl⟩
    exact ⟨fields, record, named, given, rfl⟩
  · rintro ⟨fields, record, read⟩
    exact ⟨fields, record, p.name, read.name, p.value, read.value, by rw [read.extra]⟩

theorem proper_of_ofJson? (holds : ofJson? v = some p) : p.Proper := by
  obtain ⟨fields, -, read⟩ := ofJson?_eq_some_iff.mp holds
  refine ⟨?_, read.extra ▸ Json.further_extra fields⟩
  have given := read.value
  unfold Json.Fields.default at given
  split at given <;> rw [← Option.some.inj given]
  · exact Json.normal_normal _
  · rfl

theorem ofJson?_toJson (proper : p.Proper) : ofJson? p.toJson = some p := by
  have found {k : String} (mem : k ∈ known) :
      findEntry k (Json.Fields.write known p.written? p.extra) = p.written? k :=
    Json.Fields.findEntry_write (by decide) proper.extra mem
  rw [toJson_eq]
  exact ofJson?_eq_some_iff.mpr ⟨_, Json.Fields.of?_write (by decide) proper.extra,
    { name := Json.required_of_some (found (k := "name") (by decide)) rfl
      value := Json.default_of_value .null (found (k := "value") (by decide)) proper.value
      extra := Json.Fields.extra_write proper.extra }⟩

theorem keeps_ofJson? : Keeps ofJson? :=
  Json.keeps_of_fields (fun _ _ => ofJson?_eq_some_iff) fun p _ _ read h =>
    { name := Json.keeps_str?.required (h.same "name" (by decide)) read.name
      value := Json.keeps_normal.default (h.same "value" (by decide)) read.value
      extra := h.extra.trans read.extra }

end PlacedProperty

/-! ## Interfaces -/

namespace PlacedInterface

/-- The value of a field as it is written. -/
def written? (i : PlacedInterface) : String → Option Json
  | "id" => some (.str i.id)
  | "name" => some (.str i.name)
  | _ => none

theorem toJson_eq (i : PlacedInterface) :
    i.toJson = .obj (Json.Fields.write known i.written? i.extra) := rfl

/-- The fields that the record is read from. -/
structure ReadFrom (i : PlacedInterface) (fields : List (String × Json)) : Prop where
  id : Json.Fields.required fields "id" Json.str? = some i.id
  name : Json.Fields.required fields "name" Json.str? = some i.name
  extra : Json.Fields.extra known fields = i.extra

variable {i : PlacedInterface} {v : Json}

theorem ofJson?_eq_some_iff : ofJson? v = some i ↔
    ∃ fields, Json.Fields.of? known v = some fields ∧ i.ReadFrom fields := by
  simp only [ofJson?, Option.bind_eq_bind, Option.bind_eq_some_iff, Option.some.injEq]
  constructor
  · rintro ⟨fields, record, id, own, name, named, rfl⟩
    exact ⟨fields, record, own, named, rfl⟩
  · rintro ⟨fields, record, read⟩
    exact ⟨fields, record, i.id, read.id, i.name, read.name, by rw [read.extra]⟩

theorem further_of_ofJson? (holds : ofJson? v = some i) : Further known i.extra := by
  obtain ⟨fields, -, read⟩ := ofJson?_eq_some_iff.mp holds
  exact read.extra ▸ Json.further_extra fields

theorem ofJson?_toJson (further : Further known i.extra) : ofJson? i.toJson = some i := by
  have found {k : String} (mem : k ∈ known) :
      findEntry k (Json.Fields.write known i.written? i.extra) = i.written? k :=
    Json.Fields.findEntry_write (by decide) further mem
  rw [toJson_eq]
  exact ofJson?_eq_some_iff.mpr ⟨_, Json.Fields.of?_write (by decide) further,
    { id := Json.required_of_some (found (k := "id") (by decide)) rfl
      name := Json.required_of_some (found (k := "name") (by decide)) rfl
      extra := Json.Fields.extra_write further }⟩

theorem keeps_ofJson? : Keeps ofJson? :=
  Json.keeps_of_fields (fun _ _ => ofJson?_eq_some_iff) fun i _ _ read h =>
    { id := Json.keeps_str?.required (h.same "id" (by decide)) read.id
      name := Json.keeps_str?.required (h.same "name" (by decide)) read.name
      extra := h.extra.trans read.extra }

end PlacedInterface

/-! ## Nodes -/

namespace PlacedNode

structure Proper (n : PlacedNode) : Prop where
  properties : ∀ p ∈ n.properties, p.Proper
  interfaces : ∀ i ∈ n.interfaces, Further PlacedInterface.known i.extra
  extra : Further known n.extra

/-- The value of a field as it is written. -/
def written? (n : PlacedNode) : String → Option Json
  | "id" => some (.str n.id)
  | "name" => some (.str n.typeName)
  | "instanceName" => n.instanceName.map .str
  | "properties" => some (.arr (n.properties.map PlacedProperty.toJson))
  | "interfaces" => some (.arr (n.interfaces.map PlacedInterface.toJson))
  | _ => none

theorem toJson_eq (n : PlacedNode) :
    n.toJson = .obj (Json.Fields.write known n.written? n.extra) := by
  simp [toJson, Json.Fields.write, known, written?, Function.comp_def]

/-- The fields that the record is read from. -/
structure ReadFrom (n : PlacedNode) (fields : List (String × Json)) : Prop where
  id : Json.Fields.required fields "id" Json.str? = some n.id
  typeName : Json.Fields.required fields "name" Json.str? = some n.typeName
  instanceName : Json.Fields.optional fields "instanceName" Json.str? = some n.instanceName
  properties : Json.Fields.default fields "properties" [] (Json.listOf? PlacedProperty.ofJson?) =
    some n.properties
  interfaces : Json.Fields.default fields "interfaces" [] (Json.listOf? PlacedInterface.ofJson?) =
    some n.interfaces
  extra : Json.Fields.extra known fields = n.extra

variable {n : PlacedNode} {v : Json}

theorem ofJson?_eq_some_iff : ofJson? v = some n ↔
    ∃ fields, Json.Fields.of? known v = some fields ∧ n.ReadFrom fields := by
  simp only [ofJson?, Option.bind_eq_bind, Option.bind_eq_some_iff, Option.some.injEq]
  constructor
  · rintro ⟨fields, record, id, own, type, typed, name, named, properties, members, interfaces,
      points, rfl⟩
    exact ⟨fields, record, own, typed, named, members, points, rfl⟩
  · rintro ⟨fields, record, read⟩
    exact ⟨fields, record, n.id, read.id, n.typeName, read.typeName, n.instanceName,
      read.instanceName, n.properties, read.properties, n.interfaces, read.interfaces,
      by rw [read.extra]⟩

theorem proper_of_ofJson? (holds : ofJson? v = some n) : n.Proper := by
  obtain ⟨fields, -, read⟩ := ofJson?_eq_some_iff.mp holds
  refine ⟨fun p mem => ?_, fun i mem => ?_, read.extra ▸ Json.further_extra fields⟩
  · obtain ⟨b, holds⟩ := Json.exists_of_mem_default read.properties mem
    exact PlacedProperty.proper_of_ofJson? holds
  · obtain ⟨b, holds⟩ := Json.exists_of_mem_default read.interfaces mem
    exact PlacedInterface.further_of_ofJson? holds

theorem ofJson?_toJson (proper : n.Proper) : ofJson? n.toJson = some n := by
  have found {k : String} (mem : k ∈ known) :
      findEntry k (Json.Fields.write known n.written? n.extra) = n.written? k :=
    Json.Fields.findEntry_write (by decide) proper.extra mem
  rw [toJson_eq]
  exact ofJson?_eq_some_iff.mpr ⟨_, Json.Fields.of?_write (by decide) proper.extra,
    { id := Json.required_of_some (found (k := "id") (by decide)) rfl
      typeName := Json.required_of_some (found (k := "name") (by decide)) rfl
      instanceName := Json.optional_of_option (found (k := "instanceName") (by decide))
        fun s _ => ⟨nofun, rfl⟩
      properties := Json.default_of_some [] (found (k := "properties") (by decide))
        (Json.listOf?_map fun p mem => PlacedProperty.ofJson?_toJson (proper.properties p mem))
      interfaces := Json.default_of_some [] (found (k := "interfaces") (by decide))
        (Json.listOf?_map fun i mem => PlacedInterface.ofJson?_toJson (proper.interfaces i mem))
      extra := Json.Fields.extra_write proper.extra }⟩

theorem keeps_ofJson? : Keeps ofJson? :=
  Json.keeps_of_fields (fun _ _ => ofJson?_eq_some_iff) fun n _ _ read h =>
    { id := Json.keeps_str?.required (h.same "id" (by decide)) read.id
      typeName := Json.keeps_str?.required (h.same "name" (by decide)) read.typeName
      instanceName := Json.keeps_str?.optional (h.same "instanceName" (by decide))
        read.instanceName
      properties := (Json.keeps_listOf? PlacedProperty.keeps_ofJson?).default
        (h.same "properties" (by decide)) read.properties
      interfaces := (Json.keeps_listOf? PlacedInterface.keeps_ofJson?).default
        (h.same "interfaces" (by decide)) read.interfaces
      extra := h.extra.trans read.extra }

end PlacedNode

/-! ## Connections -/

namespace PlacedConnection

/-- The value of a field as it is written. -/
def written? (c : PlacedConnection) : String → Option Json
  | "from" => some (.str c.source)
  | "to" => some (.str c.target)
  | _ => none

theorem toJson_eq (c : PlacedConnection) :
    c.toJson = .obj (Json.Fields.write known c.written? c.extra) := rfl

/-- The fields that the record is read from. -/
structure ReadFrom (c : PlacedConnection) (fields : List (String × Json)) : Prop where
  source : Json.Fields.required fields "from" Json.str? = some c.source
  target : Json.Fields.required fields "to" Json.str? = some c.target
  extra : Json.Fields.extra known fields = c.extra

variable {c : PlacedConnection} {v : Json}

theorem ofJson?_eq_some_iff : ofJson? v = some c ↔
    ∃ fields, Json.Fields.of? known v = some fields ∧ c.ReadFrom fields := by
  simp only [ofJson?, Option.bind_eq_bind, Option.bind_eq_some_iff, Option.some.injEq]
  constructor
  · rintro ⟨fields, record, source, first, target, second, rfl⟩
    exact ⟨fields, record, first, second, rfl⟩
  · rintro ⟨fields, record, read⟩
    exact ⟨fields, record, c.source, read.source, c.target, read.target, by rw [read.extra]⟩

theorem further_of_ofJson? (holds : ofJson? v = some c) : Further known c.extra := by
  obtain ⟨fields, -, read⟩ := ofJson?_eq_some_iff.mp holds
  exact read.extra ▸ Json.further_extra fields

theorem ofJson?_toJson (further : Further known c.extra) : ofJson? c.toJson = some c := by
  have found {k : String} (mem : k ∈ known) :
      findEntry k (Json.Fields.write known c.written? c.extra) = c.written? k :=
    Json.Fields.findEntry_write (by decide) further mem
  rw [toJson_eq]
  exact ofJson?_eq_some_iff.mpr ⟨_, Json.Fields.of?_write (by decide) further,
    { source := Json.required_of_some (found (k := "from") (by decide)) rfl
      target := Json.required_of_some (found (k := "to") (by decide)) rfl
      extra := Json.Fields.extra_write further }⟩

theorem keeps_ofJson? : Keeps ofJson? :=
  Json.keeps_of_fields (fun _ _ => ofJson?_eq_some_iff) fun c _ _ read h =>
    { source := Json.keeps_str?.required (h.same "from" (by decide)) read.source
      target := Json.keeps_str?.required (h.same "to" (by decide)) read.target
      extra := h.extra.trans read.extra }

end PlacedConnection

/-! ## Graphs -/

namespace Body

structure Proper (b : Body) : Prop where
  nodes : ∀ n ∈ b.nodes, n.Proper
  connections : ∀ c ∈ b.connections, Further PlacedConnection.known c.extra
  extra : Further known b.extra

/-- The value of a field as it is written. -/
def written? (b : Body) : String → Option Json
  | "id" => some (.str b.id)
  | "name" => b.name.map .str
  | "nodes" => some (.arr (b.nodes.map PlacedNode.toJson))
  | "connections" => some (.arr (b.connections.map PlacedConnection.toJson))
  | _ => none

theorem toJson_eq (b : Body) :
    b.toJson = .obj (Json.Fields.write known b.written? b.extra) := by
  simp [toJson, Json.Fields.write, known, written?, Function.comp_def]

/-- The fields that the record is read from. -/
structure ReadFrom (b : Body) (fields : List (String × Json)) : Prop where
  id : Json.Fields.default fields "id" "" Json.str? = some b.id
  name : Json.Fields.optional fields "name" Json.str? = some b.name
  nodes : Json.Fields.default fields "nodes" [] (Json.listOf? PlacedNode.ofJson?) = some b.nodes
  connections : Json.Fields.default fields "connections" []
    (Json.listOf? PlacedConnection.ofJson?) = some b.connections
  extra : Json.Fields.extra known fields = b.extra

variable {b : Body} {v : Json}

theorem ofJson?_eq_some_iff : ofJson? v = some b ↔
    ∃ fields, Json.Fields.of? known v = some fields ∧ b.ReadFrom fields := by
  simp only [ofJson?, Option.bind_eq_bind, Option.bind_eq_some_iff, Option.some.injEq]
  constructor
  · rintro ⟨fields, record, id, own, name, named, nodes, placed, connections, links, rfl⟩
    exact ⟨fields, record, own, named, placed, links, rfl⟩
  · rintro ⟨fields, record, read⟩
    exact ⟨fields, record, b.id, read.id, b.name, read.name, b.nodes, read.nodes, b.connections,
      read.connections, by rw [read.extra]⟩

theorem proper_of_ofJson? (holds : ofJson? v = some b) : b.Proper := by
  obtain ⟨fields, -, read⟩ := ofJson?_eq_some_iff.mp holds
  refine ⟨fun n mem => ?_, fun c mem => ?_, read.extra ▸ Json.further_extra fields⟩
  · obtain ⟨v, holds⟩ := Json.exists_of_mem_default read.nodes mem
    exact PlacedNode.proper_of_ofJson? holds
  · obtain ⟨v, holds⟩ := Json.exists_of_mem_default read.connections mem
    exact PlacedConnection.further_of_ofJson? holds

theorem ofJson?_toJson (proper : b.Proper) : ofJson? b.toJson = some b := by
  have found {k : String} (mem : k ∈ known) :
      findEntry k (Json.Fields.write known b.written? b.extra) = b.written? k :=
    Json.Fields.findEntry_write (by decide) proper.extra mem
  rw [toJson_eq]
  exact ofJson?_eq_some_iff.mpr ⟨_, Json.Fields.of?_write (by decide) proper.extra,
    { id := Json.default_of_some "" (found (k := "id") (by decide)) rfl
      name := Json.optional_of_option (found (k := "name") (by decide)) fun s _ => ⟨nofun, rfl⟩
      nodes := Json.default_of_some [] (found (k := "nodes") (by decide))
        (Json.listOf?_map fun n mem => PlacedNode.ofJson?_toJson (proper.nodes n mem))
      connections := Json.default_of_some [] (found (k := "connections") (by decide))
        (Json.listOf?_map fun c mem => PlacedConnection.ofJson?_toJson (proper.connections c mem))
      extra := Json.Fields.extra_write proper.extra }⟩

theorem toJson_ne_null (b : Body) : b.toJson ≠ .null := nofun

theorem keeps_ofJson? : Keeps ofJson? :=
  Json.keeps_of_fields (fun _ _ => ofJson?_eq_some_iff) fun b _ _ read h =>
    { id := Json.keeps_str?.default (h.same "id" (by decide)) read.id
      name := Json.keeps_str?.optional (h.same "name" (by decide)) read.name
      nodes := (Json.keeps_listOf? PlacedNode.keeps_ofJson?).default (h.same "nodes" (by decide))
        read.nodes
      connections := (Json.keeps_listOf? PlacedConnection.keeps_ofJson?).default
        (h.same "connections" (by decide)) read.connections
      extra := h.extra.trans read.extra }

end Body

/-! ## Documents -/

namespace Document

structure Proper (d : Document) : Prop where
  graph : ∀ b, d.graph = some b → b.Proper
  graphs : ∀ b ∈ d.graphs, b.Proper
  extra : Further known d.extra

/-- The value of a field as it is written. -/
def written? (d : Document) : String → Option Json
  | "graph" => d.graph.map Body.toJson
  | "graphs" => if d.graphs.isEmpty then none else some (.arr (d.graphs.map Body.toJson))
  | "entryGraph" => d.entryGraph.map .str
  | _ => none

theorem toJson_eq (d : Document) :
    d.toJson = .obj (Json.Fields.write known d.written? d.extra) := by
  simp [toJson, Json.Fields.write, known, written?, Json.Fields.toList_unless, Function.comp_def]

/-- The fields that the record is read from. -/
structure ReadFrom (d : Document) (fields : List (String × Json)) : Prop where
  graph : Json.Fields.optional fields "graph" Body.ofJson? = some d.graph
  graphs : Json.Fields.default fields "graphs" [] (Json.listOf? Body.ofJson?) = some d.graphs
  entryGraph : Json.Fields.optional fields "entryGraph" Json.str? = some d.entryGraph
  extra : Json.Fields.extra known fields = d.extra

variable {d : Document} {v : Json}

theorem ofJson?_eq_some_iff : ofJson? v = some d ↔
    ∃ fields, Json.Fields.of? known v = some fields ∧ d.ReadFrom fields := by
  simp only [ofJson?, Option.bind_eq_bind, Option.bind_eq_some_iff, Option.some.injEq]
  constructor
  · rintro ⟨fields, record, graph, single, graphs, several, entry, named, rfl⟩
    exact ⟨fields, record, single, several, named, rfl⟩
  · rintro ⟨fields, record, read⟩
    exact ⟨fields, record, d.graph, read.graph, d.graphs, read.graphs, d.entryGraph,
      read.entryGraph, by rw [read.extra]⟩

theorem proper_of_ofJson? (holds : ofJson? v = some d) : d.Proper := by
  obtain ⟨fields, -, read⟩ := ofJson?_eq_some_iff.mp holds
  refine ⟨fun b is => ?_, fun b mem => ?_, read.extra ▸ Json.further_extra fields⟩
  · obtain ⟨v, -, holds⟩ := Json.exists_of_optional read.graph is
    exact Body.proper_of_ofJson? holds
  · obtain ⟨v, holds⟩ := Json.exists_of_mem_default read.graphs mem
    exact Body.proper_of_ofJson? holds

theorem ofJson?_toJson (proper : d.Proper) : ofJson? d.toJson = some d := by
  have found {k : String} (mem : k ∈ known) :
      findEntry k (Json.Fields.write known d.written? d.extra) = d.written? k :=
    Json.Fields.findEntry_write (by decide) proper.extra mem
  rw [toJson_eq]
  exact ofJson?_eq_some_iff.mpr ⟨_, Json.Fields.of?_write (by decide) proper.extra,
    { graph := Json.optional_of_option (found (k := "graph") (by decide))
        fun b is => ⟨b.toJson_ne_null, Body.ofJson?_toJson (proper.graph b is)⟩
      graphs := Json.default_of_list (found (k := "graphs") (by decide))
        fun b mem => Body.ofJson?_toJson (proper.graphs b mem)
      entryGraph := Json.optional_of_option (found (k := "entryGraph") (by decide))
        fun s _ => ⟨nofun, rfl⟩
      extra := Json.Fields.extra_write proper.extra }⟩

theorem keeps_ofJson? : Keeps ofJson? :=
  Json.keeps_of_fields (fun _ _ => ofJson?_eq_some_iff) fun d _ _ read h =>
    { graph := Body.keeps_ofJson?.optional (h.same "graph" (by decide)) read.graph
      graphs := (Json.keeps_listOf? Body.keeps_ofJson?).default (h.same "graphs" (by decide))
        read.graphs
      entryGraph := Json.keeps_str?.optional (h.same "entryGraph" (by decide)) read.entryGraph
      extra := h.extra.trans read.extra }

end Document

end BoardDesign.Graph
