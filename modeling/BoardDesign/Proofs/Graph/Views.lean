import BoardDesign.Proofs.Graph.Construction
import BoardDesign.Proofs.Graph.Reports
import BoardDesign.Proofs.Text.Basic

/-!
# The nodes of a valid design

Validation completes every node of the design, in its place.

* `Label.IsLabel`: the labels of nodes that are read from a file (`Design.isLabel_of_document`);
* `get?_resolvedProperties`: a property has the value that is given, else its default;
* `Completed`: a node with its type, and with the properties that the type declares;
* `getElem?_nodes`: the node at a place is the node of the design there, with its type;
* `ValidDesign.eq_of_index` and `ValidDesign.eq_of_label`: a node is told by its place and by
  its label;
* `ValidDesign.mem_nodes_of_link`: the neighbours of the root are nodes of the design;
* `validate_completes`: every node is completed in its place, and found by its label.
-/

namespace BoardDesign

/-! ## Labels -/

namespace Graph.Label

/-- A text of lower-case letters, digits and underscores, of which there is some. -/
def IsLabel (s : String) : Prop := s ≠ "" ∧ ∀ ch ∈ s.toList, plain ch = true

theorem isLabel_sanitize {s : String} (visible : Text.allBlank s.toList ≠ true) :
    IsLabel (sanitize s) := by
  refine ⟨fun nothing => visible ?_, plain_sanitize s⟩
  have none := congrArg String.toList nothing
  rw [sanitize, String.toList_ofList, String.toList_empty, List.map_eq_nil_iff] at none
  exact Text.trim_eq_nil_iff.mp none

/-- An underscore is left of white space. -/
theorem isLabel_sanitize_join (a b : String) : IsLabel (sanitize (a ++ "_" ++ b)) := by
  apply isLabel_sanitize
  simp [Text.allBlank, String.toList_append, show Text.isBlank '_' = false by decide]

end Graph.Label

open Graph.Label (IsLabel isLabel_sanitize isLabel_sanitize_join)

namespace Design

open Graph (Document PlacedNode)

theorem isLabel_nodeOf (n : PlacedNode) : IsLabel (nodeOf n).label := by
  rw [nodeOf]
  dsimp only
  cases given : n.instanceName.filter fun s => !Text.allBlank s.toList with
  | none => exact isLabel_sanitize_join _ _
  | some name =>
    apply isLabel_sanitize
    simpa using (Option.filter_eq_some_iff.mp given).2

theorem isLabel_of_document {d : Design} {doc : Document} (read : ofDocument doc = .ok d)
    {n : Node} (mem : n ∈ d.nodes) : IsLabel n.label := by
  rw [ofDocument] at read
  cases main : doc.main with
  | error e =>
    rw [main] at read
    cases read
  | ok b =>
    rw [main] at read
    cases read
    rw [nodes_ofBody] at mem
    obtain ⟨placed, -, rfl⟩ := List.mem_map.mp mem
    exact isLabel_nodeOf placed

end Design

/-! ## Properties -/

/-- The value that a property is given; null is none. -/
def Design.Node.given? (n : Design.Node) (name : String) : Option Json :=
  (n.properties.get? name).filter fun value => !value.isNull

/-- The default of a property; of several of one name, the first that has a default. -/
def NodeType.default? (t : NodeType) (name : String) : Option Json :=
  t.properties.findSome? fun p => if p.name = name then p.default else none

theorem NodeType.default?_isSome_iff {t : NodeType} {name : String} :
    (t.default? name).isSome ↔ ∃ p ∈ t.properties, p.name = name ∧ p.default.isSome := by
  rw [default?, List.findSome?_isSome_iff]
  refine exists_congr fun p => and_congr_right fun _ => ?_
  split <;> simp_all

namespace Graph

open Design (Node Endpoint Connection)

variable {d : Design} {c : EffectiveCatalog} {g : ValidDesign}

theorem labelOf_cases (c : EffectiveCatalog) (n : Node) :
    labelOf c n = n.label ∨ ∃ category, labelOf c n = Label.ofCategory category n.id := by
  rw [labelOf]
  split
  · rename_i category _
    split
    · exact .inr ⟨category, rfl⟩
    · exact .inl rfl
  · exact .inl rfl

theorem findEntry_defaults (t : NodeType) (name : String) :
    findEntry name (t.properties.filterMap fun p => p.default.map fun v => (p.name, v)) =
      t.default? name := by
  rw [NodeType.default?]
  induction t.properties with
  | nil => rfl
  | cons p rest ih =>
    rw [List.filterMap_cons, List.findSome?_cons]
    cases p.default with
    | none => simpa using ih
    | some value =>
      by_cases same : name = p.name
      · simp [findEntry, same]
      · simpa [findEntry, same, Ne.symm same] using ih

section Resolved

variable {t : NodeType} {n : Node} {name : String}

theorem nodup_given (t : NodeType) (n : Node) : ((n.properties.toList.filter
    fun e => t.hasProperty e.1 && !e.2.isNull).map (·.1)).Nodup :=
  n.properties.nodup_keys.sublist (List.filter_sublist.map _)

theorem findEntry_given (declared : (n.given? name).isSome → t.hasProperty name = true) :
    findEntry name (n.properties.toList.filter fun e => t.hasProperty e.1 && !e.2.isNull) =
      n.given? name := by
  refine Option.ext fun value => ?_
  rw [findEntry_eq_some_iff (nodup_given t n), List.mem_filter, Table.mem_toList_iff]
  constructor
  · rintro ⟨found, counts⟩
    exact Option.filter_eq_some_iff.mpr ⟨found, (Bool.and_eq_true_iff.mp counts).2⟩
  · intro given
    obtain ⟨found, some⟩ := Option.filter_eq_some_iff.mp given
    exact ⟨found, Bool.and_eq_true_iff.mpr ⟨declared (by rw [given]; rfl), some⟩⟩

/-- A property has the value that is given, else its default. -/
theorem get?_resolvedProperties (declared : (n.given? name).isSome → t.hasProperty name = true) :
    (resolvedProperties t n).get? name = (n.given? name <|> t.default? name) := by
  have given : (Table.ofList (n.properties.toList.filter
      fun e => t.hasProperty e.1 && !e.2.isNull)).get? name = n.given? name := by
    rw [Table.ofList, Table.get?_insertAll _ _ _ (nodup_given t n), findEntry_given declared]
    simp
  rw [resolvedProperties, Table.get?_insertNewAll, given, findEntry_defaults]

end Resolved

/-- A node with its type, and with the properties that the type declares. -/
structure Completed (c : EffectiveCatalog) (v : NodeView) : Prop where
  type : c.get? v.typeName = some v.type
  concrete : v.type.isAbstract = false
  keys : ∀ name, v.properties.contains name ↔
    ∃ p ∈ v.type.properties, p.name = name ∧ ((v.node.given? name).isSome ∨ p.default.isSome)
  given : ∀ name value, v.node.given? name = some value → v.properties.get? name = some value ∧
    ∃ p, v.type.property? name = some p ∧ p.accepts value = true
  default : ∀ name, v.node.given? name = none → v.properties.get? name = v.type.default? name

theorem Sound.accepts_given (h : Sound d c) {n : Node} (mem : n ∈ d.nodes) {t : NodeType}
    (known : c.get? n.typeName = some t) {name : String} {value : Json}
    (given : n.given? name = some value) :
    ∃ p, t.property? name = some p ∧ p.accepts value = true := by
  obtain ⟨found, some⟩ := Option.filter_eq_some_iff.mp given
  obtain ⟨p, declared, fits⟩ := h.properties n mem t known name value found
  refine ⟨p, declared, fits ?_⟩
  rintro rfl
  cases some

theorem Sound.completed (h : Sound d c) {n : Node} (mem : n ∈ d.nodes) {t : NodeType}
    (known : typeOf? c n = some t) (i : Nat) : Completed c (viewOf c i n t) := by
  obtain ⟨known, concrete⟩ := typeOf?_eq_some_iff.mp known
  have fits (name : String) (value : Json) (given : n.given? name = some value) :=
    h.accepts_given mem known given
  have resolved (name : String) :
      (resolvedProperties t n).get? name = (n.given? name <|> t.default? name) := by
    refine get?_resolvedProperties fun given => ?_
    obtain ⟨value, given⟩ := Option.isSome_iff_exists.mp given
    obtain ⟨p, declared, -⟩ := fits name value given
    rw [NodeType.hasProperty, declared]
    rfl
  refine ⟨known, concrete, fun name => ?_, fun name value given => ⟨?_, fits name value given⟩,
    fun name absent => ?_⟩
  · change ((resolvedProperties t n).get? name).isSome ↔
      ∃ p ∈ t.properties, p.name = name ∧ ((n.given? name).isSome ∨ p.default.isSome)
    rw [resolved]
    cases given : n.given? name with
    | none => simpa using NodeType.default?_isSome_iff
    | some value =>
      obtain ⟨p, declared, -⟩ := fits name value given
      have named : p.name = name := by simpa using List.find?_some declared
      simpa using ⟨p, List.mem_of_find?_eq_some declared, named⟩
  · change n.given? name = some value at given
    change (resolvedProperties t n).get? name = some value
    rw [resolved, given]
    rfl
  · change n.given? name = none at absent
    change (resolvedProperties t n).get? name = t.default? name
    rw [resolved, absent]
    rfl

/-! ## Accepted designs -/

/-- The node at a place is that of the design, completed. -/
theorem getElem?_nodes (valid : validate d c = .ok g) (i : Nat) :
    g.nodes[i]? = d.nodes[i]?.bind fun n => (typeOf? c n).map (viewOf c i n) := by
  obtain ⟨sound, rfl⟩ := validate_eq_ok_iff.mp valid
  simpa using getElem?_viewsFrom (fun n => sound.exists_typeOf?) 0 i

theorem exists_viewOf (valid : validate d c = .ok g) {i : Nat} {v : NodeView}
    (found : g.nodes[i]? = some v) :
    ∃ n t, d.nodes[i]? = some n ∧ typeOf? c n = some t ∧ v = viewOf c i n t := by
  rw [getElem?_nodes valid, Option.bind_eq_some_iff] at found
  obtain ⟨n, there, typed⟩ := found
  obtain ⟨t, known, rfl⟩ := Option.map_eq_some_iff.mp typed
  exact ⟨n, t, there, known, rfl⟩

theorem index_eq_of_getElem? (valid : validate d c = .ok g) {i : Nat} {v : NodeView}
    (found : g.nodes[i]? = some v) : v.index = i := by
  obtain ⟨n, t, _, _, rfl⟩ := exists_viewOf valid found
  rfl

/-- What is told of the completed nodes is told of the nodes of the design, in their order. -/
theorem map_nodes (valid : validate d c = .ok g) {α : Type} {f : NodeView → α} {f' : Node → α}
    (told : ∀ i n t, f (viewOf c i n t) = f' n) : g.nodes.map f = d.nodes.map f' := by
  refine List.ext_getElem? fun i => ?_
  rw [List.getElem?_map, List.getElem?_map, getElem?_nodes valid]
  cases there : d.nodes[i]? with
  | none => rfl
  | some n =>
    obtain ⟨t, known⟩ := (validate_eq_ok_iff.mp valid).1.exists_typeOf? (List.mem_of_getElem? there)
    simp [known, told]

namespace ValidDesign

theorem map_label_nodes (valid : validate d c = .ok g) :
    g.nodes.map (·.label) = d.nodes.map (labelOf c) :=
  map_nodes valid fun _ _ _ => rfl

theorem eq_of_index (valid : validate d c = .ok g) {v w : NodeView} (memV : v ∈ g.nodes)
    (memW : w ∈ g.nodes) (same : v.index = w.index) : v = w := by
  obtain ⟨i, atV⟩ := List.mem_iff_getElem?.mp memV
  obtain ⟨j, atW⟩ := List.mem_iff_getElem?.mp memW
  rw [index_eq_of_getElem? valid atV, index_eq_of_getElem? valid atW] at same
  subst same
  rw [atV] at atW
  cases atW
  rfl

theorem nodup_labels (valid : validate d c = .ok g) : (g.nodes.map (·.label)).Nodup := by
  rw [map_label_nodes valid]
  exact (validate_eq_ok_iff.mp valid).1.labels

theorem eq_of_label (valid : validate d c = .ok g) {v w : NodeView} (memV : v ∈ g.nodes)
    (memW : w ∈ g.nodes) (same : v.label = w.label) : v = w :=
  List.inj_on_of_nodup_map (nodup_labels valid) memV memW same

theorem mem_nodes_of_link {l : RootLink} (mem : l ∈ g.rootNeighbours) : l.node ∈ g.nodes := by
  unfold rootNeighbours at mem
  split at mem
  · cases mem
  split at mem
  · cases mem
  simp only [List.mem_flatMap, List.mem_filterMap] at mem
  obtain ⟨interface, _, e, _, linked⟩ := mem
  unfold linkAt? at linked
  split at linked
  · cases linked
  split at linked
  · cases linked
  obtain ⟨v, found, rfl⟩ := Option.map_eq_some_iff.mp linked
  exact List.mem_of_getElem? found

end ValidDesign

section Valid

variable (valid : validate d c = .ok g)
include valid

theorem map_node_nodes : g.nodes.map (·.node) = d.nodes := by
  have whole : g.nodes.map (·.node) = d.nodes.map id := map_nodes valid fun _ _ _ => rfl
  rw [whole, List.map_id]

theorem map_index_nodes : g.nodes.map (·.index) = List.range d.nodes.length := by
  have long : g.nodes.length = d.nodes.length := by
    simpa using congrArg List.length (map_node_nodes valid)
  refine List.ext_getElem (by simpa using long) fun i inside _ => ?_
  rw [List.length_map] at inside
  simpa using index_eq_of_getElem? valid (List.getElem?_eq_getElem inside)

theorem nodeByLabel?_eq_some_iff {label : String} {v : NodeView} :
    g.nodeByLabel? label = some v ↔ g.node? v.index = some v ∧ v.label = label := by
  rw [ValidDesign.nodeByLabel?, get?_firstPlaces, List.findIdx?_map]
  constructor
  · intro found
    obtain ⟨i, first, there⟩ := Option.bind_eq_some_iff.mp found
    obtain ⟨inside, named, -⟩ := List.findIdx?_eq_some_iff_getElem.mp first
    change g.nodes[i]? = some v at there
    have same : g.nodes[i] = v :=
      Option.some.inj ((List.getElem?_eq_getElem inside).symm.trans there)
    rw [same] at named
    rw [index_eq_of_getElem? valid there]
    exact ⟨there, by simpa using named⟩
  · rintro ⟨there, rfl⟩
    have mem : v ∈ g.nodes := List.mem_of_getElem? there
    cases first : g.nodes.findIdx? fun w => w.label == v.label with
    | none => simpa using List.findIdx?_eq_none_iff.mp first v mem
    | some i =>
      -- no other node has the label
      obtain ⟨inside, named, -⟩ := List.findIdx?_eq_some_iff_getElem.mp first
      have same : g.nodes[i] = v :=
        ValidDesign.eq_of_label valid (List.getElem_mem inside) mem (by simpa using named)
      change (g.nodes.findIdx? fun w => w.label == v.label).bind g.node? = some v
      rw [first, Option.bind_some]
      exact (List.getElem?_eq_getElem inside).trans (congrArg some same)

theorem isLabel_nodes {doc : Graph.Document} (read : Design.ofDocument doc = .ok d) {v : NodeView}
    (mem : v ∈ g.nodes) : IsLabel v.label := by
  obtain ⟨i, found⟩ := List.mem_iff_getElem?.mp mem
  obtain ⟨n, t, there, -, rfl⟩ := exists_viewOf valid found
  change IsLabel (labelOf c n)
  rcases labelOf_cases c n with own | ⟨category, made⟩
  · rw [own]
    exact Design.isLabel_of_document read (List.mem_of_getElem? there)
  · rw [made]
    exact isLabel_sanitize_join _ _

/-- Every node of an accepted design is completed in its place and found by its label. -/
theorem validate_completes :
    g.nodes.map (·.node) = d.nodes ∧ g.nodes.map (·.index) = List.range d.nodes.length ∧
    (∀ v ∈ g.nodes, Completed c v) ∧
    (g.nodes.map (·.label)).Nodup ∧
    (∀ label v, g.nodeByLabel? label = some v ↔ g.node? v.index = some v ∧ v.label = label) ∧
    ∀ doc, Design.ofDocument doc = .ok d → ∀ v ∈ g.nodes, IsLabel v.label := by
  refine ⟨map_node_nodes valid, map_index_nodes valid, fun v mem => ?_,
    ValidDesign.nodup_labels valid, fun _ _ => nodeByLabel?_eq_some_iff valid,
    fun _ read _ mem => isLabel_nodes valid read mem⟩
  obtain ⟨i, found⟩ := List.mem_iff_getElem?.mp mem
  obtain ⟨n, t, there, known, rfl⟩ := exists_viewOf valid found
  exact (validate_eq_ok_iff.mp valid).1.completed (List.mem_of_getElem? there) known i

end Valid

/-- A lamp is red by default and has no size by default. -/
def colorTypes : EffectiveCatalog :=
  let lamp : NodeType :=
    ⟨"LED", some "IO/LED", [⟨"color", .text, some (.str "red"), [], .empty⟩,
      ⟨"size", .integer, none, [], .empty⟩], [], false, false, [], .empty, none, .empty⟩
  ⟨⟨.empty, [lamp], .empty⟩, Table.ofList [("LED", lamp)]⟩

/-- A lamp without a name and without a color, and a blue one of size 3. -/
def colorFile : Graph.Body :=
  { id := "g", name := none, extra := .empty, connections := []
    nodes := [⟨"n-1", "LED", none, [⟨"color", .null, .empty⟩], [], .empty⟩,
      ⟨"n-2", "LED", some " Big lamp ", [⟨"color", .str "blue", .empty⟩, ⟨"size", .int 3, .empty⟩],
        [], .empty⟩] }

/-- The design of the file with its nodes completed. -/
def colorBoard : ValidDesign :=
  let d := Design.ofBody colorFile
  ⟨d, colorTypes, viewsFrom colorTypes 0 d.nodes, none⟩

theorem validate_completes_colorFile :
    Design.ofDocument ⟨some colorFile, [], none, .empty⟩ = .ok (Design.ofBody colorFile) ∧
      validate (Design.ofBody colorFile) colorTypes = .ok colorBoard ∧
      colorBoard.nodes.map (·.label) = ["led_1", "big_lamp"] ∧
      colorBoard.nodes.map (·.properties.toList) =
        [[("color", .str "red")], [("color", .str "blue"), ("size", .int 3)]] ∧
      (colorBoard.nodeByLabel? "big_lamp").map (·.index) = some 1 ∧
      (∀ v ∈ colorBoard.nodes, Completed colorTypes v) ∧
      ∀ v ∈ colorBoard.nodes, IsLabel v.label := by
  have read :
      Design.ofDocument ⟨some colorFile, [], none, .empty⟩ = .ok (Design.ofBody colorFile) := rfl
  have valid : validate (Design.ofBody colorFile) colorTypes = .ok colorBoard := by decide
  obtain ⟨-, -, completed, -, -, labelled⟩ := validate_completes valid
  exact ⟨read, valid, by decide, by decide, by decide, completed, labelled _ read⟩

end Graph

end BoardDesign
