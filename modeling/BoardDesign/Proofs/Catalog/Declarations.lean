import BoardDesign.Proofs.Catalog.Additions

/-!
# A composed catalog as what was declared

A catalog and modifications declare types and members of types, one after the other. What they
compose to can be told from these declarations, without the steps of the composition.

* `Declaration`: a type, or members for the types of some names; `Modification.declarations` and
  `declarations` list them in the order in which they are applied;
* `Holds`: each type is the first one declared of its name, grown, and has of the members declared
  for it the first one of each name;
* `Holds.addNode`, `Holds.addMembers`: one declaration applied; `Holds.applyAll`: all of them;
* `Holds.check`: what holds declarations so is well formed;
* `compose_declared`: so a composed catalog is well formed, and is the old one with members and
  types added at the ends.
-/

namespace BoardDesign

/-- What is declared in one place: a type, or members for the types of some names. -/
inductive Declaration where
  | type (t : NodeType)
  | members (e : MemberAddition)

namespace Declaration

/-- The names of the types that the declaration is about. -/
def names : Declaration → List String
  | type t => [t.name]
  | members e => e.names

def properties : Declaration → List Property
  | type t => t.properties
  | members e => e.properties

def interfaces : Declaration → List Interface
  | type t => t.interfaces
  | members e => e.interfaces

def type? : Declaration → Option NodeType
  | type t => some t
  | members _ => none

/-- The declarations that are about the type of a name. -/
def about (name : String) (ds : List Declaration) : List Declaration :=
  ds.filter fun x => name ∈ x.names

/-- The types that are declared. -/
def types (ds : List Declaration) : List NodeType := ds.filterMap type?

variable {name : String} {ds : List Declaration}

theorem about_append (ds es : List Declaration) :
    about name (ds ++ es) = about name ds ++ about name es :=
  List.filter_append ..

theorem types_append (ds es : List Declaration) : types (ds ++ es) = types ds ++ types es :=
  List.filterMap_append

@[simp] theorem types_map_type (ts : List NodeType) : types (ts.map type) = ts := by
  simp only [types, List.filterMap_map]
  exact List.filterMap_some

end Declaration

namespace Catalog

open Declaration (about types about_append types_append types_map_type)

variable {c d : Catalog} {index : Nat} {ds : List Declaration} {α : Type}
  {items : NodeType → List α} {given : Declaration → List α} {key : α → String}

/-! ## First members -/

theorem nodup_firsts (xs : List α) : ((firsts key xs).map key).Nodup := by
  rw [← foldl_pushNew_nil]
  apply nodup_foldl_pushNew
  exact List.nodup_nil

/-- Members of names that were declared before change nothing. -/
theorem firsts_append_of_known {xs ys : List α}
    (known : ∀ y ∈ ys, key y ∈ (firsts key xs).map key) :
    firsts key (xs ++ ys) = firsts key xs := by
  rw [firsts_append_eq]
  induction ys with
  | nil => rfl
  | cons y rest ih =>
    rw [List.foldl_cons, pushNew_of_mem (known y List.mem_cons_self)]
    exact ih fun z mem => known z (List.mem_cons_of_mem _ mem)

theorem mem_keys_of_any {xs : List α} {k : String} {p : α → Bool}
    (has : (xs.find? fun x => key x == k).any p = true) : k ∈ xs.map key := by
  obtain ⟨x, found, -⟩ := (Option.any_eq_true _ _).mp has
  exact List.mem_map.mpr ⟨x, List.mem_of_find?_eq_some found, by simpa using List.find?_some found⟩

/-! ## Both kinds of members -/

/-- A kind of members: how types and declarations list it, and how a merge changes the list. -/
structure Kind (items : NodeType → List α) (given : Declaration → List α) (key : α → String) :
    Prop where
  type : ∀ t, given (.type t) = items t
  merged : ∀ t e, items (t.mergeMembers e.properties e.interfaces) =
    (given (.members e)).foldl (pushNew key) (items t)
  subsumed : ∀ t u, t.subsumes u = true → ∀ y ∈ items u, key y ∈ (items t).map key
  distinct : ∀ t, t.repeatedMember = none → ((items t).map key).Nodup

theorem kind_properties : Kind NodeType.properties Declaration.properties (·.name) where
  type _ := rfl
  merged t e := by rw [NodeType.mergeMembers_eq]; rfl
  subsumed t u sub p mem := by
    simp only [NodeType.subsumes, Bool.and_eq_true, List.all_eq_true] at sub
    exact mem_keys_of_any (sub.1.2 p mem)
  distinct _ once := (NodeType.repeatedMember_eq_none_iff.mp once).1

theorem kind_interfaces : Kind NodeType.interfaces Declaration.interfaces (·.name) where
  type _ := rfl
  merged t e := by rw [NodeType.mergeMembers_eq]; rfl
  subsumed t u sub i mem := by
    simp only [NodeType.subsumes, Bool.and_eq_true, List.all_eq_true] at sub
    exact mem_keys_of_any (sub.2 i mem)
  distinct _ once := (NodeType.repeatedMember_eq_none_iff.mp once).2

/-- Every type has of the members declared for it the first one of each name. -/
def HoldsMembers (items : NodeType → List α) (given : Declaration → List α) (key : α → String)
    (ds : List Declaration) (c : Catalog) : Prop :=
  ∀ u ∈ c.nodes, items u = firsts key ((about u.name ds).flatMap given)

/-- A catalog that holds what was declared. -/
structure Holds (ds : List Declaration) (c : Catalog) : Prop where
  grown : List.Forall₂ NodeType.Grows (firsts (·.name) (types ds)) c.nodes
  properties : HoldsMembers NodeType.properties Declaration.properties (·.name) ds c
  interfaces : HoldsMembers NodeType.interfaces Declaration.interfaces (·.name) ds c
  known : ∀ x ∈ ds, ∀ name ∈ x.names, c.contains name = true

theorem map_name_of_forall₂ {ts us : List NodeType} (h : List.Forall₂ NodeType.Grows ts us) :
    us.map (·.name) = ts.map (·.name) := by
  induction h with
  | nil => rfl
  | cons grows _ ih => rw [List.map_cons, List.map_cons, grows.name, ih]

theorem Holds.names (h : Holds ds c) :
    c.nodes.map (·.name) = (firsts (·.name) (types ds)).map (·.name) :=
  map_name_of_forall₂ h.grown

theorem Holds.distinct (h : Holds ds c) : (c.nodes.map (·.name)).Nodup :=
  h.names ▸ nodup_firsts _

/-- Nothing is declared twice in what holds declarations. -/
theorem Holds.check (h : Holds ds c) : c.check = .ok () := by
  apply check_eq_ok_iff.mpr
  refine ⟨fun u mem => NodeType.repeatedMember_eq_none_iff.mpr ?_, h.distinct⟩
  rw [h.properties u mem, h.interfaces u mem]
  exact ⟨nodup_firsts _, nodup_firsts _⟩

/-! ## A catalog as its own declarations -/

theorem about_type_of_mem {ts : List NodeType} (distinct : (ts.map (·.name)).Nodup) {t : NodeType}
    (mem : t ∈ ts) : about t.name (ts.map .type) = [.type t] := by
  induction ts with
  | nil => cases mem
  | cons u rest ih =>
    rw [List.map_cons, List.nodup_cons] at distinct
    obtain rfl | mem := List.mem_cons.mp mem
    · have others : about t.name (rest.map .type) = [] := by
        simp only [about, List.filter_map, List.map_eq_nil_iff, List.filter_eq_nil_iff]
        intro v mem same
        apply distinct.1
        have named : t.name = v.name := by simpa [Declaration.names] using same
        exact named ▸ List.mem_map_of_mem mem
      rw [List.map_cons, about, List.filter_cons_of_pos (by simp [Declaration.names])]
      exact congrArg _ others
    · have ne : t.name ≠ u.name := fun same => distinct.1 (same ▸ List.mem_map_of_mem mem)
      rw [List.map_cons, about, List.filter_cons_of_neg (by simpa [Declaration.names] using ne)]
      exact ih distinct.2 mem

theorem holdsMembers_start (kind : Kind items given key) (checked : c.check = .ok ()) :
    HoldsMembers items given key (c.nodes.map .type) c := by
  obtain ⟨once, distinct⟩ := check_eq_ok_iff.mp checked
  intro u mem
  rw [about_type_of_mem distinct mem, List.flatMap_singleton, kind.type,
    firsts_of_nodup (kind.distinct u (once u mem))]

theorem holds_start (checked : c.check = .ok ()) : Holds (c.nodes.map .type) c where
  grown := by
    rw [types_map_type, firsts_of_nodup (check_eq_ok_iff.mp checked).2]
    exact List.forall₂_same.mpr fun t _ => .refl t
  properties := holdsMembers_start kind_properties checked
  interfaces := holdsMembers_start kind_interfaces checked
  known := by
    intro x mem name named
    obtain ⟨t, present, rfl⟩ := List.mem_map.mp mem
    obtain rfl := List.mem_singleton.mp named
    have found := node?_of_mem (check_eq_ok_iff.mp checked).2 present
    exact Option.isSome_iff_exists.mpr ⟨t, found⟩

/-! ## A type declared -/

theorem about_of_absent (h : Holds ds c) {name : String} (absent : c.node? name = none) :
    about name ds = [] := by
  apply List.filter_eq_nil_iff.mpr
  intro x mem named
  have has := h.known x mem name (by simpa using named)
  simp [contains, absent] at has

theorem about_append_of_ne {name : String} {t : NodeType} (ne : name ≠ t.name) :
    about name (ds ++ [.type t]) = about name ds := by
  rw [about_append, about, about, List.filter_cons_of_neg (by simpa [Declaration.names] using ne)]
  exact List.append_nil _

theorem about_append_self (t : NodeType) :
    about t.name (ds ++ [.type t]) = about t.name ds ++ [.type t] := by
  rw [about_append, about, about, List.filter_cons_of_pos (by simp [Declaration.names])]
  rfl

/-- A type of a new name has what it declares, and no other type has more than before. -/
theorem HoldsMembers.push (kind : Kind items given key) (h : Holds ds c)
    (members : HoldsMembers items given key ds c) {t : NodeType} (once : t.repeatedMember = none)
    (absent : c.node? t.name = none) :
    HoldsMembers items given key (ds ++ [.type t]) { c with nodes := c.nodes ++ [t] } := by
  intro u mem
  obtain mem | mem := List.mem_append.mp mem
  · have ne : u.name ≠ t.name := by
      intro same
      cases absent.symm.trans (same ▸ node?_of_mem h.distinct mem)
    rw [about_append_of_ne ne]
    exact members u mem
  · obtain rfl := List.mem_singleton.mp mem
    rw [about_append_self, about_of_absent h absent, List.nil_append, List.flatMap_singleton,
      kind.type, firsts_of_nodup (kind.distinct u once)]

/-- A type that is there already brings no member of a new name. -/
theorem HoldsMembers.skip (kind : Kind items given key) (h : Holds ds c)
    (members : HoldsMembers items given key ds c) {t old : NodeType}
    (found : c.node? t.name = some old) (sub : old.subsumes t = true) :
    HoldsMembers items given key (ds ++ [.type t]) c := by
  intro u mem
  by_cases same : u.name = t.name
  · obtain rfl : old = u := Option.some.inj
      (found.symm.trans (same ▸ node?_of_mem h.distinct mem))
    rw [same, about_append_self, List.flatMap_append, List.flatMap_singleton, kind.type,
      firsts_append_of_known, ← same]
    · exact members old mem
    · rw [← same, ← members old mem]
      exact kind.subsumed old t sub
  · rw [about_append_of_ne same]
    exact members u mem

theorem types_append_type (t : NodeType) : types (ds ++ [.type t]) = types ds ++ [t] := by
  rw [types_append]
  rfl

theorem Holds.addNode {t : NodeType} (h : Holds ds c) (once : t.repeatedMember = none)
    (added : c.addNode t = .ok d) : Holds (ds ++ [.type t]) d := by
  have grows : c.Grows d := (addNode_grows added).1
  have has : d.contains t.name = true := by
    obtain ⟨u, found, -⟩ := addNode_has once added
    exact Option.isSome_iff_exists.mpr ⟨u, found⟩
  have known : ∀ x ∈ ds ++ [.type t], ∀ name ∈ x.names, d.contains name = true := by
    intro x mem name named
    obtain mem | mem := List.mem_append.mp mem
    · exact grows.contains (h.known x mem name named)
    · obtain rfl := List.mem_singleton.mp mem
      obtain rfl := List.mem_singleton.mp named
      exact has
  unfold Catalog.addNode at added
  split at added
  · rename_i absent
    cases added
    refine ⟨?_, h.properties.push kind_properties h once absent,
      h.interfaces.push kind_interfaces h once absent, known⟩
    have new : t.name ∉ (firsts (·.name) (types ds)).map (·.name) := by
      rw [← h.names]
      exact find?_key_eq_none.mp absent
    rw [types_append_type, firsts_append_eq, List.foldl_cons, List.foldl_nil,
      pushNew_of_not_mem new]
    exact List.rel_append h.grown (.cons (.refl t) .nil)
  · rename_i old found
    split at added
    · rename_i sub
      cases added
      refine ⟨?_, h.properties.skip kind_properties h found sub,
        h.interfaces.skip kind_interfaces h found sub, known⟩
      have old : t.name ∈ (firsts (·.name) (types ds)).map (·.name) := by
        obtain ⟨mem, same⟩ := mem_of_node? found
        rw [← h.names, ← same]
        exact List.mem_map_of_mem mem
      rw [types_append_type, firsts_append_eq, List.foldl_cons, List.foldl_nil, pushNew_of_mem old]
      exact h.grown
    · cases added

/-! ## Members declared -/

theorem updateFirst_eq_map {name : String} {change : NodeType → NodeType} {nodes : List NodeType}
    (distinct : (nodes.map (·.name)).Nodup) :
    updateFirst name change nodes = nodes.map fun t => if t.name = name then change t else t := by
  induction nodes with
  | nil => rfl
  | cons t rest ih =>
    rw [List.map_cons, List.nodup_cons] at distinct
    rw [List.map_cons, updateFirst, ih distinct.2]
    by_cases here : t.name = name
    · have others : rest.map (fun u => if u.name = name then change u else u) = rest := by
        refine (List.map_congr_left fun u mem => ?_).trans (List.map_id _)
        apply if_neg
        intro same
        exact distinct.1 (here.trans same.symm ▸ List.mem_map_of_mem mem)
      simp [here, others]
    · simp [here]

/-- Members merged into some types are merged into each of them once, however often it is named. -/
theorem nodes_mergeAll (distinct : (c.nodes.map (·.name)).Nodup) (names : List String)
    (ps : List Property) (is : List Interface) :
    (c.mergeAll names ps is).nodes =
      c.nodes.map fun t => if t.name ∈ names then t.mergeMembers ps is else t := by
  induction names generalizing c with
  | nil => simp [mergeAll]
  | cons name rest ih =>
    have keeps : ∀ t : NodeType, (t.mergeMembers ps is).name = t.name := fun t =>
      (t.mergeMembers_grows ps is).name
    have distinct' : ((updateFirst name (·.mergeMembers ps is) c.nodes).map (·.name)).Nodup :=
      (names_updateFirst keeps c.nodes).symm ▸ distinct
    refine (ih (c := c.update name fun t => t.mergeMembers ps is) distinct').trans ?_
    rw [update, updateFirst_eq_map distinct, List.map_map]
    apply List.map_congr_left
    intro t _
    have twice : (t.mergeMembers ps is).mergeMembers ps is = t.mergeMembers ps is :=
      NodeType.mergeMembers_of_complete (t.mergeMembers_complete ps is)
    by_cases here : t.name = name <;> by_cases later : t.name ∈ rest <;>
      simp_all

theorem about_append_members (name : String) (e : MemberAddition) :
    about name (ds ++ [.members e]) =
      about name ds ++ if name ∈ e.names then [.members e] else [] := by
  rw [about_append]
  by_cases named : name ∈ e.names <;> simp [about, Declaration.names, named]

theorem HoldsMembers.merge (kind : Kind items given key) (h : Holds ds c)
    (members : HoldsMembers items given key ds c) (e : MemberAddition) :
    HoldsMembers items given key (ds ++ [.members e])
      (c.mergeAll e.names e.properties e.interfaces) := by
  intro u mem
  rw [nodes_mergeAll h.distinct] at mem
  obtain ⟨t, present, rfl⟩ := List.mem_map.mp mem
  by_cases named : t.name ∈ e.names
  · rw [if_pos named, (t.mergeMembers_grows _ _).name, about_append_members, if_pos named,
      List.flatMap_append, List.flatMap_singleton, firsts_append_eq, ← members t present,
      kind.merged]
  · rw [if_neg named, about_append_members, if_neg named, List.append_nil, members t present]

theorem Holds.addMembers {e : MemberAddition} (h : Holds ds c)
    (added : c.addMembers index e = .ok d) : Holds (ds ++ [.members e]) d := by
  obtain ⟨known, rfl⟩ := addMembers_eq_ok_iff.mp added
  have grows := (mergeAll_grows (c := c) e.names e.properties e.interfaces).1
  refine ⟨?_, h.properties.merge kind_properties h e, h.interfaces.merge kind_interfaces h e, ?_⟩
  · have same : types (ds ++ [.members e]) = types ds := by
      rw [types_append]
      exact List.append_nil _
    rw [same, nodes_mergeAll h.distinct, List.forall₂_map_right_iff]
    refine h.grown.imp fun t u grown => ?_
    split
    · exact grown.trans (u.mergeMembers_grows _ _)
    · exact grown
  · intro x mem name named
    obtain mem | mem := List.mem_append.mp mem
    · exact grows.contains (h.known x mem name named)
    · obtain rfl := List.mem_singleton.mp mem
      exact grows.contains (known name named)

/-! ## Modifications -/

theorem Holds.foldlM_addNode {ts : List NodeType} (h : Holds ds c)
    (once : ∀ t ∈ ts, t.repeatedMember = none) (added : ts.foldlM Catalog.addNode c = .ok d) :
    Holds (ds ++ ts.map .type) d := by
  induction ts generalizing c ds with
  | nil =>
    cases added
    simpa using h
  | cons t rest ih =>
    rw [List.foldlM_cons] at added
    obtain ⟨c', first, added⟩ := bind_eq_ok added
    have next := h.addNode (once t List.mem_cons_self) first
    simpa using ih next (fun u mem => once u (List.mem_cons_of_mem _ mem)) added

theorem Holds.foldlM_addMembers {es : List MemberAddition} (h : Holds ds c)
    (added : es.foldlM (fun c e => c.addMembers index e) c = .ok d) :
    Holds (ds ++ es.map .members) d := by
  induction es generalizing c ds with
  | nil =>
    cases added
    simpa using h
  | cons e rest ih =>
    rw [List.foldlM_cons] at added
    obtain ⟨c', first, added⟩ := bind_eq_ok added
    simpa using ih (h.addMembers first) added

end Catalog

/-- What a modification declares, in the order in which it is applied. -/
def Modification.declarations (m : Modification) : List Declaration :=
  m.addedNodes.map .type ++ m.additions.map .members

namespace Catalog

open Declaration (about types types_append types_map_type)

variable {c d : Catalog} {index : Nat} {ds : List Declaration}

/-- What a catalog and modifications declare, in the order in which they are applied. -/
def declarations (base : Catalog) (ms : List Modification) : List Declaration :=
  base.nodes.map .type ++ ms.flatMap (·.declarations)

theorem Holds.apply {m : Modification} {origin : String} (h : Holds ds c)
    (sound : m.check origin = .ok ()) (applied : c.apply index m = .ok d) :
    Holds (ds ++ m.declarations) d := by
  obtain ⟨c', added, applied⟩ := bind_eq_ok applied
  have described : Holds ds (c.describe m) := ⟨h.grown, h.properties, h.interfaces, h.known⟩
  have nodes := described.foldlM_addNode (distinct_of_check sound) added
  simpa [Modification.declarations] using nodes.foldlM_addMembers applied

theorem Holds.applyAll {ms : List Modification} (h : Holds ds c)
    (sound : ∀ m ∈ ms, ∃ origin, m.check origin = .ok ()) (applied : c.applyAll index ms = .ok d) :
    Holds (ds ++ ms.flatMap (·.declarations)) d := by
  induction ms generalizing c ds index with
  | nil =>
    cases applied
    simpa using h
  | cons m rest ih =>
    unfold Catalog.applyAll at applied
    split at applied
    · cases applied
    · rename_i c' first
      obtain ⟨origin, one⟩ := sound m List.mem_cons_self
      have next := h.apply one first
      simpa using ih next (fun n mem => sound n (List.mem_cons_of_mem _ mem)) applied

/-! ## Composition -/

theorem types_declarations (base : Catalog) (ms : List Modification) :
    types (base.declarations ms) = base.nodes ++ ms.flatMap (·.addedNodes) := by
  rw [declarations, types_append, types_map_type]
  induction ms with
  | nil => rfl
  | cons m rest ih =>
    have members : types (m.additions.map .members) = [] := by
      simp [types, Declaration.type?]
    rw [List.append_right_inj] at ih ⊢
    rw [List.flatMap_cons, List.flatMap_cons, types_append, ih, Modification.declarations,
      types_append, types_map_type, members, List.append_nil]

theorem holds_of_compose {base : Catalog} {ms : List Modification} {e : EffectiveCatalog}
    (sound : ∀ m ∈ ms, ∃ origin, m.check origin = .ok ()) (composed : base.compose ms = .ok e) :
    Holds (base.declarations ms) e.composed := by
  obtain ⟨checked, applied, -⟩ := compose_eq_ok_iff.mp composed
  exact (holds_start checked).applyAll sound applied

/-- Composition keeps catalogs well formed and only appends. The composed catalog passes its check.
It has the types of the old one in their order, and after them of each further name the first type
that was added; each of these has grown, that is, all is as it was but for members added at the
ends. Of the members declared for a type, in the catalog and then by one modification after the
other, it has the first one of each name. No resolved type declares a member twice. -/
theorem compose_declared (base : Catalog) (ms : List Modification) (e : EffectiveCatalog)
    (sound : ∀ m ∈ ms, ∃ origin, m.check origin = .ok ()) (composed : base.compose ms = .ok e) :
    e.composed.check = .ok () ∧
      List.Forall₂ NodeType.Grows
        (base.nodes ++ firsts (·.name) ((ms.flatMap (·.addedNodes)).filter fun t =>
          decide (t.name ∉ base.nodes.map (·.name)))) e.composed.nodes ∧
      (∀ t ∈ e.composed.nodes,
        t.properties =
          firsts (·.name) ((about t.name (base.declarations ms)).flatMap (·.properties)) ∧
        t.interfaces =
          firsts (·.name) ((about t.name (base.declarations ms)).flatMap (·.interfaces))) ∧
      ∀ name t, e.get? name = some t → t.repeatedMember = none := by
  have holds : Holds (base.declarations ms) e.composed := holds_of_compose sound composed
  have distinct : (base.nodes.map (·.name)).Nodup :=
    (check_eq_ok_iff.mp (compose_eq_ok_iff.mp composed).1).2
  refine ⟨holds.check, ?_, fun t mem => ⟨holds.properties t mem, holds.interfaces t mem⟩, ?_⟩
  · rw [← foldl_pushNew, ← firsts_append distinct, ← types_declarations]
    exact holds.grown
  · intro name t found
    obtain ⟨own, above, -, -, -, completes⟩ := exists_completes sound composed found
    apply NodeType.repeatedMember_eq_none_iff.mpr
    rw [completes.properties, completes.interfaces]
    exact ⟨nodup_firsts _, nodup_firsts _⟩

/-- For the lamp, named twice, another address, which it has already, and a level. -/
def levelModification : Modification where
  metadata := .empty
  addedNodes := []
  additions := [⟨["Lamp", "LED", "Lamp"],
    [⟨"address (gpio)", .text, none, [], .empty⟩, ⟨"level", .integer, none, [], .empty⟩], []⟩]

theorem compose_declared_lamp :
    (∀ m ∈ [lampModification, versionModification, levelModification], ∃ origin,
      m.check origin = .ok ()) ∧
    ∃ e, lampCatalog.compose [lampModification, versionModification, levelModification] = .ok e ∧
      e.composed.check = .ok () ∧
      List.Forall₂ NodeType.Grows (lampCatalog.nodes ++ lampModification.addedNodes)
        e.composed.nodes ∧
      (∀ t ∈ e.composed.nodes, t.properties.map (fun p => (p.name, p.kind)) =
        [("address (gpio)", .hex), ("level", .integer)]) ∧
      ∀ name t, e.get? name = some t → t.repeatedMember = none := by
  have sound : ∀ m ∈ [lampModification, versionModification, levelModification], ∃ origin,
      m.check origin = .ok () := fun m mem => ⟨"", by revert m; decide⟩
  have succeeds : (lampCatalog.compose
      [lampModification, versionModification, levelModification]).toBool = true := by decide
  refine ⟨sound, ?_⟩
  cases composed : lampCatalog.compose
      [lampModification, versionModification, levelModification] with
  | error fault => rw [composed] at succeeds; cases succeeds
  | ok e =>
    obtain ⟨checked, types, members, resolved⟩ := compose_declared lampCatalog _ e sound composed
    have added : firsts (·.name)
        (([lampModification, versionModification, levelModification].flatMap
          (·.addedNodes)).filter fun t => decide (t.name ∉ lampCatalog.nodes.map (·.name))) =
        lampModification.addedNodes := by decide
    rw [added] at types
    refine ⟨e, rfl, checked, types, fun t mem => ?_, resolved⟩
    have named : t.name ∈ (lampCatalog.nodes ++ lampModification.addedNodes).map (·.name) := by
      rw [← map_name_of_forall₂ types]
      exact List.mem_map_of_mem mem
    rw [(members t mem).1]
    revert named
    generalize t.name = name
    revert name
    decide

end Catalog

end BoardDesign
