import BoardDesign.Proofs.Catalog.Growth
import BoardDesign.Proofs.Table

/-!
# Repeated modifications are absorbed

A catalog absorbs a modification when all that the modification adds is there already.

* `apply_grows`, `absorbs_of_apply`: applying a checked modification grows the catalog, and the
  result absorbs it;
* `Absorbs.mono`: a grown catalog absorbs what it absorbed before;
* `applyAll_of_absorbs`: applying absorbed modifications only writes their metadata again;
* `compose_absorbs_repeats`: so modifications that repeat earlier ones, in any order and number,
  change no type of a composed catalog, and a whole sequence repeated changes nothing at all.
-/

namespace BoardDesign.Catalog

variable {c d : Catalog} {index : Nat}

/-- All that a modification adds is there already. -/
structure Absorbs (c : Catalog) (m : Modification) : Prop where
  nodes : ∀ t ∈ m.addedNodes, ∃ u, c.node? t.name = some u ∧ u.subsumes t = true
  members : ∀ e ∈ m.additions, ∀ name ∈ e.names,
    ∃ u, c.node? name = some u ∧ u.Complete e.properties e.interfaces

theorem Absorbs.mono {m : Modification} (h : c.Absorbs m) (grows : c.Grows d) : d.Absorbs m := by
  constructor
  · intro t mem
    obtain ⟨u, found, sub⟩ := h.nodes t mem
    obtain ⟨v, found, grown⟩ := grows.node? found
    exact ⟨v, found, grown.subsumes sub⟩
  · intro e he name hn
    obtain ⟨u, found, complete⟩ := h.members e he name hn
    obtain ⟨v, found, grown⟩ := grows.node? found
    exact ⟨v, found, grown.complete complete⟩

/-! ## Added types -/

theorem addNode_grows {t : NodeType} (h : c.addNode t = .ok d) :
    c.Grows d ∧ d.metadata = c.metadata ∧ d.extra = c.extra := by
  unfold addNode at h
  split at h
  · cases h
    exact ⟨⟨c.nodes, [t], rfl, List.forall₂_same.mpr fun t _ => .refl t⟩, rfl, rfl⟩
  · split at h
    · cases h
      exact ⟨.refl c, rfl, rfl⟩
    · cases h

theorem addNode_has {t : NodeType} (distinct : t.repeatedMember = none)
    (h : c.addNode t = .ok d) : ∃ u, d.node? t.name = some u ∧ u.subsumes t = true := by
  unfold addNode at h
  split at h
  · rename_i absent
    cases h
    refine ⟨t, ?_, NodeType.subsumes_self distinct⟩
    simp only [node?] at absent ⊢
    rw [List.find?_append, absent]
    simp
  · rename_i old found
    split at h
    · rename_i sub
      cases h
      exact ⟨old, found, sub⟩
    · cases h

theorem foldlM_addNode_grows {ts : List NodeType} (h : ts.foldlM addNode c = .ok d) :
    c.Grows d ∧ d.metadata = c.metadata ∧ d.extra = c.extra := by
  induction ts generalizing c with
  | nil => cases h; exact ⟨.refl _, rfl, rfl⟩
  | cons t rest ih =>
    rw [List.foldlM_cons] at h
    obtain ⟨c', first, h⟩ := bind_eq_ok h
    obtain ⟨grows, metadata, extra⟩ := addNode_grows first
    obtain ⟨grows', metadata', extra'⟩ := ih h
    exact ⟨grows.trans grows', metadata'.trans metadata, extra'.trans extra⟩

theorem foldlM_addNode_has {ts : List NodeType} (distinct : ∀ t ∈ ts, t.repeatedMember = none)
    (h : ts.foldlM addNode c = .ok d) :
    ∀ t ∈ ts, ∃ u, d.node? t.name = some u ∧ u.subsumes t = true := by
  induction ts generalizing c with
  | nil => simp
  | cons t rest ih =>
    rw [List.foldlM_cons] at h
    obtain ⟨c', first, others⟩ := bind_eq_ok h
    intro s mem
    rcases List.mem_cons.mp mem with rfl | mem
    · obtain ⟨u, found, sub⟩ := addNode_has (distinct s List.mem_cons_self) first
      obtain ⟨v, found, grown⟩ := (foldlM_addNode_grows others).1.node? found
      exact ⟨v, found, grown.subsumes sub⟩
    · exact ih (fun t mem => distinct t (List.mem_cons_of_mem _ mem)) others s mem

theorem foldlM_addNode_of_has {ts : List NodeType}
    (has : ∀ t ∈ ts, ∃ u, c.node? t.name = some u ∧ u.subsumes t = true) :
    ts.foldlM addNode c = .ok c := by
  induction ts with
  | nil => rfl
  | cons t rest ih =>
    obtain ⟨u, found, sub⟩ := has t List.mem_cons_self
    have first : c.addNode t = .ok c := by simp [addNode, found, sub]
    rw [List.foldlM_cons, first]
    exact ih fun t mem => has t (List.mem_cons_of_mem _ mem)

/-! ## Added members -/

/-- Members merged into each of some types, one after the other. -/
def mergeAll (c : Catalog) (names : List String) (ps : List Property) (is : List Interface) :
    Catalog :=
  names.foldl (fun c name => c.update name fun t => t.mergeMembers ps is) c

theorem mergeAll_grows (names : List String) (ps : List Property) (is : List Interface) :
    c.Grows (c.mergeAll names ps is) ∧ (c.mergeAll names ps is).metadata = c.metadata ∧
      (c.mergeAll names ps is).extra = c.extra := by
  induction names generalizing c with
  | nil => exact ⟨.refl c, rfl, rfl⟩
  | cons name rest ih =>
    obtain ⟨grows, metadata, extra⟩ := ih (c := c.update name fun t => t.mergeMembers ps is)
    exact ⟨(update_grows name (fun t => t.mergeMembers_grows ps is) c).trans grows, metadata, extra⟩

theorem mergeAll_complete {names : List String} {ps : List Property} {is : List Interface}
    (known : ∀ name ∈ names, c.contains name = true) :
    ∀ name ∈ names, ∃ u, (c.mergeAll names ps is).node? name = some u ∧ u.Complete ps is := by
  induction names generalizing c with
  | nil => simp
  | cons name rest ih =>
    have grows := update_grows name (fun t => t.mergeMembers_grows ps is) c
    intro other mem
    rcases List.mem_cons.mp mem with rfl | mem
    · obtain ⟨t, found⟩ := Option.isSome_iff_exists.mp (known other List.mem_cons_self)
      have merged := node?_update (fun t => (t.mergeMembers_grows ps is).name) found
      obtain ⟨u, found, grown⟩ := (mergeAll_grows rest ps is).1.node? merged
      exact ⟨u, found, grown.complete (t.mergeMembers_complete ps is)⟩
    · exact ih (fun n hn => grows.contains (known n (List.mem_cons_of_mem _ hn))) other mem

theorem mergeAll_of_complete {names : List String} {ps : List Property} {is : List Interface}
    (h : ∀ name ∈ names, ∃ u, c.node? name = some u ∧ u.Complete ps is) :
    c.mergeAll names ps is = c := by
  induction names with
  | nil => rfl
  | cons name rest ih =>
    obtain ⟨u, found, complete⟩ := h name List.mem_cons_self
    rw [mergeAll, List.foldl_cons,
      update_of_fixed found (NodeType.mergeMembers_of_complete complete)]
    exact ih fun n hn => h n (List.mem_cons_of_mem _ hn)

/-- An addition whose types are all known merges its members; any other one fails. -/
theorem addMembers_eq_ok_iff {e : MemberAddition} :
    c.addMembers index e = .ok d ↔
      (∀ name ∈ e.names, c.contains name = true) ∧
        c.mergeAll e.names e.properties e.interfaces = d := by
  unfold addMembers
  split
  · rename_i name missing
    have mem := List.mem_of_find?_eq_some missing
    have absent := List.find?_some missing
    simp only [reduceCtorEq, false_iff, not_and]
    intro known
    simp [known name mem] at absent
  · rename_i none
    have known : ∀ name ∈ e.names, c.contains name = true := by
      simpa using List.find?_eq_none.mp none
    simp only [Except.ok.injEq]
    exact ⟨fun h => ⟨known, h⟩, fun h => h.2⟩

theorem foldlM_addMembers_grows {es : List MemberAddition}
    (h : es.foldlM (fun c e => c.addMembers index e) c = .ok d) :
    c.Grows d ∧ d.metadata = c.metadata ∧ d.extra = c.extra := by
  induction es generalizing c with
  | nil => cases h; exact ⟨.refl _, rfl, rfl⟩
  | cons e rest ih =>
    rw [List.foldlM_cons] at h
    obtain ⟨c', first, h⟩ := bind_eq_ok h
    obtain ⟨_, rfl⟩ := addMembers_eq_ok_iff.mp first
    obtain ⟨grows, metadata, extra⟩ := mergeAll_grows (c := c) e.names e.properties e.interfaces
    obtain ⟨grows', metadata', extra'⟩ := ih h
    exact ⟨grows.trans grows', metadata'.trans metadata, extra'.trans extra⟩

theorem foldlM_addMembers_complete {es : List MemberAddition}
    (h : es.foldlM (fun c e => c.addMembers index e) c = .ok d) :
    ∀ e ∈ es, ∀ name ∈ e.names,
      ∃ u, d.node? name = some u ∧ u.Complete e.properties e.interfaces := by
  induction es generalizing c with
  | nil => simp
  | cons e rest ih =>
    rw [List.foldlM_cons] at h
    obtain ⟨c', first, others⟩ := bind_eq_ok h
    obtain ⟨known, rfl⟩ := addMembers_eq_ok_iff.mp first
    intro e' mem name hn
    rcases List.mem_cons.mp mem with rfl | mem
    · obtain ⟨u, found, complete⟩ := mergeAll_complete known name hn
      obtain ⟨v, found, grown⟩ := (foldlM_addMembers_grows others).1.node? found
      exact ⟨v, found, grown.complete complete⟩
    · exact ih others e' mem name hn

theorem foldlM_addMembers_of_complete {es : List MemberAddition}
    (h : ∀ e ∈ es, ∀ name ∈ e.names,
      ∃ u, c.node? name = some u ∧ u.Complete e.properties e.interfaces) :
    es.foldlM (fun c e => c.addMembers index e) c = .ok c := by
  induction es with
  | nil => rfl
  | cons e rest ih =>
    have here := h e List.mem_cons_self
    have known : ∀ name ∈ e.names, c.contains name = true := by
      intro name hn
      obtain ⟨u, found, _⟩ := here name hn
      exact Option.isSome_iff_exists.mpr ⟨u, found⟩
    have first : c.addMembers index e = .ok c :=
      addMembers_eq_ok_iff.mpr ⟨known, mergeAll_of_complete here⟩
    rw [List.foldlM_cons, first]
    exact ih fun e mem => h e (List.mem_cons_of_mem _ mem)

/-! ## Whole modifications -/

/-- The catalog with the metadata of a modification written over its own. -/
def describe (c : Catalog) (m : Modification) : Catalog :=
  { c with metadata := c.metadata.overlay m.metadata }

theorem apply_grows {m : Modification} (h : c.apply index m = .ok d) :
    c.Grows d ∧ d.metadata = c.metadata.overlay m.metadata ∧ d.extra = c.extra := by
  obtain ⟨c', added, h⟩ := bind_eq_ok h
  obtain ⟨grows, metadata, extra⟩ := foldlM_addNode_grows added
  obtain ⟨grows', metadata', extra'⟩ := foldlM_addMembers_grows h
  exact ⟨(Grows.of_nodes_eq (c := c) (d := c.describe m) rfl).trans (grows.trans grows'),
    metadata'.trans metadata, extra'.trans extra⟩

theorem absorbs_of_apply {m : Modification}
    (distinct : ∀ t ∈ m.addedNodes, t.repeatedMember = none) (h : c.apply index m = .ok d) :
    d.Absorbs m := by
  obtain ⟨c', added, h⟩ := bind_eq_ok h
  refine ⟨fun t mem => ?_, foldlM_addMembers_complete h⟩
  obtain ⟨u, found, sub⟩ := foldlM_addNode_has distinct added t mem
  obtain ⟨v, found, grown⟩ := (foldlM_addMembers_grows h).1.node? found
  exact ⟨v, found, grown.subsumes sub⟩

theorem apply_of_absorbs {m : Modification} (h : c.Absorbs m) :
    c.apply index m = .ok (c.describe m) := by
  have nodes : m.addedNodes.foldlM addNode (c.describe m) = .ok (c.describe m) :=
    foldlM_addNode_of_has h.nodes
  have members : m.additions.foldlM (fun c e => c.addMembers index e) (c.describe m)
      = .ok (c.describe m) :=
    foldlM_addMembers_of_complete h.members
  calc c.apply index m
      = (m.addedNodes.foldlM addNode (c.describe m) >>=
          m.additions.foldlM fun c e => c.addMembers index e) := rfl
    _ = .ok (c.describe m) := by rw [nodes]; exact members

/-- A checked modification adds no type that declares a member twice. -/
theorem distinct_of_check {m : Modification} {origin : String} (h : m.check origin = .ok ()) :
    ∀ t ∈ m.addedNodes, t.repeatedMember = none := by
  have sound : Modification.addedNodesDefect? m.addedNodes = none := by
    unfold Modification.check Modification.defect? at h
    split at h
    · cases h
    · rename_i none
      split at none
      · cases none
      · exact (Option.or_eq_none_iff.mp (by simpa using none)).1
  generalize m.addedNodes = ts at sound
  induction ts with
  | nil => simp
  | cons t rest ih =>
    unfold Modification.addedNodesDefect? at sound
    split at sound
    · cases sound
    · split at sound
      · cases sound
      · rename_i none
        intro s mem
        rcases List.mem_cons.mp mem with rfl | mem
        · exact none
        · exact ih sound s mem

/-! ## Sequences of modifications -/

theorem applyAll_append (c : Catalog) (index : Nat) (a b : List Modification) :
    c.applyAll index (a ++ b)
      = (c.applyAll index a).bind fun d => d.applyAll (index + a.length) b := by
  induction a generalizing c index with
  | nil => rfl
  | cons m rest ih =>
    simp only [List.cons_append, applyAll, List.length_cons]
    cases c.apply index m with
    | error e => rfl
    | ok d => simp only [ih, Nat.add_comm, Nat.add_left_comm]

theorem applyAll_grows {ms : List Modification} (h : c.applyAll index ms = .ok d) :
    c.Grows d ∧ d.metadata = c.metadata.overlayAll (ms.map (·.metadata)) ∧ d.extra = c.extra := by
  induction ms generalizing c index with
  | nil => cases h; exact ⟨.refl _, rfl, rfl⟩
  | cons m rest ih =>
    unfold applyAll at h
    split at h
    · cases h
    · rename_i c' first
      obtain ⟨grows, metadata, extra⟩ := apply_grows first
      obtain ⟨grows', metadata', extra'⟩ := ih h
      exact ⟨grows.trans grows', by rw [metadata', metadata]; rfl, extra'.trans extra⟩

theorem absorbs_of_applyAll {ms : List Modification}
    (distinct : ∀ m ∈ ms, ∀ t ∈ m.addedNodes, t.repeatedMember = none)
    (h : c.applyAll index ms = .ok d) : ∀ m ∈ ms, d.Absorbs m := by
  induction ms generalizing c index with
  | nil => simp
  | cons m rest ih =>
    unfold applyAll at h
    split at h
    · cases h
    · rename_i c' first
      intro m' mem
      rcases List.mem_cons.mp mem with rfl | mem
      · exact (absorbs_of_apply (distinct m' List.mem_cons_self) first).mono (applyAll_grows h).1
      · exact ih (fun m mem => distinct m (List.mem_cons_of_mem _ mem)) h m' mem

/-- The catalog with the metadata of some modifications written over its own in order. -/
def describeAll (c : Catalog) (ms : List Modification) : Catalog :=
  { c with metadata := c.metadata.overlayAll (ms.map (·.metadata)) }

theorem applyAll_of_absorbs {ms : List Modification} (h : ∀ m ∈ ms, c.Absorbs m) :
    c.applyAll index ms = .ok (c.describeAll ms) := by
  induction ms generalizing c index with
  | nil => rfl
  | cons m rest ih =>
    have still : ∀ m' ∈ rest, (c.describe m).Absorbs m' := fun m' mem =>
      (h m' (List.mem_cons_of_mem _ mem)).mono (.of_nodes_eq rfl)
    simp only [applyAll, apply_of_absorbs (h m List.mem_cons_self), ih still]
    rfl

/-! ## Composition -/

/-- Resolution reads the types of a catalog and nothing else. -/
theorem resolve_congr (same : d.nodes = c.nodes) (fuel : Nat) (chain : List String) (name : String)
    (done : Table NodeType) : d.resolve fuel chain name done = c.resolve fuel chain name done := by
  induction fuel generalizing chain name done with
  | zero => rfl
  | succ fuel ih => simp only [resolve, node?, same, ih]

theorem flatten_congr (same : d.nodes = c.nodes) : d.flatten = c.flatten := by
  simp only [flatten, same, resolve_congr same]

theorem compose_eq_ok_iff {base : Catalog} {mods : List Modification} {e : EffectiveCatalog} :
    base.compose mods = .ok e ↔
      base.check = .ok () ∧ base.applyAll 0 mods = .ok e.composed ∧
        e.composed.flatten = .ok e.resolved := by
  constructor
  · intro h
    obtain ⟨_, checked, h⟩ := bind_eq_ok h
    obtain ⟨composed, applied, h⟩ := bind_eq_ok h
    obtain ⟨resolved, flat, h⟩ := bind_eq_ok h
    cases h
    exact ⟨checked, applied, flat⟩
  · rintro ⟨checked, applied, flat⟩
    simp only [compose, checked, applied, flat, bind, Except.bind]

/-- Modifications that repeat modifications applied before are absorbed, and a sequence that is
applied twice has the effect of once. -/
theorem compose_absorbs_repeats (base : Catalog) (mods extra : List Modification)
    (e : EffectiveCatalog) (checked : ∀ m ∈ mods, ∃ origin, m.check origin = .ok ())
    (composed : base.compose mods = .ok e) (repeats : ∀ m ∈ extra, m ∈ mods) :
    ∃ f, base.compose (mods ++ extra) = .ok f ∧ f.composed.nodes = e.composed.nodes ∧
      f.resolved = e.resolved ∧ (extra = mods → f = e) := by
  obtain ⟨sound, applied, flat⟩ := compose_eq_ok_iff.mp composed
  have distinct : ∀ m ∈ mods, ∀ t ∈ m.addedNodes, t.repeatedMember = none := by
    intro m mem
    obtain ⟨origin, h⟩ := checked m mem
    exact distinct_of_check h
  have absorbed : ∀ m ∈ extra, e.composed.Absorbs m := fun m mem =>
    absorbs_of_applyAll distinct applied m (repeats m mem)
  have again : base.applyAll 0 (mods ++ extra) = .ok (e.composed.describeAll extra) := by
    rw [applyAll_append, applied]
    exact applyAll_of_absorbs absorbed
  refine ⟨⟨e.composed.describeAll extra, e.resolved⟩, ?_, rfl, rfl, ?_⟩
  · have same : (e.composed.describeAll extra).flatten = e.composed.flatten := flatten_congr rfl
    exact compose_eq_ok_iff.mpr ⟨sound, again, same.trans flat⟩
  · rintro rfl
    have metadata : e.composed.metadata.overlayAll (extra.map (·.metadata))
        = e.composed.metadata := by
      rw [(applyAll_grows applied).2.1, Table.overlayAll_twice]
    simp only [describeAll, metadata]

/-- A lamp on one pin, and the pin for every LED. -/
def lampModification : Modification :=
  let led : NodeType := ⟨"LED", some "IO/LED", [], [], false, false, [], .empty, none, .empty⟩
  { metadata := Table.ofList [("version", .int 1)]
    addedNodes := [{ led with name := "Lamp", extending := ["LED"] }]
    additions := [⟨["LED", "Lamp"], [⟨"address (gpio)", .hex, none, [], .empty⟩],
      [⟨"gpio", .inout, none, ⟨["gpio"]⟩, none, .empty⟩]⟩] }

/-- The lamp once more, as it was before it had a pin, and another version. -/
def versionModification : Modification :=
  { lampModification with metadata := Table.ofList [("version", .int 2)], additions := [] }

def lampCatalog : Catalog :=
  ⟨.empty, [⟨"LED", some "IO/LED", [], [], false, false, [], .empty, none, .empty⟩], .empty⟩

theorem compose_absorbs_lamp_repeats :
    ∃ e f, lampCatalog.compose [lampModification, versionModification] = .ok e ∧
      lampCatalog.compose ([lampModification, versionModification] ++
        [versionModification, lampModification, versionModification]) = .ok f ∧
      f.composed.nodes = e.composed.nodes ∧ f.resolved = e.resolved := by
  have checked : ∀ m ∈ [lampModification, versionModification], ∃ origin,
      m.check origin = .ok () := by
    intro m mem
    exact ⟨"", by revert m; decide⟩
  have repeats : ∀ m ∈ [versionModification, lampModification, versionModification],
      m ∈ [lampModification, versionModification] := by decide
  cases composed : lampCatalog.compose [lampModification, versionModification] with
  | error fault =>
    have succeeds :
        (lampCatalog.compose [lampModification, versionModification]).toBool = true := by decide
    simp [composed, Except.toBool] at succeeds
  | ok e =>
    obtain ⟨f, again, nodes, resolved, _⟩ :=
      compose_absorbs_repeats lampCatalog _ _ e checked composed repeats
    exact ⟨e, f, rfl, again, nodes, resolved⟩

end BoardDesign.Catalog
