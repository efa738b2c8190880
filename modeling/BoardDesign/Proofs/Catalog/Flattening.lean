import BoardDesign.Proofs.Catalog.Extension
import Mathlib.Data.List.Perm.Basic

/-!
# What a flattened catalog holds

A checked catalog in which no type extends itself flattens to one completed type for each of its
types. Resolution keeps what it has resolved and takes it up again; the walk that
`flatten_completes` compares it with keeps nothing, so types that are inherited from twice over are
no different from others.

* `check_eq_ok_iff`: what a checked catalog promises;
* `flatten_perm`: the order of the types of a checked catalog makes no difference;
* `flatten_completes`: each type is completed with what the walk from its name meets.
-/

namespace BoardDesign.Catalog

variable {c d : Catalog}

theorem checkNodes_eq_ok_iff {seen : List String} {ts : List NodeType} :
    checkNodes seen ts = .ok () ↔
      (∀ t ∈ ts, t.name ∉ seen ∧ t.repeatedMember = none) ∧ (ts.map (·.name)).Nodup := by
  induction ts generalizing seen with
  | nil => simp [checkNodes]
  | cons t rest ih =>
    unfold checkNodes
    by_cases known : t.name ∈ seen
    · simp [known]
    · cases repeated : t.repeatedMember with
      | some member => simp [known, repeated]
      | none =>
        simp only [known, if_false, ih, List.mem_cons, not_or, List.map_cons, List.nodup_cons,
          forall_eq_or_imp, not_false_eq_true, repeated, true_and]
        constructor
        · rintro ⟨others, distinct⟩
          refine ⟨fun u mem => ⟨(others u mem).1.2, (others u mem).2⟩, fun again => ?_, distinct⟩
          obtain ⟨u, mem, same⟩ := List.mem_map.mp again
          exact (others u mem).1.1 same
        · rintro ⟨others, new, distinct⟩
          exact ⟨fun u mem => ⟨⟨fun same => new (same ▸ List.mem_map_of_mem mem),
            (others u mem).1⟩, (others u mem).2⟩, distinct⟩

/-- In a checked catalog no name is given twice, to types or to members of a type. -/
theorem check_eq_ok_iff :
    c.check = .ok () ↔
      (∀ t ∈ c.nodes, t.repeatedMember = none) ∧ (c.nodes.map (·.name)).Nodup := by
  simp [check, checkNodes_eq_ok_iff]

theorem node?_of_mem (distinct : (c.nodes.map (·.name)).Nodup) {t : NodeType}
    (mem : t ∈ c.nodes) : c.node? t.name = some t :=
  find?_key_self NodeType.name distinct mem

theorem mem_of_node? {name : String} {t : NodeType} (found : c.node? name = some t) :
    t ∈ c.nodes ∧ t.name = name :=
  ⟨List.mem_of_find?_eq_some found, by simpa using List.find?_some found⟩

/-! ## The order of the types -/

theorem node?_perm (distinct : (c.nodes.map (·.name)).Nodup) (same : d.nodes.Perm c.nodes)
    (name : String) : d.node? name = c.node? name := by
  have distinct' : (d.nodes.map (·.name)).Nodup := (same.map _).nodup_iff.mpr distinct
  cases found : c.node? name with
  | some t =>
    obtain ⟨mem, rfl⟩ := mem_of_node? found
    exact node?_of_mem distinct' (same.mem_iff.mpr mem)
  | none =>
    cases found' : d.node? name with
    | none => rfl
    | some t =>
      obtain ⟨mem, rfl⟩ := mem_of_node? found'
      cases found.symm.trans (node?_of_mem distinct (same.mem_iff.mp mem))

section SameTypes

variable (same : ∀ name, d.node? name = c.node? name)

include same

theorem Walk.congr {names : List String} {ts : List NodeType} (h : c.Walk names ts) :
    d.Walk names ts := by
  induction h with
  | nil => exact .nil
  | missing absent _ ih => exact .missing ((same _).trans absent) ih
  | node found _ _ up next => exact .node ((same _).trans found) up next

theorem Cyclic.congr (h : d.Cyclic) : c.Cyclic := by
  have extends_congr (name parent : String) (h : d.Extends name parent) : c.Extends name parent := by
    simpa only [Extends, Lists, contains, same] using h
  obtain ⟨name, round⟩ := h
  exact ⟨name, Relation.TransGen.mono extends_congr _ _ round⟩

/-- Sound tables with the same names agree. -/
theorem Sound.eq {table table' : Table NodeType} (h : c.Sound table) (h' : d.Sound table')
    (names : ∀ name, table'.contains name = table.contains name) : table' = table := by
  apply Table.ext
  intro name
  have alike := names name
  cases entry : table.get? name with
  | none => simpa [Table.contains, entry] using alike
  | some t =>
    obtain ⟨t', entry'⟩ : ∃ t', table'.get? name = some t' :=
      Option.isSome_iff_exists.mp (by simpa [Table.contains, entry] using alike)
    obtain ⟨own, above, found, walk, rfl⟩ := h name t entry
    obtain ⟨own', above', found', walk', rfl⟩ := h' name t' entry'
    cases found.symm.trans ((same name).symm.trans found')
    rw [entry', walk'.unique (walk.congr same)]

end SameTypes

/-- Without a type that extends itself flattening succeeds. -/
theorem flatten_of_not_cyclic (acyclic : ¬ c.Cyclic) : ∃ table, c.flatten = .ok table := by
  cases result : c.flatten with
  | ok table => exact ⟨table, rfl⟩
  | error e =>
    obtain ⟨round, _, back⟩ := resolveAll_error result
    exact absurd (cyclic_of_closes back) acyclic

theorem flatten_perm {table : Table NodeType} (distinct : (c.nodes.map (·.name)).Nodup)
    (same : d.nodes.Perm c.nodes) (h : c.flatten = .ok table) : d.flatten = .ok table := by
  have found := node?_perm distinct same
  obtain ⟨table', h'⟩ := flatten_of_not_cyclic fun cyclic =>
    not_cyclic_of_flatten_ok h (Cyclic.congr found cyclic)
  obtain ⟨sound, names⟩ := flatten_ok h
  obtain ⟨sound', names'⟩ := flatten_ok h'
  rw [h', Sound.eq found sound sound' fun name => ?_]
  rw [names', names, contains, contains, found]

/-! ## What each type has -/

/-- A checked catalog in which no type extends itself flattens to a table of exactly its names,
whatever the order of its types. Each type is completed with what the one walk from its name
meets. -/
theorem flatten_completes (c : Catalog) (checked : c.check = .ok ()) (acyclic : ¬ c.Cyclic) :
    ∃ table, c.flatten = .ok table ∧
      (∀ name, name ∈ table.keys ↔ name ∈ c.nodes.map (·.name)) ∧
      (∀ own ∈ c.nodes, ∃ walk t, (∀ ts, c.Walk [own.name] ts ↔ ts = walk) ∧
        table.get? own.name = some t ∧ own.Completes walk t) ∧
      ∀ d : Catalog, d.nodes.Perm c.nodes → d.flatten = .ok table := by
  obtain ⟨declared, distinct⟩ := check_eq_ok_iff.mp checked
  obtain ⟨table, flat⟩ := flatten_of_not_cyclic acyclic
  obtain ⟨sound, names⟩ := flatten_ok flat
  have keys (name : String) : name ∈ table.keys ↔ table.contains name = true :=
    findEntry_isSome_iff.symm
  refine ⟨table, flat, fun name => ?_, fun own mem => ?_, fun d same =>
    flatten_perm distinct same flat⟩
  · rw [keys, names]
    constructor
    · intro has
      obtain ⟨t, found⟩ := Option.isSome_iff_exists.mp has
      obtain ⟨mem, rfl⟩ := mem_of_node? found
      exact List.mem_map_of_mem mem
    · intro mem
      obtain ⟨t, present, rfl⟩ := List.mem_map.mp mem
      exact contains_of_node? (node?_of_mem distinct present)
  · have found := node?_of_mem distinct mem
    obtain ⟨t, entry⟩ := Option.isSome_iff_exists.mp
      ((names own.name).trans (contains_of_node? found))
    obtain ⟨own', above, found', walk, rfl⟩ := sound own.name t entry
    cases found.symm.trans found'
    have whole : c.Walk [own.name] (own :: above) := by simpa using Walk.node found walk .nil
    refine ⟨own :: above, _, fun ts => ⟨fun h => h.unique whole, ?_⟩, entry,
      NodeType.completes_foldl (declared own mem) above⟩
    rintro rfl
    exact whole

/-- A part from which two others inherit, and a board that inherits from both and from a part that
the catalog lacks. -/
def diamondCatalog : Catalog :=
  let part (name : String) (extending : List String) : NodeType :=
    ⟨name, none, [], [], true, false, extending, .empty, none, .empty⟩
  { metadata := .empty
    nodes := [
      { part "Board" ["Left", "Missing", "Right"] with
        properties := [⟨"own", .text, none, [], .empty⟩], isAbstract := false },
      { part "Left" ["Part"] with
        properties := [⟨"side", .text, some (.str "left"), [], .empty⟩] },
      { part "Right" ["Part"] with
        properties := [⟨"side", .text, some (.str "right"), [], .empty⟩]
        category := some "Parts/Right" },
      { part "Part" [] with
        properties := [⟨"size", .integer, none, [], .empty⟩]
        interfaces := [⟨"pin", .inout, none, ⟨["gpio"]⟩, none, .empty⟩]
        category := some "Parts" }]
    extra := .empty }

theorem flatten_completes_diamond :
    diamondCatalog.check = .ok () ∧ ¬ diamondCatalog.Cyclic ∧
      ∃ table, diamondCatalog.flatten = .ok table ∧ table.keys = ["Board", "Left", "Part", "Right"] ∧
        ∀ own ∈ diamondCatalog.nodes, ∃ walk t,
          (∀ ts, diamondCatalog.Walk [own.name] ts ↔ ts = walk) ∧
            table.get? own.name = some t ∧ own.Completes walk t := by
  have checked : diamondCatalog.check = .ok () := by decide
  have keys : diamondCatalog.flatten.map Table.keys = .ok ["Board", "Left", "Part", "Right"] := by
    decide
  have acyclic : ¬ diamondCatalog.Cyclic := by
    cases flat : diamondCatalog.flatten with
    | ok table => exact not_cyclic_of_flatten_ok flat
    | error e => rw [flat] at keys; cases keys
  obtain ⟨table, flat, _, all, _⟩ := flatten_completes diamondCatalog checked acyclic
  refine ⟨checked, acyclic, table, flat, ?_, all⟩
  rw [flat] at keys
  exact Except.ok.inj keys

end BoardDesign.Catalog
