import BoardDesign.Proofs.Catalog.Steps

/-!
# What modifications leave of inherited members

Modifications only add, but what is added can come in between: of the members of one name a type
has the one that its walk meets first, and a modification can put another one before it.

* `Regrown`: how the walk from a name in a grown catalog goes along the walk before;
* `Displaced`: the ways in which a type comes to a member of a name other than the one it had;
* `Regrown.member`: one member along both walks, the same or displaced;
* `compose_keeps_members`: under further modifications every type keeps a member of each name that
  it had, its own ones as they were, and the inherited ones as they were unless displaced;
* `inherited_member_changes`: an inherited member can change.
-/

namespace BoardDesign.Catalog

variable {c d : Catalog} {names : List String}

/-! ## Walks in a grown catalog -/

/-- Along a walk in `c` and the walk from the same names in `d`: each type grown, and in between
what is met by way of a name that `c` lacks. -/
inductive Regrown (c d : Catalog) : List NodeType → List NodeType → Prop
  | nil : Regrown c d [] []
  | grown {x y ts us} (found : c.node? y.name = some x) (grows : x.Grows y)
      (next : Regrown c d ts us) : Regrown c d (x :: ts) (y :: us)
  | opened {name block ts us} (absent : c.node? name = none) (way : d.Walk [name] block)
      (next : Regrown c d ts us) : Regrown c d ts (block ++ us)

theorem Regrown.append {ts us ts' us' : List NodeType} (h : Regrown c d ts us)
    (h' : Regrown c d ts' us') : Regrown c d (ts ++ ts') (us ++ us') := by
  induction h with
  | nil => exact h'
  | grown found grows _ ih => exact .grown found grows ih
  | opened absent way _ ih =>
    rw [List.append_assoc]
    exact .opened absent way ih

theorem Walk.regrown {ts us : List NodeType} (grows : c.Grows d) (h : c.Walk names ts)
    (h' : d.Walk names us) : Regrown c d ts us := by
  induction h generalizing us with
  | nil => cases h'; exact .nil
  | missing absent _ ih =>
    cases h' with
    | missing _ next => exact ih next
    | node found up next =>
      refine .opened absent ?_ (ih next)
      simpa using Walk.node found up .nil
  | node found _ _ up next =>
    obtain ⟨own', found', grown⟩ := grows.node? found
    cases h' with
    | missing absent _ => cases absent.symm.trans found'
    | node found'' up' next' =>
      cases found'.symm.trans found''
      have same : own'.extending = _ := congrArg NodeType.extending grown.rest
      have name : own'.name = _ := (mem_of_node? found').2
      exact .grown (name ▸ found) grown ((up (same ▸ up')).append (next next'))

/-! ## One member along both walks -/

section Member

variable {α : Type} (items : NodeType → List α) (key : α → String)

/-- The member `q` that a walk in `d` meets first of its name is none that the walk in `c` met: its
type lacked one of that name, or the way to it begins at a name that `c` lacks. -/
inductive Displaced (c d : Catalog) (walk : List NodeType) (q : α) : Prop
  | given (before y after) (whole : walk = before ++ y :: after)
      (first : ∀ x ∈ before, key q ∉ (items x).map key) (mem : q ∈ items y)
      (lacked : ∀ x, c.node? y.name = some x → key q ∉ (items x).map key)
  | opened (before above y below after name)
      (whole : walk = before ++ (above ++ y :: below) ++ after)
      (first : ∀ x ∈ before ++ above, key q ∉ (items x).map key) (mem : q ∈ items y)
      (absent : c.node? name = none) (way : d.Walk [name] (above ++ y :: below))

variable {items key} {p q : α}

theorem Displaced.append {walk : List NodeType} (h : Displaced items key c d walk q)
    (front : List NodeType) (lacks : ∀ x ∈ front, key q ∉ (items x).map key) :
    Displaced items key c d (front ++ walk) q := by
  cases h with
  | given before y after whole first mem lacked =>
    refine .given (front ++ before) y after (by rw [whole, List.append_assoc]) ?_ mem lacked
    exact List.forall_mem_append.mpr ⟨lacks, first⟩
  | opened before above y below after name whole first mem absent way =>
    refine .opened (front ++ before) above y below after name ?_ ?_ mem absent way
    · simp only [whole, List.append_assoc]
    · rw [List.append_assoc]
      exact List.forall_mem_append.mpr ⟨lacks, first⟩

theorem find?_key_eq_none {xs : List α} {k : String} :
    xs.find? (fun x => key x == k) = none ↔ k ∉ xs.map key := by
  simp

/-- The first type of a walk that has a member of a name, and what is before it. -/
theorem exists_first {walk : List NodeType} {k : String}
    (found : (walk.flatMap items).find? (fun x => key x == k) = some q) :
    ∃ before y after, walk = before ++ y :: after ∧
      (∀ x ∈ before, key q ∉ (items x).map key) ∧ q ∈ items y := by
  have same : key q = k := by simpa using List.find?_some found
  induction walk with
  | nil => cases found
  | cons y rest ih =>
    rw [List.flatMap_cons, List.find?_append] at found
    cases here : (items y).find? fun x => key x == k with
    | some q' =>
      rw [here, Option.some_or] at found
      cases found
      exact ⟨[], y, rest, rfl, by simp, List.mem_of_find?_eq_some here⟩
    | none =>
      rw [here, Option.none_or] at found
      obtain ⟨before, z, after, rfl, first, mem⟩ := ih found
      refine ⟨y :: before, z, after, rfl, List.forall_mem_cons.mpr ⟨?_, first⟩, mem⟩
      exact same ▸ find?_key_eq_none.mp here

/-- What a walk met first of a name, the walk in the grown catalog meets first as well, or something
displaces it. -/
theorem Regrown.member (keeps : ∀ {x y : NodeType}, x.Grows y → items x <+: items y)
    {ts us : List NodeType} (h : Regrown c d ts us) {k : String}
    (found : (ts.flatMap items).find? (fun x => key x == k) = some p) :
    ∃ q, (us.flatMap items).find? (fun x => key x == k) = some q ∧
      (q = p ∨ Displaced items key c d us q) := by
  induction h with
  | nil => cases found
  | @grown x y ts us old grows _ ih =>
    simp only [List.flatMap_cons, List.find?_append] at found ⊢
    cases before : (items x).find? fun z => key z == k with
    | some p' =>
      obtain ⟨added, whole⟩ := keeps grows
      rw [before, Option.some_or] at found
      cases found
      exact ⟨p, by rw [← whole, List.find?_append, before, Option.some_or, Option.some_or],
        .inl rfl⟩
    | none =>
      rw [before, Option.none_or] at found
      cases now : (items y).find? fun z => key z == k with
      | some q =>
        have same : key q = k := by simpa using List.find?_some now
        refine ⟨q, by rw [Option.some_or], .inr (.given [] y us rfl (by simp)
          (List.mem_of_find?_eq_some now) fun z found' => ?_)⟩
        cases old.symm.trans found'
        exact same ▸ find?_key_eq_none.mp before
      | none =>
        obtain ⟨q, first, outcome⟩ := ih found
        have same : key q = k := by simpa using List.find?_some first
        refine ⟨q, by rw [Option.none_or, first], outcome.imp_right fun h => ?_⟩
        refine h.append [y] (List.forall_mem_singleton.mpr ?_)
        exact same ▸ find?_key_eq_none.mp now
  | @opened name block ts us absent way _ ih =>
    rw [List.flatMap_append, List.find?_append]
    cases now : (block.flatMap items).find? fun z => key z == k with
    | some q =>
      obtain ⟨above, y, below, rfl, first, mem⟩ := exists_first now
      refine ⟨q, by rw [Option.some_or], .inr ?_⟩
      exact .opened [] above y below us name rfl first mem absent way
    | none =>
      obtain ⟨q, first, outcome⟩ := ih found
      have same : key q = k := by simpa using List.find?_some first
      refine ⟨q, by rw [Option.none_or, first],
        outcome.imp_right fun h => h.append block fun x mem => ?_⟩
      have lacks := same ▸ find?_key_eq_none.mp now
      exact fun has => lacks (by
        obtain ⟨z, at_x, e⟩ := List.mem_map.mp has
        exact e ▸ List.mem_map_of_mem (List.mem_flatMap.mpr ⟨x, mem, at_x⟩))

theorem mem_firsts_iff {xs : List α} :
    p ∈ firsts key xs ↔ xs.find? (fun x => key x == key p) = some p := by
  induction xs using List.reverseRecOn with
  | nil => simp [firsts]
  | append_singleton xs x ih =>
    have step : firsts key (xs ++ [x]) = pushNew key (firsts key xs) x := firsts_append_eq xs [x]
    have keys : key x ∈ (firsts key xs).map key ↔ key x ∈ xs.map key := mem_keys_firsts
    rw [step, List.find?_append]
    by_cases known : key x ∈ xs.map key
    · rw [pushNew_of_mem (keys.mpr known), ih]
      cases found : xs.find? fun y => key y == key p with
      | some y => rw [Option.some_or]
      | none =>
        have ne : key x ≠ key p := fun same => find?_key_eq_none.mp found (same ▸ known)
        simp [ne]
    · rw [pushNew_of_not_mem (mt keys.mp known), List.mem_append, ih, List.mem_singleton]
      cases found : xs.find? fun y => key y == key p with
      | some y =>
        rw [Option.some_or, or_iff_left]
        rintro rfl
        have same : key y = key p := by simpa using List.find?_some found
        exact known (same ▸ List.mem_map_of_mem (List.mem_of_find?_eq_some found))
      | none =>
        by_cases same : key x = key p
        · simp [same, eq_comm]
        · have ne : p ≠ x := fun e => same (congrArg key e).symm
          simp [same, ne]

/-- What a type has of its members after its walk has become another one. -/
structure Kept (items : NodeType → List α) (key : α → String) (c d : Catalog)
    (own t u : NodeType) (walk : List NodeType) : Prop where
  own : ∀ p ∈ items own, p ∈ items u
  all : ∀ p ∈ items t, ∃ q ∈ items u, key q = key p ∧ (q = p ∨ Displaced items key c d walk q)

theorem Regrown.kept (keeps : ∀ {x y : NodeType}, x.Grows y → items x <+: items y)
    {own own' t u : NodeType} {above above' : List NodeType}
    (h : Regrown c d (own :: above) (own' :: above')) (grows : own.Grows own')
    (distinct : ((items own').map key).Nodup)
    (before : items t = firsts key ((own :: above).flatMap items))
    (after : items u = firsts key ((own' :: above').flatMap items)) :
    Kept items key c d own t u (own' :: above') where
  own p mem := by
    have first := find?_key_self key distinct ((keeps grows).subset mem)
    rw [after, mem_firsts_iff, List.flatMap_cons, List.find?_append, first, Option.some_or]
  all p mem := by
    rw [before, mem_firsts_iff] at mem
    obtain ⟨q, first, outcome⟩ := h.member keeps mem
    have same : key q = key p := by simpa using List.find?_some first
    exact ⟨q, by rw [after, mem_firsts_iff, same]; exact first, same, outcome⟩

end Member

/-! ## Composed catalogs -/

/-- A resolved type, the type that it completes and the walk with which it does. -/
theorem exists_completes {base : Catalog} {mods : List Modification} {e : EffectiveCatalog}
    (checked : ∀ m ∈ mods, ∃ origin, m.check origin = .ok ()) (composed : base.compose mods = .ok e)
    {name : String} {t : NodeType} (found : e.get? name = some t) :
    ∃ own above, e.composed.node? name = some own ∧ own.repeatedMember = none ∧
      e.composed.Walk [name] (own :: above) ∧ own.Completes (own :: above) t := by
  obtain ⟨sound, applied, flat⟩ := compose_eq_ok_iff.mp composed
  obtain ⟨own, above, node, walk, rfl⟩ := (flatten_ok flat).1 name t found
  have distinct : own.repeatedMember = none :=
    (check_eq_ok_iff.mp (applyAll_check sound checked applied)).1 own (mem_of_node? node).1
  have whole : e.composed.Walk [name] (own :: above) := by simpa using Walk.node node walk .nil
  exact ⟨own, above, node, distinct, whole, NodeType.completes_foldl distinct above⟩

theorem grows_of_compose_append {base : Catalog} {mods extra : List Modification}
    {e f : EffectiveCatalog} (before : base.compose mods = .ok e)
    (after : base.compose (mods ++ extra) = .ok f) : e.composed.Grows f.composed := by
  have applied := (compose_eq_ok_iff.mp before).2.1
  have again := (compose_eq_ok_iff.mp after).2.1
  rw [applyAll_append, applied] at again
  exact (applyAll_grows again).1

/-- Under further modifications every resolved type keeps a member of each name that it had. Those
that the type itself declares are as they were, and so are the inherited ones, unless the type from
which the member is inherited now lacked one of that name, or is met by way of a type that the
catalog lacked. -/
theorem compose_keeps_members (base : Catalog) (mods extra : List Modification)
    (e f : EffectiveCatalog) (checked : ∀ m ∈ mods ++ extra, ∃ origin, m.check origin = .ok ())
    (before : base.compose mods = .ok e) (after : base.compose (mods ++ extra) = .ok f)
    (name : String) (t : NodeType) (had : e.get? name = some t) :
    ∃ own u walk, e.composed.node? name = some own ∧ f.get? name = some u ∧
      f.composed.Walk [name] walk ∧
      Kept (·.properties) (·.name) e.composed f.composed own t u walk ∧
      Kept (·.interfaces) (·.name) e.composed f.composed own t u walk := by
  have grows := grows_of_compose_append before after
  obtain ⟨own, above, node, -, walk, completes⟩ :=
    exists_completes (fun m mem => checked m (List.mem_append_left _ mem)) before had
  obtain ⟨own', node', grown⟩ := grows.node? node
  obtain ⟨u, has⟩ : ∃ u, f.get? name = some u := by
    have names := (flatten_ok (compose_eq_ok_iff.mp after).2.2).2 name
    exact Option.isSome_iff_exists.mp (names.trans (contains_of_node? node'))
  obtain ⟨own'', above', found, distinct, walk', completes'⟩ := exists_completes checked after has
  cases node'.symm.trans found
  obtain ⟨properties, interfaces⟩ := NodeType.repeatedMember_eq_none_iff.mp distinct
  have regrown := walk.regrown grows walk'
  exact ⟨own, u, own' :: above', node, has, walk',
    regrown.kept NodeType.Grows.properties grown properties completes.properties
      completes'.properties,
    regrown.kept NodeType.Grows.interfaces grown interfaces completes.interfaces
      completes'.interfaces⟩

/-- A property for a size. -/
def sizeProperty (size : Int) : Property := ⟨"size", .integer, some (.int size), [], .empty⟩

/-- A board that has the size and the pin of a part. -/
def sizedCatalog : Catalog :=
  let part (name : String) (extending : List String) : NodeType :=
    ⟨name, none, [], [], false, false, extending, .empty, none, .empty⟩
  { metadata := .empty
    nodes := [part "Board" ["Part"],
      { part "Part" [] with
        properties := [sizeProperty 1]
        interfaces := [⟨"pin", .inout, none, ⟨["gpio"]⟩, none, .empty⟩] }]
    extra := .empty }

/-- A size for the board itself. -/
def sizeModification : Modification where
  metadata := .empty
  addedNodes := []
  additions := [⟨["Board"], [sizeProperty 2], []⟩]

theorem sizeModification_check : ∀ m ∈ [sizeModification], ∃ origin, m.check origin = .ok () :=
  fun m mem => ⟨"", by revert m; decide⟩

/-- The sizes that the board has without the modification and with it. -/
theorem compose_sized :
    ∃ e f t u, sizedCatalog.compose [] = .ok e ∧ sizedCatalog.compose [sizeModification] = .ok f ∧
      e.get? "Board" = some t ∧ f.get? "Board" = some u ∧ t.properties = [sizeProperty 1] ∧
      u.properties = [sizeProperty 2] := by
  have properties (mods : List Modification) (ps : List Property)
      (run : (sizedCatalog.compose mods).map (fun e => (e.get? "Board").map (·.properties))
        = .ok (some ps)) :
      ∃ e t, sizedCatalog.compose mods = .ok e ∧ e.get? "Board" = some t ∧ t.properties = ps := by
    cases composed : sizedCatalog.compose mods with
    | error fault =>
      rw [composed] at run
      cases run
    | ok e =>
      rw [composed] at run
      obtain ⟨t, found, same⟩ := Option.map_eq_some_iff.mp (Except.ok.inj run)
      exact ⟨e, t, rfl, found, same⟩
  obtain ⟨e, t, before, had, old⟩ := properties [] [sizeProperty 1] (by decide)
  obtain ⟨f, u, after, has, new⟩ := properties [sizeModification] [sizeProperty 2] (by decide)
  exact ⟨e, f, t, u, before, after, had, has, old, new⟩

theorem compose_keeps_members_sized :
    ∃ e f t, sizedCatalog.compose [] = .ok e ∧
      sizedCatalog.compose ([] ++ [sizeModification]) = .ok f ∧ e.get? "Board" = some t ∧
      ∃ own u walk, e.composed.node? "Board" = some own ∧ f.get? "Board" = some u ∧
        f.composed.Walk ["Board"] walk ∧
        Kept (·.properties) (·.name) e.composed f.composed own t u walk ∧
        Kept (·.interfaces) (·.name) e.composed f.composed own t u walk := by
  obtain ⟨e, f, t, -, before, after, had, -⟩ := compose_sized
  exact ⟨e, f, t, before, after, had, compose_keeps_members sizedCatalog [] [sizeModification] e f
    sizeModification_check before after "Board" t had⟩

/-- An inherited member can give way to one that a modification adds. -/
theorem inherited_member_changes :
    ¬ ∀ (base : Catalog) (mods extra : List Modification) (e f : EffectiveCatalog),
      (∀ m ∈ mods ++ extra, ∃ origin, m.check origin = .ok ()) → base.compose mods = .ok e →
      base.compose (mods ++ extra) = .ok f → ∀ name t, e.get? name = some t →
      ∃ u, f.get? name = some u ∧ (∀ p ∈ t.properties, p ∈ u.properties) ∧
        ∀ i ∈ t.interfaces, i ∈ u.interfaces := by
  intro additive
  obtain ⟨e, f, t, u, before, after, had, has, old, new⟩ := compose_sized
  obtain ⟨u', has', properties, -⟩ := additive sizedCatalog [] [sizeModification] e f
    sizeModification_check before after "Board" t had
  cases has.symm.trans has'
  have still : sizeProperty 1 ∈ [sizeProperty 2] := new ▸ properties _ (by simp [old])
  exact absurd still (by decide)

end BoardDesign.Catalog
