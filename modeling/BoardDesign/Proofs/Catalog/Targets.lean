import BoardDesign.Proofs.Catalog.Extension
import BoardDesign.Proofs.Catalog.Steps

/-!
# The types that modifications name

A modification adds members to types by name. Each of them has to be a type of the catalog or one
that is added by then.

* `namesWith`: the names of a catalog and of the types that modifications add;
* `contains_apply`, `contains_applyAll`: the names that there are after modifications;
* `firstAbsent?`: the first name in a modification that is not among some names;
* `apply_eq_error_iff`, `applyAll_eq_error_iff`: where a sequence of modifications fails;
* `compose_unknown_iff`: so a composition names the first type that is absent, and its place.
-/

namespace BoardDesign

namespace Modification

/-- The modification without the members that it adds to types. -/
def typesOnly (m : Modification) : Modification := { m with additions := [] }

/-- The first name that is not among those known, in the order of the entries. -/
def firstAbsent? (known : List String) (m : Modification) : Option String :=
  (m.additions.flatMap (·.names)).find? fun name => decide (name ∉ known)

theorem firstAbsent?_eq_none_iff {known : List String} {m : Modification} :
    m.firstAbsent? known = none ↔ ∀ entry ∈ m.additions, ∀ name ∈ entry.names, name ∈ known := by
  simp only [firstAbsent?, List.find?_eq_none, List.mem_flatMap, decide_eq_true_eq, not_not,
    forall_exists_index, and_imp]
  exact ⟨fun h entry mem name named => h name entry mem named,
    fun h name entry mem named => h entry mem name named⟩

end Modification

namespace Catalog

variable {base c d : Catalog} {index : Nat} {m : Modification} {ms : List Modification}
  {name : String} {known : List String} {e : Error}

/-! ## The names that there are -/

/-- The names of a catalog's types and of those that modifications add. -/
def namesWith (base : Catalog) (ms : List Modification) : List String :=
  (base.nodes ++ ms.flatMap (·.addedNodes)).map (·.name)

theorem contains_iff : c.contains name = true ↔ name ∈ c.nodes.map (·.name) := by
  simp [contains, node?]

theorem contains_addNode {t : NodeType} (added : c.addNode t = .ok d) :
    d.contains name = true ↔ c.contains name = true ∨ name = t.name := by
  unfold addNode at added
  split at added
  · cases added
    simp only [contains_iff, List.map_append, List.mem_append, List.map_singleton,
      List.mem_singleton]
  · rename_i old found
    split at added
    · cases added
      have known : c.contains t.name = true := Option.isSome_iff_exists.mpr ⟨old, found⟩
      exact ⟨.inl, fun either => either.elim id fun same => same ▸ known⟩
    · cases added

theorem contains_foldlM_addNode {ts : List NodeType} (added : ts.foldlM addNode c = .ok d) :
    d.contains name = true ↔ c.contains name = true ∨ name ∈ ts.map (·.name) := by
  induction ts generalizing c with
  | nil =>
    cases added
    simp
  | cons t rest ih =>
    rw [List.foldlM_cons] at added
    obtain ⟨c', first, added⟩ := bind_eq_ok added
    rw [ih added, contains_addNode first, List.map_cons, List.mem_cons, or_assoc]

theorem contains_mergeAll (names : List String) (ps : List Property) (is : List Interface) :
    (c.mergeAll names ps is).contains name = true ↔ c.contains name = true := by
  induction names generalizing c with
  | nil => exact Iff.rfl
  | cons first rest ih =>
    have keeps : ∀ t : NodeType, (t.mergeMembers ps is).name = t.name := fun t =>
      (t.mergeMembers_grows ps is).name
    refine (ih (c := c.update first fun t => t.mergeMembers ps is)).trans ?_
    rw [contains_iff, contains_iff, update, names_updateFirst keeps]

/-- Members are added to types that are there, so the names stay. -/
theorem contains_foldlM_addMembers {es : List MemberAddition}
    (added : es.foldlM (fun c e => c.addMembers index e) c = .ok d) :
    d.contains name = true ↔ c.contains name = true := by
  induction es generalizing c with
  | nil =>
    cases added
    exact Iff.rfl
  | cons entry rest ih =>
    rw [List.foldlM_cons] at added
    obtain ⟨c', first, added⟩ := bind_eq_ok added
    obtain ⟨-, rfl⟩ := addMembers_eq_ok_iff.mp first
    rw [ih added, contains_mergeAll]

theorem contains_apply (applied : c.apply index m = .ok d) :
    d.contains name = true ↔ c.contains name = true ∨ name ∈ m.addedNodes.map (·.name) := by
  obtain ⟨c', added, applied⟩ := bind_eq_ok applied
  exact (contains_foldlM_addMembers applied).trans
    (contains_foldlM_addNode (c := c.describe m) added)

theorem contains_applyAll (applied : base.applyAll index ms = .ok c) :
    c.contains name = true ↔ name ∈ base.namesWith ms := by
  suffices h : c.contains name = true ↔
      base.contains name = true ∨ name ∈ (ms.flatMap (·.addedNodes)).map (·.name) by
    rw [h, contains_iff, namesWith, List.map_append, List.mem_append]
  induction ms generalizing base index with
  | nil =>
    cases applied
    simp
  | cons m rest ih =>
    unfold applyAll at applied
    split at applied
    · cases applied
    · rename_i c' first
      rw [ih applied, contains_apply first, List.flatMap_cons, List.map_append, List.mem_append,
        or_assoc]

/-! ## Where modifications fail -/

theorem addNode_eq_error {t : NodeType} (failed : c.addNode t = .error e) :
    ∃ name, e = .duplicateNodeType name := by
  unfold addNode at failed
  split at failed
  · cases failed
  · split at failed
    · cases failed
    · cases failed
      exact ⟨t.name, rfl⟩

theorem foldlM_addNode_eq_error {ts : List NodeType} (failed : ts.foldlM addNode c = .error e) :
    ∃ name, e = .duplicateNodeType name := by
  induction ts generalizing c with
  | nil => cases failed
  | cons t rest ih =>
    rw [List.foldlM_cons] at failed
    cases first : c.addNode t with
    | error e' =>
      rw [first] at failed
      cases failed
      exact addNode_eq_error first
    | ok c' =>
      rw [first] at failed
      exact ih failed

/-- Members are added one entry after the other until a name is not known. -/
theorem foldlM_addMembers_eq_error_iff {es : List MemberAddition}
    (names : ∀ name, c.contains name = true ↔ name ∈ known) :
    es.foldlM (fun c e => c.addMembers index e) c = .error e ↔
      ∃ name, (es.flatMap (·.names)).find? (fun name => decide (name ∉ known)) = some name ∧
        e = .unknownNodeType name index := by
  induction es generalizing c with
  | nil =>
    refine iff_of_false (by rintro ⟨⟩) ?_
    rintro ⟨name, found, -⟩
    cases found
  | cons entry rest ih =>
    have unknown : (fun name => !c.contains name) = fun name => decide (name ∉ known) := by
      funext name
      rw [Bool.eq_iff_iff, Bool.not_eq_true', ← Bool.not_eq_true, names]
      exact decide_eq_true_iff.symm
    rw [List.foldlM_cons, List.flatMap_cons, List.find?_append]
    cases missing : entry.names.find? fun name => decide (name ∉ known) with
    | some name =>
      have failed : c.addMembers index entry = .error (.unknownNodeType name index) := by
        rw [addMembers, unknown, missing]
      rw [failed]
      constructor
      · rintro ⟨⟩
        exact ⟨name, rfl, rfl⟩
      · rintro ⟨_, ⟨⟩, rfl⟩
        rfl
    | none =>
      have there : ∀ name ∈ entry.names, c.contains name = true := fun name named => by
        rw [names]
        simpa using List.find?_eq_none.mp missing name named
      rw [addMembers_eq_ok_iff.mpr ⟨there, rfl⟩, Option.none_or]
      exact ih fun name => (contains_mergeAll _ _ _).trans (names name)

theorem apply_typesOnly (c : Catalog) (index : Nat) (m : Modification) :
    c.apply index m.typesOnly = m.addedNodes.foldlM addNode (c.describe m) := by
  change (m.addedNodes.foldlM addNode (c.describe m) >>= fun c => .ok c) = _
  cases m.addedNodes.foldlM addNode (c.describe m) <;> rfl

/-- A modification fails where its types are added, or else with its first absent name. -/
theorem apply_eq_error_iff (names : ∀ name, c.contains name = true ↔ name ∈ known) :
    c.apply index m = .error e ↔ c.apply index m.typesOnly = .error e ∨
      (∃ d, c.apply index m.typesOnly = .ok d) ∧
        ∃ name, m.firstAbsent? (known ++ m.addedNodes.map (·.name)) = some name ∧
          e = .unknownNodeType name index := by
  rw [apply_typesOnly]
  change (m.addedNodes.foldlM addNode (c.describe m) >>=
    m.additions.foldlM fun c e => c.addMembers index e) = _ ↔ _
  cases added : m.addedNodes.foldlM addNode (c.describe m) with
  | error e' =>
    refine ⟨.inl, fun h => h.elim id ?_⟩
    rintro ⟨⟨d, ⟨⟩⟩, -⟩
  | ok d =>
    have names' (name : String) :
        d.contains name = true ↔ name ∈ known ++ m.addedNodes.map (·.name) := by
      rw [contains_foldlM_addNode added, List.mem_append, ← names]
      exact Iff.rfl
    refine (foldlM_addMembers_eq_error_iff names').trans ?_
    constructor
    · exact fun absent => .inr ⟨⟨d, rfl⟩, absent⟩
    · rintro (⟨⟨⟩⟩ | ⟨-, absent⟩)
      exact absent

/-- A sequence of modifications fails with the first one that does. -/
theorem applyAll_eq_error_iff : c.applyAll index ms = .error e ↔
    ∃ i m d, ms[i]? = some m ∧ c.applyAll index (ms.take i) = .ok d ∧
      d.apply (index + i) m = .error e := by
  induction ms generalizing c index with
  | nil =>
    refine iff_of_false (by rintro ⟨⟩) ?_
    rintro ⟨i, m, d, found, -⟩
    cases found
  | cons m rest ih =>
    cases first : c.apply index m with
    | error e' =>
      rw [applyAll, first]
      constructor
      · rintro ⟨⟩
        exact ⟨0, m, c, rfl, rfl, first⟩
      · rintro ⟨i, m', d, found, applied, failed⟩
        cases i with
        | zero =>
          cases found
          cases applied
          exact first.symm.trans failed
        | succ i =>
          rw [List.take_succ_cons, applyAll, first] at applied
          cases applied
    | ok c' =>
      rw [applyAll, first]
      refine (ih (c := c')).trans ?_
      constructor
      · rintro ⟨i, m', d, found, applied, failed⟩
        refine ⟨i + 1, m', d, found, ?_, ?_⟩
        · rw [List.take_succ_cons, applyAll, first]
          exact applied
        · rwa [Nat.add_comm i, ← Nat.add_assoc]
      · rintro ⟨i, m', d, found, applied, failed⟩
        cases i with
        | zero =>
          cases found
          cases applied
          cases first.symm.trans failed
        | succ i =>
          rw [List.take_succ_cons, applyAll, first] at applied
          refine ⟨i, m', d, found, applied, ?_⟩
          rwa [Nat.add_right_comm]

theorem length_take_of_found {i : Nat} (found : ms[i]? = some m) : (ms.take i).length = i :=
  List.length_take_of_le (Nat.le_of_lt (List.getElem?_eq_some_iff.mp found).1)

theorem applyAll_concat (base : Catalog) (ms : List Modification) (m : Modification) :
    base.applyAll 0 (ms ++ [m]) = (base.applyAll 0 ms).bind fun c => c.apply ms.length m := by
  rw [applyAll_append]
  cases base.applyAll 0 ms with
  | error e => rfl
  | ok c =>
    change c.applyAll (0 + ms.length) [m] = c.apply ms.length m
    rw [applyAll, Nat.zero_add]
    cases c.apply ms.length m <;> rfl

theorem namesWith_take_succ {i : Nat} (found : ms[i]? = some m) : base.namesWith (ms.take (i + 1)) =
    base.namesWith (ms.take i) ++ m.addedNodes.map (·.name) := by
  rw [List.take_add_one, found, namesWith, namesWith]
  simp

/-- Where all modifications before one and the types that it adds are applied, it fails with its
first name that is absent. -/
theorem applyAll_eq_unknown_iff {i : Nat} :
    base.applyAll 0 ms = .error (.unknownNodeType name i) ↔
      ∃ m, ms[i]? = some m ∧ (∃ c, base.applyAll 0 (ms.take i ++ [m.typesOnly]) = .ok c) ∧
        m.firstAbsent? (base.namesWith (ms.take (i + 1))) = some name := by
  rw [applyAll_eq_error_iff]
  constructor
  · rintro ⟨j, m, d, found, applied, failed⟩
    rw [apply_eq_error_iff fun _ => contains_applyAll applied, ← namesWith_take_succ found,
      Nat.zero_add] at failed
    rcases failed with failed | ⟨⟨c, types⟩, name', absent, same⟩
    · rw [apply_typesOnly] at failed
      obtain ⟨_, other⟩ := foldlM_addNode_eq_error failed
      cases other
    · cases same
      refine ⟨m, found, ⟨c, ?_⟩, absent⟩
      rw [applyAll_concat, applied, length_take_of_found found]
      exact types
  · rintro ⟨m, found, ⟨c, types⟩, absent⟩
    rw [applyAll_concat, length_take_of_found found] at types
    cases applied : base.applyAll 0 (ms.take i) with
    | error e =>
      rw [applied] at types
      cases types
    | ok d =>
      rw [applied] at types
      refine ⟨i, m, d, found, applied, ?_⟩
      rw [apply_eq_error_iff fun _ => contains_applyAll applied, ← namesWith_take_succ found,
        Nat.zero_add]
      exact .inr ⟨⟨c, types⟩, name, absent, rfl⟩

theorem typesOnly_of_apply (applied : c.apply index m = .ok d) :
    ∃ d, c.apply index m.typesOnly = .ok d := by
  obtain ⟨c', added, -⟩ := bind_eq_ok applied
  exact ⟨c', (apply_typesOnly c index m).trans added⟩

/-- Where all modifications are applied, so are those before one and the types that it adds. -/
theorem typesOnly_of_applyAll {i : Nat} (applied : base.applyAll 0 ms = .ok c)
    (found : ms[i]? = some m) : ∃ d, base.applyAll 0 (ms.take i ++ [m.typesOnly]) = .ok d := by
  have length := length_take_of_found found
  obtain ⟨small, rfl⟩ := List.getElem?_eq_some_iff.mp found
  rw [← List.take_append_drop i ms, ← List.getElem_cons_drop small, applyAll_append, length] at applied
  obtain ⟨d, before, applied⟩ := bind_eq_ok applied
  rw [Nat.zero_add, applyAll] at applied
  split at applied
  · cases applied
  · rename_i d' here
    obtain ⟨d'', types⟩ := typesOnly_of_apply here
    exact ⟨d'', by rw [applyAll_concat, before, length]; exact types⟩

/-- Modifications that are applied name no absent types. -/
theorem firstAbsent?_of_applyAll {i : Nat} (applied : base.applyAll 0 ms = .ok c)
    (found : ms[i]? = some m) : m.firstAbsent? (base.namesWith (ms.take (i + 1))) = none := by
  cases absent : m.firstAbsent? (base.namesWith (ms.take (i + 1))) with
  | none => rfl
  | some name =>
    have failed := applyAll_eq_unknown_iff.mpr
      ⟨m, found, typesOnly_of_applyAll applied found, absent⟩
    cases applied.symm.trans failed

/-- The modifications before one, and the types that it adds, are applied if they name no absent
type and add none that is there already. -/
theorem exists_applyAll_typesOnly {i : Nat} (found : ms[i]? = some m)
    (known : ∀ j < i, ∀ m', ms[j]? = some m' →
      m'.firstAbsent? (base.namesWith (ms.take (j + 1))) = none)
    (noDuplicate : ∀ name, base.applyAll 0 (ms.take i ++ [m.typesOnly]) ≠
      .error (.duplicateNodeType name)) :
    ∃ c, base.applyAll 0 (ms.take i ++ [m.typesOnly]) = .ok c := by
  have small : i < ms.length := (List.getElem?_eq_some_iff.mp found).1
  have length := length_take_of_found found
  cases applied : base.applyAll 0 (ms.take i ++ [m.typesOnly]) with
  | ok c => exact ⟨c, rfl⟩
  | error e =>
    obtain ⟨j, m', d, found', before, failed⟩ := applyAll_eq_error_iff.mp applied
    rw [apply_eq_error_iff fun _ => contains_applyAll before] at failed
    rcases failed with failed | ⟨-, name, absent, -⟩
    · rw [apply_typesOnly] at failed
      obtain ⟨name, rfl⟩ := foldlM_addNode_eq_error failed
      exact absurd applied (noDuplicate name)
    · rw [← namesWith_take_succ found'] at absent
      by_cases earlier : j < i
      · rw [List.getElem?_append_left (by omega), List.getElem?_take_of_lt earlier] at found'
        rw [List.take_append_of_le_length (by omega), List.take_take,
          Nat.min_eq_left (by omega)] at absent
        cases absent.symm.trans (known j earlier m' found')
      · rw [List.getElem?_append_right (by omega)] at found'
        obtain ⟨_, same⟩ := List.getElem?_eq_some_iff.mp found'
        rw [List.getElem_singleton] at same
        rw [← same] at absent
        cases absent

/-! ## Compositions -/

theorem checkNodes_ne_unknown {seen : List String} {ts : List NodeType} {i : Nat} :
    checkNodes seen ts ≠ .error (.unknownNodeType name i) := by
  induction ts generalizing seen with
  | nil => rintro ⟨⟩
  | cons t rest ih =>
    unfold checkNodes
    split
    · rintro ⟨⟩
    · split
      · rintro ⟨⟩
      · exact ih

/-- Neither the check of the old catalog nor the resolution of the new one finds absent types. -/
theorem compose_eq_unknown_iff {i : Nat} :
    base.compose ms = .error (.unknownNodeType name i) ↔
      base.check = .ok () ∧ base.applyAll 0 ms = .error (.unknownNodeType name i) := by
  rw [compose]
  cases checked : base.check with
  | error e =>
    refine iff_of_false ?_ (by rintro ⟨⟨⟩, -⟩)
    rintro ⟨⟩
    exact checkNodes_ne_unknown checked
  | ok _ =>
    cases applied : base.applyAll 0 ms with
    | error e => simp [bind, Except.bind]
    | ok c =>
      cases flat : c.flatten with
      | error e =>
        obtain ⟨round, rfl, -⟩ := resolveAll_error flat
        simp [bind, Except.bind, flat]
      | ok resolved => simp [bind, Except.bind, flat]

/-- Types that are absent are told exactly. Where a composition succeeds, each name in a
modification is that of a type of the catalog, or of one that this modification adds or one before
it. It fails for an absent type just if the catalog is well formed, the modifications before one
and the types that this one adds can be applied, and it names an absent type; and then it tells the
first such name in it, and its place. So of a well-formed catalog the first modification that names
an absent type ends the composition, unless by then a type is added that is there already and is
another one. -/
theorem compose_unknown_iff (base : Catalog) (ms : List Modification) :
    (∀ e, base.compose ms = .ok e → ∀ (i : Nat) m, ms[i]? = some m → ∀ entry ∈ m.additions,
      ∀ name ∈ entry.names, name ∈ base.namesWith (ms.take (i + 1))) ∧
    (∀ name i, base.compose ms = .error (.unknownNodeType name i) ↔
      base.check = .ok () ∧ ∃ m, ms[i]? = some m ∧
        (∃ c, base.applyAll 0 (ms.take i ++ [m.typesOnly]) = .ok c) ∧
        m.firstAbsent? (base.namesWith (ms.take (i + 1))) = some name) ∧
    ∀ (i : Nat) m, ms[i]? = some m → base.check = .ok () →
      (∀ name, base.applyAll 0 (ms.take i ++ [m.typesOnly]) ≠ .error (.duplicateNodeType name)) →
      (∀ j < i, ∀ m', ms[j]? = some m' → ∀ entry ∈ m'.additions, ∀ name ∈ entry.names,
        name ∈ base.namesWith (ms.take (j + 1))) →
      ∀ entry ∈ m.additions, ∀ name ∈ entry.names, name ∉ base.namesWith (ms.take (i + 1)) →
      ∃ first, m.firstAbsent? (base.namesWith (ms.take (i + 1))) = some first ∧
        base.compose ms = .error (.unknownNodeType first i) := by
  refine ⟨fun e composed i m found => ?_, fun name i => ?_, ?_⟩
  · exact Modification.firstAbsent?_eq_none_iff.mp
      (firstAbsent?_of_applyAll (compose_eq_ok_iff.mp composed).2.1 found)
  · rw [compose_eq_unknown_iff, applyAll_eq_unknown_iff]
  · intro i m found checked noDuplicate known entry mem name named absent
    have types := exists_applyAll_typesOnly found (fun j earlier m' found' =>
      Modification.firstAbsent?_eq_none_iff.mpr (known j earlier m' found')) noDuplicate
    cases first : m.firstAbsent? (base.namesWith (ms.take (i + 1))) with
    | none => exact absurd (Modification.firstAbsent?_eq_none_iff.mp first entry mem name named) absent
    | some first' =>
      exact ⟨first', rfl, compose_eq_unknown_iff.mpr
        ⟨checked, applyAll_eq_unknown_iff.mpr ⟨m, found, types, first⟩⟩⟩

/-- Members for a lamp, which is added, and for two types that are absent. -/
def ghostModification : Modification where
  metadata := .empty
  addedNodes := []
  additions := [⟨["Lamp", "LED"], [], []⟩, ⟨["LED", "Ghost", "Siren"], [], []⟩, ⟨["Ghoul"], [], []⟩]

theorem compose_unknown_iff_ghost :
    lampCatalog.compose [lampModification, ghostModification, lampModification] =
        .error (.unknownNodeType "Ghost" 1) ∧
      ∀ e, lampCatalog.compose [lampModification, versionModification] = .ok e →
        ∀ name ∈ ["LED", "Lamp"], name ∈ lampCatalog.namesWith [lampModification] := by
  have checked : lampCatalog.check = .ok () := by decide
  have types : (lampCatalog.applyAll 0
      ([lampModification] ++ [ghostModification.typesOnly])).toBool = true := by decide
  obtain ⟨-, -, aborts⟩ :=
    compose_unknown_iff lampCatalog [lampModification, ghostModification, lampModification]
  obtain ⟨known, -, -⟩ := compose_unknown_iff lampCatalog [lampModification, versionModification]
  refine ⟨?_, fun e composed => ?_⟩
  · obtain ⟨first, absent, failed⟩ := aborts 1 ghostModification rfl checked
      (fun name failed => by
        change lampCatalog.applyAll 0 ([lampModification] ++ [ghostModification.typesOnly]) = _
          at failed
        rw [failed] at types
        cases types)
      (fun j small m' found => by
        obtain rfl : j = 0 := by omega
        cases found
        decide)
      ⟨["LED", "Ghost", "Siren"], [], []⟩ (.tail _ (.head _)) "Ghost" (.tail _ (.head _)) (by decide)
    have ghost : ghostModification.firstAbsent?
        (lampCatalog.namesWith [lampModification, ghostModification]) = some "Ghost" := by decide
    cases absent.symm.trans ghost
    exact failed
  · exact known e composed 0 lampModification rfl _ (.head _)

end Catalog

end BoardDesign
