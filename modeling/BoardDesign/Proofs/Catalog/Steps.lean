import BoardDesign.Proofs.Catalog.Absorption
import BoardDesign.Proofs.Catalog.Flattening

/-!
# Composition in steps

A composed catalog is a catalog to start from again.

* `apply_check`, `applyAll_check`: checked modifications keep a catalog well formed, so what they
  leave can be composed once more;
* `applyAll_later`: the place at which modifications begin shows in nothing but the place that an
  error tells;
* `Cyclic.mono`: what is added takes no extension away, so no later modification mends a cycle;
* `compose_append`: to compose with two lists of modifications in turn is to compose with both at
  once, in failure as in success.
-/

namespace BoardDesign.Catalog

variable {c d : Catalog} {index : Nat}

/-! ## Well-formed catalogs stay well formed -/

theorem nodup_foldl_pushNew {α : Type} {key : α → String} {xs : List α}
    (distinct : (xs.map key).Nodup) (ys : List α) :
    ((ys.foldl (pushNew key) xs).map key).Nodup := by
  induction ys generalizing xs with
  | nil => exact distinct
  | cons y rest ih =>
    refine ih ?_
    by_cases known : key y ∈ xs.map key
    · rwa [pushNew_of_mem known]
    · rw [pushNew_of_not_mem known, List.map_append]
      refine List.nodup_append.mpr ⟨distinct, by simp, ?_⟩
      rintro a mem b last rfl
      exact known (List.mem_singleton.mp last ▸ mem)

/-- A merge repeats nothing. -/
theorem mergeMembers_distinct {t : NodeType} (distinct : t.repeatedMember = none)
    (ps : List Property) (is : List Interface) :
    (t.mergeMembers ps is).repeatedMember = none := by
  obtain ⟨properties, interfaces⟩ := NodeType.repeatedMember_eq_none_iff.mp distinct
  rw [NodeType.mergeMembers_eq]
  exact NodeType.repeatedMember_eq_none_iff.mpr
    ⟨nodup_foldl_pushNew properties ps, nodup_foldl_pushNew interfaces is⟩

theorem names_updateFirst {name : String} {change : NodeType → NodeType}
    (keeps : ∀ t : NodeType, (change t).name = t.name) (nodes : List NodeType) :
    (updateFirst name change nodes).map (·.name) = nodes.map (·.name) := by
  induction nodes with
  | nil => rfl
  | cons t rest ih =>
    unfold updateFirst
    split
    · simp [keeps]
    · simp [ih]

theorem mem_updateFirst {name : String} {change : NodeType → NodeType} {nodes : List NodeType}
    {t : NodeType} (mem : t ∈ updateFirst name change nodes) :
    t ∈ nodes ∨ ∃ u ∈ nodes, t = change u := by
  induction nodes with
  | nil => exact .inl mem
  | cons u rest ih =>
    unfold updateFirst at mem
    split at mem
    · rcases List.mem_cons.mp mem with rfl | mem
      · exact .inr ⟨u, List.mem_cons_self, rfl⟩
      · exact .inl (List.mem_cons_of_mem _ mem)
    · rcases List.mem_cons.mp mem with rfl | mem
      · exact .inl List.mem_cons_self
      · rcases ih mem with mem | ⟨v, mem, e⟩
        · exact .inl (List.mem_cons_of_mem _ mem)
        · exact .inr ⟨v, List.mem_cons_of_mem _ mem, e⟩

theorem mergeAll_check (checked : c.check = .ok ()) (names : List String) (ps : List Property)
    (is : List Interface) : (c.mergeAll names ps is).check = .ok () := by
  induction names generalizing c with
  | nil => exact checked
  | cons name rest ih =>
    obtain ⟨members, distinct⟩ := check_eq_ok_iff.mp checked
    refine ih (check_eq_ok_iff.mpr ⟨fun t mem => ?_, ?_⟩)
    · rcases mem_updateFirst mem with old | ⟨u, old, rfl⟩
      · exact members t old
      · exact mergeMembers_distinct (members u old) ps is
    · exact (names_updateFirst (fun t => (t.mergeMembers_grows ps is).name) _).symm ▸ distinct

theorem foldlM_addMembers_check {es : List MemberAddition} (checked : c.check = .ok ())
    (h : es.foldlM (fun c e => c.addMembers index e) c = .ok d) : d.check = .ok () := by
  induction es generalizing c with
  | nil => cases h; exact checked
  | cons e rest ih =>
    rw [List.foldlM_cons] at h
    obtain ⟨c', first, h⟩ := bind_eq_ok h
    obtain ⟨_, rfl⟩ := addMembers_eq_ok_iff.mp first
    exact ih (mergeAll_check checked _ _ _) h

theorem addNode_check {t : NodeType} (checked : c.check = .ok ())
    (distinct : t.repeatedMember = none) (h : c.addNode t = .ok d) : d.check = .ok () := by
  unfold addNode at h
  split at h
  · rename_i absent
    cases h
    obtain ⟨members, names⟩ := check_eq_ok_iff.mp checked
    refine check_eq_ok_iff.mpr ⟨fun u mem => ?_, ?_⟩
    · rcases List.mem_append.mp mem with mem | mem
      · exact members u mem
      · exact List.mem_singleton.mp mem ▸ distinct
    · rw [List.map_append]
      refine List.nodup_append.mpr ⟨names, by simp, ?_⟩
      rintro name mem other last rfl
      obtain ⟨u, present, same⟩ := List.mem_map.mp mem
      have named : u.name = t.name := same.trans (by simpa using last)
      have found := node?_of_mem names present
      rw [named, absent] at found
      cases found
  · split at h
    · cases h
      exact checked
    · cases h

theorem foldlM_addNode_check {ts : List NodeType} (checked : c.check = .ok ())
    (distinct : ∀ t ∈ ts, t.repeatedMember = none) (h : ts.foldlM addNode c = .ok d) :
    d.check = .ok () := by
  induction ts generalizing c with
  | nil => cases h; exact checked
  | cons t rest ih =>
    rw [List.foldlM_cons] at h
    obtain ⟨c', first, h⟩ := bind_eq_ok h
    exact ih (addNode_check checked (distinct t List.mem_cons_self) first)
      (fun u mem => distinct u (List.mem_cons_of_mem _ mem)) h

theorem apply_check {m : Modification} {origin : String} (checked : c.check = .ok ())
    (sound : m.check origin = .ok ()) (h : c.apply index m = .ok d) : d.check = .ok () := by
  obtain ⟨c', added, h⟩ := bind_eq_ok h
  have nodes : c'.check = .ok () :=
    foldlM_addNode_check (c := c.describe m) checked (distinct_of_check sound) added
  exact foldlM_addMembers_check nodes h

/-- What checked modifications leave of a checked catalog is checked. -/
theorem applyAll_check {ms : List Modification} (checked : c.check = .ok ())
    (sound : ∀ m ∈ ms, ∃ origin, m.check origin = .ok ()) (h : c.applyAll index ms = .ok d) :
    d.check = .ok () := by
  induction ms generalizing c index with
  | nil => cases h; exact checked
  | cons m rest ih =>
    unfold applyAll at h
    split at h
    · cases h
    · rename_i c' first
      obtain ⟨origin, one⟩ := sound m List.mem_cons_self
      exact ih (apply_check checked one first) (fun n mem => sound n (List.mem_cons_of_mem _ mem)) h

/-! ## Places of modifications -/

/-- The error that the same modification causes some places later. -/
def Error.later (places : Nat) : Error → Error
  | .unknownNodeType name index => .unknownNodeType name (index + places)
  | e => e

theorem foldlM_mapError {α β ε : Type} {f g : β → α → Except ε β} {change : ε → ε}
    (step : ∀ b a, f b a = (g b a).mapError change) (b : β) (xs : List α) :
    xs.foldlM f b = (xs.foldlM g b).mapError change := by
  induction xs generalizing b with
  | nil => rfl
  | cons x rest ih =>
    rw [List.foldlM_cons, List.foldlM_cons, step]
    cases g b x with
    | error e => rfl
    | ok b' => exact ih b'

theorem addNode_later (places : Nat) (c : Catalog) (t : NodeType) :
    c.addNode t = (c.addNode t).mapError (Error.later places) := by
  unfold addNode
  split
  · rfl
  · split <;> rfl

theorem addMembers_later (index places : Nat) (c : Catalog) (e : MemberAddition) :
    c.addMembers (index + places) e = (c.addMembers index e).mapError (Error.later places) := by
  unfold addMembers
  split <;> rfl

theorem apply_later (c : Catalog) (index places : Nat) (m : Modification) :
    c.apply (index + places) m = (c.apply index m).mapError (Error.later places) := by
  have nodes := foldlM_mapError (addNode_later places) (c.describe m) m.addedNodes
  have members := fun c => foldlM_mapError (addMembers_later index places) c m.additions
  change (m.addedNodes.foldlM addNode (c.describe m) >>=
      m.additions.foldlM fun c e => c.addMembers (index + places) e)
    = (m.addedNodes.foldlM addNode (c.describe m) >>=
      m.additions.foldlM fun c e => c.addMembers index e).mapError (Error.later places)
  cases added : m.addedNodes.foldlM addNode (c.describe m) with
  | error e =>
    rw [added] at nodes
    exact nodes
  | ok c' => exact members c'

theorem applyAll_later (c : Catalog) (index places : Nat) (ms : List Modification) :
    c.applyAll (index + places) ms = (c.applyAll index ms).mapError (Error.later places) := by
  induction ms generalizing c index with
  | nil => rfl
  | cons m rest ih =>
    rw [applyAll, applyAll, apply_later]
    cases c.apply index m with
    | error e => rfl
    | ok c' =>
      change c'.applyAll (index + places + 1) rest = _
      rw [Nat.add_right_comm, ih]

/-- The faults of flattening have no place. -/
theorem flatten_later (places : Nat) (c : Catalog) :
    c.flatten.mapError (Error.later places) = c.flatten := by
  cases flat : c.flatten with
  | ok table => rfl
  | error e =>
    obtain ⟨round, rfl, _⟩ := resolveAll_error flat
    rfl

/-! ## Cycles stay -/

theorem Extends.mono {name parent : String} (h : c.Extends name parent) (grows : c.Grows d) :
    d.Extends name parent := by
  obtain ⟨⟨own, found, mem⟩, has⟩ := h
  obtain ⟨own', found', grown⟩ := grows.node? found
  have same : own'.extending = own.extending := by rw [grown.rest]
  exact ⟨⟨own', found', same ▸ mem⟩, grows.contains has⟩

theorem Cyclic.mono (h : c.Cyclic) (grows : c.Grows d) : d.Cyclic := by
  obtain ⟨name, round⟩ := h
  exact ⟨name, Relation.TransGen.mono (fun _ _ step => Extends.mono step grows) _ _ round⟩

/-- A catalog that grew from one that flattening refuses is refused as well. -/
theorem flatten_error_mono {e : Error} (h : c.flatten = .error e) (grows : c.Grows d) :
    ∃ e', d.flatten = .error e' := by
  obtain ⟨round, rfl, back⟩ := resolveAll_error h
  cases flat : d.flatten with
  | error e' => exact ⟨e', rfl⟩
  | ok table =>
    exact absurd ((cyclic_of_closes back).mono grows) (not_cyclic_of_flatten_ok flat)

/-! ## Composition -/

theorem compose_of_check {base : Catalog} (checked : base.check = .ok ())
    (ms : List Modification) :
    base.compose ms = (base.applyAll 0 ms).bind fun d => d.flatten.map fun t => ⟨d, t⟩ := by
  simp only [compose, checked, bind, Except.bind]
  cases base.applyAll 0 ms with
  | error e => rfl
  | ok d => cases d.flatten <;> rfl

/-- What was composed can be composed once more, with the same outcome as at once but for the
places that errors tell, and a composition that fails fails with whatever comes after. -/
theorem compose_append (base : Catalog) (a b : List Modification)
    (checked : ∀ m ∈ a, ∃ origin, m.check origin = .ok ()) :
    (∀ e, base.compose a = .ok e →
      base.compose (a ++ b) = (e.composed.compose b).mapError (Error.later a.length)) ∧
    ∀ e, base.compose a = .error e → ∃ e', base.compose (a ++ b) = .error e' := by
  refine ⟨fun e first => ?_, fun e first => ?_⟩
  · obtain ⟨sound, applied, -⟩ := compose_eq_ok_iff.mp first
    rw [compose_of_check sound, compose_of_check (applyAll_check sound checked applied),
      applyAll_append, applied, Except.bind, applyAll_later]
    cases e.composed.applyAll 0 b with
    | error e' => rfl
    | ok d =>
      change d.flatten.map _ = (d.flatten.map _).mapError _
      cases flat : d.flatten with
      | ok table => rfl
      | error e' =>
        have same := flatten_later a.length d
        rw [flat] at same
        exact congrArg Except.error (Except.error.inj same).symm
  · cases sound : base.check with
    | error e' => exact ⟨e', by rw [compose, sound]; rfl⟩
    | ok u =>
      rw [compose_of_check sound] at first ⊢
      rw [applyAll_append]
      cases applied : base.applyAll 0 a with
      | error e' => exact ⟨e', rfl⟩
      | ok d =>
        rw [applied] at first
        cases flat : d.flatten with
        | ok table =>
          rw [Except.bind, flat] at first
          cases first
        | error fault =>
          rw [Except.bind]
          cases more : d.applyAll (0 + a.length) b with
          | error e' => exact ⟨e', rfl⟩
          | ok d' =>
            obtain ⟨e', flat'⟩ := flatten_error_mono flat (applyAll_grows more).1
            exact ⟨e', by rw [Except.bind, flat']; rfl⟩

/-- A member for a siren, of which the catalog of lamps has no type. -/
def sirenModification : Modification where
  metadata := .empty
  addedNodes := []
  additions := [⟨["Siren"], [⟨"tone", .text, none, [], .empty⟩], []⟩]

theorem compose_append_siren :
    (∃ e, lampCatalog.compose [lampModification] = .ok e ∧
      lampCatalog.compose ([lampModification] ++ [versionModification])
        = e.composed.compose [versionModification] ∧
      e.composed.compose [sirenModification] = .error (.unknownNodeType "Siren" 0) ∧
      lampCatalog.compose ([lampModification] ++ [sirenModification])
        = .error (.unknownNodeType "Siren" 1)) ∧
    ∃ fault, lampCatalog.compose ([sirenModification] ++ [lampModification]) = .error fault := by
  have lamp : ∀ m ∈ [lampModification], ∃ origin, m.check origin = .ok () := fun m mem =>
    ⟨"", by revert m; decide⟩
  have siren : ∀ m ∈ [sirenModification], ∃ origin, m.check origin = .ok () := fun m mem =>
    ⟨"", by revert m; decide⟩
  have fails : lampCatalog.compose [sirenModification] = .error (.unknownNodeType "Siren" 0) := by
    decide
  have outcomes : (lampCatalog.compose [lampModification]).map (fun e =>
      ((e.composed.compose [versionModification]).toBool, e.composed.compose [sirenModification]))
      = .ok (true, .error (.unknownNodeType "Siren" 0)) := by decide
  refine ⟨?_, (compose_append lampCatalog _ _ siren).2 _ fails⟩
  cases first : lampCatalog.compose [lampModification] with
  | error fault =>
    rw [first] at outcomes
    cases outcomes
  | ok e =>
    rw [first] at outcomes
    obtain ⟨again, unknown⟩ := Prod.mk.inj (Except.ok.inj outcomes)
    refine ⟨e, rfl, ?_, unknown, ?_⟩
    · rw [(compose_append lampCatalog _ _ lamp).1 e first]
      cases version : e.composed.compose [versionModification] with
      | error fault =>
        rw [version] at again
        cases again
      | ok f => rfl
    · rw [(compose_append lampCatalog _ _ lamp).1 e first, unknown]
      rfl

end BoardDesign.Catalog
