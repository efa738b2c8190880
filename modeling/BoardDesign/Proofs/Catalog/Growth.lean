import BoardDesign.Catalog.Composition
import Mathlib.Data.List.Basic
import Mathlib.Data.List.Forall2
import Mathlib.Data.List.Nodup

/-!
# Growth of node types and catalogs

Composition only ever adds members at the ends of types and types at the end of a catalog.

* `NodeType.Grows`: the second type is the first with members added at the ends. What the first
  one subsumes the second one does (`Grows.subsumes`), and a look-up that finds a member keeps
  finding it (`Grows.property?`, `Grows.interface?`);
* `mergeMembers_grows`, `mergeMembers_complete`, `mergeMembers_of_complete`: a merge grows a
  type, puts every member there, and changes nothing once every member is there;
* `Catalog.Grows`: every type that a look-up finds is found grown.
-/

namespace BoardDesign

/-! ## Values are like themselves -/

namespace Json

theorem same_float_self (x : Decimal.Binary) : x.same x = true := by simp [Decimal.Binary.same]

mutual

theorem same_self (a : Json) : a.same a = true :=
  match a with
  | .null | .bool _ | .int _ | .str _ => by simp [same]
  | .float x => by simpa only [same] using same_float_self x
  | .arr items => by simpa only [same] using sameList_self items
  | .obj fields => by simpa only [same] using sameFields_self fields
termination_by structural a

theorem sameList_self (items : List Json) : sameList items items = true :=
  match items with
  | [] => by simp only [sameList]
  | x :: rest => by simp only [sameList, same_self x, sameList_self rest, Bool.and_self]
termination_by structural items

theorem sameFields_self (fields : List (String × Json)) : sameFields fields fields = true :=
  match fields with
  | [] => by simp only [sameFields]
  | (k, x) :: rest => by
    simp only [sameFields, beq_self_eq_true, same_self x, sameFields_self rest, Bool.and_self]
termination_by structural fields

end

theorem sameOption_self (a : Option Json) : sameOption a a = true := by
  cases a with
  | none => rfl
  | some x => exact same_self x

end Json

theorem Table.same_self (t : Table Json) : t.same t = true := Json.sameFields_self t.toList

theorem Property.same_self (p : Property) : p.same p = true := by
  simp [same, Json.sameOption_self, Json.sameList_self, Table.same_self]

theorem Interface.same_self (i : Interface) : i.same i = true := by
  simp [same, Table.same_self]

/-! ## Names that occur once -/

theorem firstRepeated_eq_none_iff {names : List String} :
    firstRepeated names = none ↔ names.Nodup := by
  have go (seen : List String) (names : List String) :
      firstRepeated.go seen names = none ↔ (∀ name ∈ names, name ∉ seen) ∧ names.Nodup := by
    induction names generalizing seen with
    | nil => simp [firstRepeated.go]
    | cons name rest ih =>
      simp only [firstRepeated.go, List.mem_cons, forall_eq_or_imp, List.nodup_cons]
      by_cases h : name ∈ seen
      · simp [h]
      · simp only [h, if_false, ih, List.mem_cons, not_or, not_false_eq_true, true_and]
        constructor
        · rintro ⟨fresh, distinct⟩
          exact ⟨fun n hn => (fresh n hn).2, fun hm => (fresh name hm).1 rfl, distinct⟩
        · rintro ⟨fresh, absent, distinct⟩
          exact ⟨fun n hn => ⟨fun e => absent (e ▸ hn), fresh n hn⟩, distinct⟩
  simpa [firstRepeated] using go [] names

/-- Where no key occurs twice, looking for the key of a member finds the member. -/
theorem find?_key_self {β : Type} (key : β → String) {xs : List β}
    (distinct : (xs.map key).Nodup) {x : β} (hx : x ∈ xs) :
    xs.find? (fun y => key y == key x) = some x := by
  induction xs with
  | nil => cases hx
  | cons y rest ih =>
    simp only [List.map_cons, List.nodup_cons] at distinct
    rcases List.mem_cons.mp hx with rfl | hr
    · simp
    · have ne : key y ≠ key x := fun e => distinct.1 (e ▸ List.mem_map_of_mem hr)
      rw [List.find?_cons_of_neg (by simpa using ne)]
      exact ih distinct.2 hr

namespace NodeType

theorem repeatedMember_eq_none_iff {t : NodeType} :
    t.repeatedMember = none ↔
      (t.properties.map (·.name)).Nodup ∧ (t.interfaces.map (·.name)).Nodup := by
  simp [repeatedMember, firstRepeated_eq_none_iff]

/-- A type that declares nothing twice has all that it declares. -/
theorem subsumes_self {t : NodeType} (h : t.repeatedMember = none) : t.subsumes t = true := by
  obtain ⟨properties, interfaces⟩ := repeatedMember_eq_none_iff.mp h
  have hp : (t.properties.all fun p => (t.property? p.name).any (·.same p)) = true := by
    apply List.all_eq_true.mpr
    intro p mem
    simp [property?, find?_key_self (·.name) properties mem, Property.same_self]
  have hi : (t.interfaces.all fun i => (t.interface? i.name).any (·.same i)) = true := by
    apply List.all_eq_true.mpr
    intro i mem
    simp [interface?, find?_key_self (·.name) interfaces mem, Interface.same_self]
  simp only [subsumes, beq_self_eq_true, Table.same_self, Json.sameOption_self, hp, hi,
    Bool.and_self]

/-- `u` is `t` with members added at the ends. -/
structure Grows (t u : NodeType) : Prop where
  properties : t.properties <+: u.properties
  interfaces : t.interfaces <+: u.interfaces
  rest : u = { t with properties := u.properties, interfaces := u.interfaces }

namespace Grows

variable {t u v : NodeType}

theorem refl (t : NodeType) : t.Grows t := ⟨List.prefix_refl _, List.prefix_refl _, rfl⟩

theorem trans (h : t.Grows u) (h' : u.Grows v) : t.Grows v := by
  refine ⟨h.properties.trans h'.properties, h.interfaces.trans h'.interfaces, ?_⟩
  rw [h'.rest, h.rest]

theorem name (h : t.Grows u) : u.name = t.name := by rw [h.rest]

theorem property? (h : t.Grows u) {name : String} {p : Property}
    (found : t.property? name = some p) : u.property? name = some p := by
  obtain ⟨added, e⟩ := h.properties
  simp only [NodeType.property?] at found ⊢
  rw [← e, List.find?_append, found, Option.some_or]

theorem interface? (h : t.Grows u) {name : String} {i : Interface}
    (found : t.interface? name = some i) : u.interface? name = some i := by
  obtain ⟨added, e⟩ := h.interfaces
  simp only [NodeType.interface?] at found ⊢
  rw [← e, List.find?_append, found, Option.some_or]

theorem hasProperty (h : t.Grows u) {name : String} (has : t.hasProperty name = true) :
    u.hasProperty name = true := by
  obtain ⟨p, found⟩ := Option.isSome_iff_exists.mp has
  exact Option.isSome_iff_exists.mpr ⟨p, h.property? found⟩

theorem hasInterface (h : t.Grows u) {name : String} (has : t.hasInterface name = true) :
    u.hasInterface name = true := by
  obtain ⟨i, found⟩ := Option.isSome_iff_exists.mp has
  exact Option.isSome_iff_exists.mpr ⟨i, h.interface? found⟩

theorem subsumes (h : t.Grows u) {other : NodeType} (sub : t.subsumes other = true) :
    u.subsumes other = true := by
  simp only [NodeType.subsumes, Bool.and_eq_true, List.all_eq_true] at sub ⊢
  obtain ⟨⟨fixed, properties⟩, interfaces⟩ := sub
  refine ⟨⟨by rw [h.rest]; exact fixed, fun p mem => ?_⟩, fun i mem => ?_⟩
  · cases found : t.property? p.name with
    | none => simpa [found] using properties p mem
    | some q => simpa [found, h.property? found] using properties p mem
  · cases found : t.interface? i.name with
    | none => simpa [found] using interfaces i mem
    | some j => simpa [found, h.interface? found] using interfaces i mem

end Grows

/-! ## Merges -/

theorem mergeProperty_grows (t : NodeType) (p : Property) : t.Grows (t.mergeProperty p) := by
  unfold mergeProperty
  split
  · exact .refl t
  · exact ⟨List.prefix_append _ _, List.prefix_refl _, rfl⟩

theorem mergeInterface_grows (t : NodeType) (i : Interface) : t.Grows (t.mergeInterface i) := by
  unfold mergeInterface
  split
  · exact .refl t
  · exact ⟨List.prefix_refl _, List.prefix_append _ _, rfl⟩

theorem mergeProperty_has (t : NodeType) (p : Property) :
    (t.mergeProperty p).hasProperty p.name = true := by
  unfold mergeProperty
  split
  · assumption
  · simp [hasProperty, property?, List.find?_append]

theorem mergeInterface_has (t : NodeType) (i : Interface) :
    (t.mergeInterface i).hasInterface i.name = true := by
  unfold mergeInterface
  split
  · assumption
  · simp [hasInterface, interface?, List.find?_append]

theorem foldl_grows {β : Type} {merge : NodeType → β → NodeType}
    (grows : ∀ t x, Grows t (merge t x)) (t : NodeType) (xs : List β) :
    t.Grows (xs.foldl merge t) := by
  induction xs generalizing t with
  | nil => exact .refl t
  | cons x rest ih => exact (grows t x).trans (ih _)

theorem foldl_mergeProperty_has (t : NodeType) (ps : List Property) :
    ∀ p ∈ ps, (ps.foldl mergeProperty t).hasProperty p.name = true := by
  induction ps generalizing t with
  | nil => simp
  | cons q rest ih =>
    intro p mem
    rcases List.mem_cons.mp mem with rfl | mem
    · exact (foldl_grows mergeProperty_grows _ rest).hasProperty (mergeProperty_has t p)
    · exact ih _ p mem

theorem foldl_mergeInterface_has (t : NodeType) (is : List Interface) :
    ∀ i ∈ is, (is.foldl mergeInterface t).hasInterface i.name = true := by
  induction is generalizing t with
  | nil => simp
  | cons j rest ih =>
    intro i mem
    rcases List.mem_cons.mp mem with rfl | mem
    · exact (foldl_grows mergeInterface_grows _ rest).hasInterface (mergeInterface_has t i)
    · exact ih _ i mem

theorem mergeMembers_grows (t : NodeType) (ps : List Property) (is : List Interface) :
    t.Grows (t.mergeMembers ps is) :=
  (foldl_grows mergeProperty_grows t ps).trans (foldl_grows mergeInterface_grows _ is)

/-- Every one of some members is there, by name. -/
def Complete (t : NodeType) (ps : List Property) (is : List Interface) : Prop :=
  (∀ p ∈ ps, t.hasProperty p.name = true) ∧ ∀ i ∈ is, t.hasInterface i.name = true

theorem Grows.complete {t u : NodeType} (h : t.Grows u) {ps : List Property}
    {is : List Interface} (c : t.Complete ps is) : u.Complete ps is :=
  ⟨fun p mem => h.hasProperty (c.1 p mem), fun i mem => h.hasInterface (c.2 i mem)⟩

theorem mergeMembers_complete (t : NodeType) (ps : List Property) (is : List Interface) :
    (t.mergeMembers ps is).Complete ps is :=
  ⟨fun p mem => (foldl_grows mergeInterface_grows _ is).hasProperty
      (foldl_mergeProperty_has t ps p mem),
    foldl_mergeInterface_has _ is⟩

theorem foldl_of_fixed {β : Type} {merge : NodeType → β → NodeType} {t : NodeType} {xs : List β}
    (fixed : ∀ x ∈ xs, merge t x = t) : xs.foldl merge t = t := by
  induction xs with
  | nil => rfl
  | cons x rest ih =>
    rw [List.foldl_cons, fixed x List.mem_cons_self]
    exact ih fun y mem => fixed y (List.mem_cons_of_mem _ mem)

theorem mergeMembers_of_complete {t : NodeType} {ps : List Property} {is : List Interface}
    (h : t.Complete ps is) : t.mergeMembers ps is = t := by
  have properties : ps.foldl mergeProperty t = t :=
    foldl_of_fixed fun p mem => by simp [mergeProperty, h.1 p mem]
  have interfaces : is.foldl mergeInterface t = t :=
    foldl_of_fixed fun i mem => by simp [mergeInterface, h.2 i mem]
  rw [mergeMembers, properties, interfaces]

end NodeType

/-! ## Catalogs -/

namespace Catalog

variable {c d e : Catalog}

theorem bind_eq_ok {ε α β : Type} {x : Except ε α} {f : α → Except ε β} {b : β}
    (h : x >>= f = .ok b) : ∃ a, x = .ok a ∧ f a = .ok b := by
  cases x with
  | error e => cases h
  | ok a => exact ⟨a, rfl, h⟩

/-- Each type of `c` stands in its place in `d`, grown, and further types may follow. -/
def Grows (c d : Catalog) : Prop :=
  ∃ front added, d.nodes = front ++ added ∧ List.Forall₂ NodeType.Grows c.nodes front

theorem Grows.of_nodes_eq (h : d.nodes = c.nodes) : c.Grows d :=
  ⟨c.nodes, [], by simp [h], List.forall₂_same.mpr fun t _ => .refl t⟩

theorem Grows.refl (c : Catalog) : c.Grows c := .of_nodes_eq rfl

/-- What stands at the front of a grown front has grown from the front. -/
theorem forall₂_grows_front {xs front added ys : List NodeType}
    (h : List.Forall₂ NodeType.Grows xs front)
    (h' : List.Forall₂ NodeType.Grows (front ++ added) ys) :
    ∃ front' added', ys = front' ++ added' ∧ List.Forall₂ NodeType.Grows xs front' := by
  induction h generalizing ys with
  | nil => exact ⟨[], ys, rfl, .nil⟩
  | cons grows _ ih =>
    cases h' with
    | cons grows' rest =>
      obtain ⟨front', added', e, h⟩ := ih rest
      exact ⟨_ :: front', added', by rw [e, List.cons_append], .cons (grows.trans grows') h⟩

theorem Grows.trans (h : c.Grows d) (h' : d.Grows e) : c.Grows e := by
  obtain ⟨front, added, hd, hc⟩ := h
  obtain ⟨front', added', he, hd'⟩ := h'
  rw [hd] at hd'
  obtain ⟨front'', added'', e', hc'⟩ := forall₂_grows_front hc hd'
  exact ⟨front'', added'' ++ added', by rw [he, e', List.append_assoc], hc'⟩

/-- A type that is found is found grown. -/
theorem Grows.node? (h : c.Grows d) {name : String} {t : NodeType}
    (found : c.node? name = some t) : ∃ u, d.node? name = some u ∧ t.Grows u := by
  obtain ⟨front, added, hd, hc⟩ := h
  simp only [Catalog.node?, hd] at found ⊢
  clear hd
  generalize c.nodes = nodes at found hc
  induction hc with
  | nil => cases found
  | @cons a b _ _ grows _ ih =>
    by_cases same : a.name = name
    · rw [List.find?_cons_of_pos (by simpa using same)] at found
      cases found
      exact ⟨b, by rw [List.cons_append, List.find?_cons_of_pos (by simp [grows.name, same])],
        grows⟩
    · rw [List.find?_cons_of_neg (by simpa using same)] at found
      obtain ⟨u, hu, grown⟩ := ih found
      exact ⟨u, by
        rw [List.cons_append, List.find?_cons_of_neg (by simpa [grows.name] using same), hu],
        grown⟩

theorem Grows.contains (h : c.Grows d) {name : String} (has : c.contains name = true) :
    d.contains name = true := by
  obtain ⟨t, found⟩ := Option.isSome_iff_exists.mp has
  obtain ⟨u, found, _⟩ := h.node? found
  exact Option.isSome_iff_exists.mpr ⟨u, found⟩

theorem updateFirst_forall₂ {name : String} {change : NodeType → NodeType}
    (grows : ∀ t, NodeType.Grows t (change t)) (nodes : List NodeType) :
    List.Forall₂ NodeType.Grows nodes (updateFirst name change nodes) := by
  induction nodes with
  | nil => exact .nil
  | cons t rest ih =>
    unfold updateFirst
    split
    · exact .cons (grows t) (List.forall₂_same.mpr fun t _ => .refl t)
    · exact .cons (.refl t) ih

theorem update_grows (name : String) {change : NodeType → NodeType}
    (grows : ∀ t, NodeType.Grows t (change t)) (c : Catalog) : c.Grows (c.update name change) :=
  ⟨_, [], (List.append_nil _).symm, updateFirst_forall₂ grows c.nodes⟩

theorem node?_update {name : String} {change : NodeType → NodeType} {t : NodeType}
    (keeps : ∀ t : NodeType, (change t).name = t.name) (found : c.node? name = some t) :
    (c.update name change).node? name = some (change t) := by
  simp only [node?, update] at found ⊢
  generalize c.nodes = nodes at found
  induction nodes with
  | nil => cases found
  | cons u rest ih =>
    by_cases same : u.name = name
    · rw [List.find?_cons_of_pos (by simpa using same)] at found
      cases found
      simp [updateFirst, same, keeps]
    · rw [List.find?_cons_of_neg (by simpa using same)] at found
      simp [updateFirst, same, ih found]

/-- A change that does nothing to the type found does nothing to the catalog. -/
theorem update_of_fixed {name : String} {change : NodeType → NodeType} {t : NodeType}
    (found : c.node? name = some t) (fixed : change t = t) : c.update name change = c := by
  have nodes : updateFirst name change c.nodes = c.nodes := by
    simp only [node?] at found
    generalize c.nodes = nodes at found
    induction nodes with
    | nil => rfl
    | cons u rest ih =>
      by_cases same : u.name = name
      · rw [List.find?_cons_of_pos (by simpa using same)] at found
        cases found
        simp [updateFirst, same, fixed]
      · rw [List.find?_cons_of_neg (by simpa using same)] at found
        simp [updateFirst, same, ih found]
  rw [update, nodes]

end Catalog

end BoardDesign
