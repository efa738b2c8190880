import BoardDesign.Proofs.Catalog.Growth
import BoardDesign.Proofs.Table
import Mathlib.Data.List.Induction

/-!
# What a type has of the types that it inherits from

* `mergeMembers_eq`, `inherit_eq`: a merge keeps of each list what is new by name, in order;
* `inherit_assoc`: to inherit from a type that has inherited from a third one is to inherit from
  both in turn, so `inherit_foldl` takes a completed type apart into what it was completed with;
* `completes_foldl`: what a type that declares nothing twice has after inheriting from others in
  turn, said for each kind of member at once (`Completes`).
-/

namespace BoardDesign

section Firsts

variable {α : Type} {key : α → String}

/-- Of the members with one key the first one. -/
def firsts (key : α → String) (xs : List α) : List α := xs.eraseDupsBy fun a b => key a == key b

/-- A member put at the end unless there is one with its key. -/
def pushNew (key : α → String) (xs : List α) (y : α) : List α :=
  if (xs.find? fun x => key x == key y).isSome then xs else xs ++ [y]

theorem mem_keys_pushNew {xs : List α} {y : α} {k : String} :
    k ∈ (pushNew key xs y).map key ↔ k ∈ xs.map key ∨ k = key y := by
  unfold pushNew
  split
  · rename_i has
    have mem : key y ∈ xs.map key := by simpa using has
    exact ⟨.inl, fun h => h.elim id fun e => e ▸ mem⟩
  · simp [or_comm, eq_comm]

theorem pushNew_of_mem {xs : List α} {y : α} (h : key y ∈ xs.map key) : pushNew key xs y = xs := by
  have has : (xs.find? fun x => key x == key y).isSome = true := by simpa using h
  simp [pushNew, has]

theorem pushNew_of_not_mem {xs : List α} {y : α} (h : key y ∉ xs.map key) :
    pushNew key xs y = xs ++ [y] := by
  have lacks : ¬ (xs.find? fun x => key x == key y).isSome = true := by simpa using h
  rw [pushNew, if_neg lacks]

theorem mem_keys_foldl_pushNew {xs ys : List α} {k : String} :
    k ∈ (ys.foldl (pushNew key) xs).map key ↔ k ∈ xs.map key ∨ k ∈ ys.map key := by
  induction ys generalizing xs with
  | nil => simp
  | cons y rest ih => rw [List.foldl_cons, ih, mem_keys_pushNew, List.map_cons, List.mem_cons, or_assoc]

/-- New members of new members are new members. -/
theorem foldl_pushNew_assoc (xs ys zs : List α) :
    (zs.foldl (pushNew key) ys).foldl (pushNew key) xs
      = zs.foldl (pushNew key) (ys.foldl (pushNew key) xs) := by
  induction zs using List.reverseRecOn with
  | nil => rfl
  | append_singleton zs z ih =>
    simp only [List.foldl_append, List.foldl_cons, List.foldl_nil, ← ih]
    by_cases h : key z ∈ (zs.foldl (pushNew key) ys).map key
    · rw [pushNew_of_mem h, pushNew_of_mem (mem_keys_foldl_pushNew.mpr (.inr h))]
    · rw [pushNew_of_not_mem h, List.foldl_append]
      rfl

theorem foldl_pushNew (xs ys : List α) :
    ys.foldl (pushNew key) xs = xs ++ firsts key (ys.filter fun y => decide (key y ∉ xs.map key)) := by
  induction ys generalizing xs with
  | nil => simp [firsts]
  | cons y rest ih =>
    rw [List.foldl_cons, ih]
    by_cases h : key y ∈ xs.map key
    · rw [pushNew_of_mem h, List.filter_cons_of_neg (by simpa using h)]
    · rw [pushNew_of_not_mem h, List.filter_cons_of_pos (by simpa using h), firsts, firsts,
        List.eraseDupsBy_cons, List.filter_filter, List.append_assoc, List.singleton_append]
      congr 3
      apply List.filter_congr
      intro z _
      by_cases same : key z = key y
      · simp [same]
      · simp [same]

theorem foldl_pushNew_nil (xs : List α) : xs.foldl (pushNew key) [] = firsts key xs := by
  rw [foldl_pushNew]
  simp

theorem firsts_of_nodup {xs : List α} (h : (xs.map key).Nodup) : firsts key xs = xs := by
  rw [← foldl_pushNew_nil]
  induction xs using List.reverseRecOn with
  | nil => rfl
  | append_singleton xs x ih =>
    rw [List.map_append, List.nodup_append] at h
    rw [List.foldl_append, List.foldl_cons, List.foldl_nil, ih h.1]
    exact pushNew_of_not_mem fun mem => h.2.2 _ mem (key x) (by simp) rfl

theorem firsts_append_eq (xs ys : List α) :
    firsts key (xs ++ ys) = ys.foldl (pushNew key) (firsts key xs) := by
  rw [← foldl_pushNew_nil, List.foldl_append, foldl_pushNew_nil]

/-- New members added to distinct ones are the first ones of all. -/
theorem firsts_append {xs : List α} (h : (xs.map key).Nodup) (ys : List α) :
    firsts key (xs ++ ys) = ys.foldl (pushNew key) xs := by
  rw [firsts_append_eq, firsts_of_nodup h]

theorem mem_keys_firsts {xs : List α} {k : String} :
    k ∈ (firsts key xs).map key ↔ k ∈ xs.map key := by
  rw [← foldl_pushNew_nil, mem_keys_foldl_pushNew]
  simp

end Firsts

namespace NodeType

theorem mergeProperty_eq (t : NodeType) (p : Property) :
    t.mergeProperty p = { t with properties := pushNew (·.name) t.properties p } := by
  unfold mergeProperty pushNew hasProperty property?
  cases (t.properties.find? fun q => q.name == p.name).isSome <;> rfl

theorem mergeInterface_eq (t : NodeType) (i : Interface) :
    t.mergeInterface i = { t with interfaces := pushNew (·.name) t.interfaces i } := by
  unfold mergeInterface pushNew hasInterface interface?
  cases (t.interfaces.find? fun j => j.name == i.name).isSome <;> rfl

theorem mergeMembers_eq (t : NodeType) (ps : List Property) (is : List Interface) :
    t.mergeMembers ps is
      = { t with
          properties := ps.foldl (pushNew (·.name)) t.properties
          interfaces := is.foldl (pushNew (·.name)) t.interfaces } := by
  have properties (t : NodeType) : ps.foldl mergeProperty t
      = { t with properties := ps.foldl (pushNew (·.name)) t.properties } := by
    induction ps generalizing t with
    | nil => rfl
    | cons p rest ih => rw [List.foldl_cons, ih, mergeProperty_eq]; rfl
  have interfaces (t : NodeType) : is.foldl mergeInterface t
      = { t with interfaces := is.foldl (pushNew (·.name)) t.interfaces } := by
    induction is generalizing t with
    | nil => rfl
    | cons i rest ih => rw [List.foldl_cons, ih, mergeInterface_eq]; rfl
  rw [mergeMembers, properties, interfaces]

theorem inherit_eq (t parent : NodeType) :
    t.inherit parent
      = { t with
          properties := parent.properties.foldl (pushNew (·.name)) t.properties
          interfaces := parent.interfaces.foldl (pushNew (·.name)) t.interfaces
          category := t.category <|> parent.category
          urls := t.urls.fill parent.urls
          additionalData := t.additionalData <|> parent.additionalData } := by
  simp only [inherit, mergeMembers_eq]

theorem inherit_assoc (t u v : NodeType) : t.inherit (u.inherit v) = (t.inherit u).inherit v := by
  simp only [inherit_eq, foldl_pushNew_assoc, Table.fill_assoc, Option.orElse_eq_orElse,
    Option.orElse_eq_or, Option.or_assoc]

/-- To inherit from a completed type is to inherit from it and from all that completed it. -/
theorem inherit_foldl (t u : NodeType) (above : List NodeType) :
    t.inherit (above.foldl inherit u) = (u :: above).foldl inherit t := by
  induction above generalizing u with
  | nil => rfl
  | cons v rest ih => rw [List.foldl_cons, ih, List.foldl_cons, inherit_assoc]; rfl

/-- `t` is `own` completed with what a walk along extensions meets, `own` itself first. -/
structure Completes (own : NodeType) (walk : List NodeType) (t : NodeType) : Prop where
  properties : t.properties = firsts (·.name) (walk.flatMap (·.properties))
  interfaces : t.interfaces = firsts (·.name) (walk.flatMap (·.interfaces))
  category : t.category = walk.findSome? (·.category)
  additionalData : t.additionalData = walk.findSome? (·.additionalData)
  urls : ∀ key, t.urls.get? key = walk.findSome? (·.urls.get? key)
  rest : t.name = own.name ∧ t.isAbstract = own.isAbstract ∧ t.isCategory = own.isCategory ∧
    t.extending = own.extending ∧ t.extra = own.extra

/-- A type is determined by what it is completed with. -/
theorem Completes.unique {own t u : NodeType} {walk : List NodeType} (h : own.Completes walk t)
    (h' : own.Completes walk u) : t = u := by
  have urls : t.urls = u.urls := Table.ext fun key => (h.urls key).trans (h'.urls key).symm
  obtain ⟨name, isAbstract, isCategory, extending, extra⟩ := h.rest
  obtain ⟨name', isAbstract', isCategory', extending', extra'⟩ := h'.rest
  have properties := h.properties.trans h'.properties.symm
  have interfaces := h.interfaces.trans h'.interfaces.symm
  have category := h.category.trans h'.category.symm
  have additionalData := h.additionalData.trans h'.additionalData.symm
  cases t; cases u
  simp_all

theorem foldl_inherit_members (own : NodeType) (above : List NodeType) :
    (above.foldl inherit own).properties
        = (above.flatMap (·.properties)).foldl (pushNew (·.name)) own.properties ∧
      (above.foldl inherit own).interfaces
        = (above.flatMap (·.interfaces)).foldl (pushNew (·.name)) own.interfaces := by
  induction above generalizing own with
  | nil => exact ⟨rfl, rfl⟩
  | cons u rest ih =>
    rw [List.foldl_cons, (ih _).1, (ih _).2, inherit_eq]
    simp only [List.flatMap_cons, List.foldl_append, and_self]

theorem foldl_inherit_rest (own : NodeType) (above : List NodeType) :
    (above.foldl inherit own).category = (own :: above).findSome? (·.category) ∧
      (above.foldl inherit own).additionalData = (own :: above).findSome? (·.additionalData) ∧
      (∀ key, (above.foldl inherit own).urls.get? key
        = (own :: above).findSome? (·.urls.get? key)) ∧
      (above.foldl inherit own).name = own.name ∧
      (above.foldl inherit own).isAbstract = own.isAbstract ∧
      (above.foldl inherit own).isCategory = own.isCategory ∧
      (above.foldl inherit own).extending = own.extending ∧
      (above.foldl inherit own).extra = own.extra := by
  induction above generalizing own with
  | nil => simp
  | cons u rest ih =>
    obtain ⟨category, data, urls, others⟩ := ih (own.inherit u)
    rw [inherit_eq] at category data urls others
    rw [List.foldl_cons, inherit_eq]
    refine ⟨category.trans ?_, data.trans ?_, fun key => (urls key).trans ?_, others⟩
    · simp only [List.findSome?_cons]
      cases own.category <;> simp
    · simp only [List.findSome?_cons]
      cases own.additionalData <;> simp
    · simp only [List.findSome?_cons, Table.get?_fill]
      cases own.urls.get? key <;> simp

theorem completes_foldl {own : NodeType} (distinct : own.repeatedMember = none)
    (above : List NodeType) : own.Completes (own :: above) (above.foldl inherit own) := by
  obtain ⟨properties, interfaces⟩ := repeatedMember_eq_none_iff.mp distinct
  obtain ⟨category, data, urls, others⟩ := foldl_inherit_rest own above
  refine ⟨?_, ?_, category, data, urls, others⟩
  · rw [(foldl_inherit_members own above).1, List.flatMap_cons, firsts_append properties]
  · rw [(foldl_inherit_members own above).2, List.flatMap_cons, firsts_append interfaces]

end NodeType

end BoardDesign
