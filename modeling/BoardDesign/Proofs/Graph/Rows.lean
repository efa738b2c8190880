import BoardDesign.Graph.Validation
import BoardDesign.Proofs.Table
import Mathlib.Data.List.Induction

/-!
# The nodes of a design in rows

Validation finds out the types, the labels and the properties of the nodes one after the other. If
every type is known, what stands at one place of each row belongs to one node.

* `viewsFrom`: the nodes completed one by one;
* `views_ofNodes`: the rows come to the same if every type is known;
* `get?_firstPlaces`: the place of the first node with a label.
-/

namespace BoardDesign.Graph

open Design (Node)

variable {c : EffectiveCatalog} {nodes : List Node}

/-- The node at a place as the catalog completes it. -/
def viewOf (c : EffectiveCatalog) (index : Nat) (n : Node) (t : NodeType) : NodeView :=
  ⟨index, n, t, labelOf c n, resolvedProperties t n⟩

def viewsFrom (c : EffectiveCatalog) (index : Nat) : List Node → List NodeView
  | [] => []
  | n :: rest =>
    match typeOf? c n with
    | some t => viewOf c index n t :: viewsFrom c (index + 1) rest
    | none => viewsFrom c (index + 1) rest

/-! ## Rows -/

/-- A row without gaps is still in step with what it was made of. -/
theorem getElem?_filterMap_of_forall {α β : Type} {f : α → Option β} {xs : List α}
    (all : ∀ x ∈ xs, ∃ y, f x = some y) (i : Nat) : (xs.filterMap f)[i]? = xs[i]?.bind f := by
  induction xs generalizing i with
  | nil => rfl
  | cons x rest ih =>
    obtain ⟨y, found⟩ := all x (.head rest)
    rw [List.filterMap_cons_some found]
    cases i with
    | zero => exact found.symm
    | succ i => exact ih (fun x mem => all x (.tail _ mem)) i

section Typed

variable (typed : ∀ n ∈ nodes, ∃ t, typeOf? c n = some t)
include typed

theorem Rows.view?_ofNodes (i : Nat) :
    (ofNodes c nodes).view? nodes i = nodes[i]?.bind fun n => (typeOf? c n).map (viewOf c i n) := by
  have types : (ofNodes c nodes).types = nodes.filterMap (typeOf? c) := by
    rw [ofNodes, List.filterMap_map]
    rfl
  cases found : nodes[i]? with
  | none => simp [view?, found]
  | some n =>
    obtain ⟨t, known⟩ := typed n (List.mem_of_getElem? found)
    have type : (ofNodes c nodes).types[i]? = some t := by
      rw [types, getElem?_filterMap_of_forall typed, found]
      exact known
    have label : (ofNodes c nodes).labels[i]? = some (labelOf c n) := by simp [ofNodes, found]
    have properties : (ofNodes c nodes).properties[i]? = some (resolvedProperties t n) := by
      simp [ofNodes, found, propertiesOf, known]
    simp [view?, found, type, label, properties, known, viewOf]

theorem getElem?_viewsFrom (start i : Nat) :
    (viewsFrom c start nodes)[i]? =
      nodes[i]?.bind fun n => (typeOf? c n).map (viewOf c (start + i) n) := by
  induction nodes generalizing start i with
  | nil => simp [viewsFrom]
  | cons n rest ih =>
    obtain ⟨t, known⟩ := typed n (.head rest)
    simp only [viewsFrom, known]
    cases i with
    | zero => simp [known]
    | succ i =>
      simpa [Nat.add_assoc, Nat.add_comm 1] using
        ih (fun m mem => typed m (.tail n mem)) (start + 1) i

/-- The nodes read off their rows are the nodes completed one by one. -/
theorem views_ofNodes : (Rows.ofNodes c nodes).views nodes = viewsFrom c 0 nodes := by
  have there : ∀ i ∈ List.range nodes.length,
      ∃ v, (Rows.ofNodes c nodes).view? nodes i = some v := by
    intro i mem
    have found := List.getElem?_eq_getElem (List.mem_range.mp mem)
    obtain ⟨t, known⟩ := typed _ (List.mem_of_getElem? found)
    exact ⟨viewOf c i _ t, by rw [Rows.view?_ofNodes typed, found, Option.bind_some, known]; rfl⟩
  refine List.ext_getElem? fun i => ?_
  rw [Rows.views, getElem?_filterMap_of_forall there, getElem?_viewsFrom typed, Nat.zero_add]
  by_cases inside : i < nodes.length
  · rw [List.getElem?_range inside, Option.bind_some, Rows.view?_ofNodes typed]
  · rw [List.getElem?_eq_none (by simpa using inside),
      List.getElem?_eq_none (by simpa using inside)]
    rfl

end Typed

/-! ## Places of labels -/

theorem firstPlaces_concat (labels : List String) (label : String) :
    firstPlaces (labels ++ [label]) = (firstPlaces labels).insertNew label labels.length := by
  simp [firstPlaces, List.zipIdx_append]

theorem get?_firstPlaces (labels : List String) (label : String) :
    (firstPlaces labels).get? label = labels.findIdx? (· == label) := by
  induction labels using List.reverseRecOn with
  | nil => rfl
  | append_singleton before last ih =>
    rw [firstPlaces_concat, Table.get?_insertNew, List.findIdx?_append, ih]
    by_cases same : label = last
    · subst same
      rw [ih]
      cases before.findIdx? (· == label) <;> simp
    · cases before.findIdx? (· == label) <;> simp [same, Ne.symm same]

end BoardDesign.Graph
