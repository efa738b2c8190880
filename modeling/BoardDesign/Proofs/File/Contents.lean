import BoardDesign.Proofs.File.Guards
import Mathlib.Data.List.Nodup

/-!
# What lies below a location

* `Tree.view`: what a reader finds below a location, without regard to permissions;
* `Tree.Distinct`: no location is taken twice, which the changes of a tree keep;
* `mem_contents_iff`: the contents of a location are what is found below it;
* `map_entry_contents_eq_iff`: they are the same, and in the same order, just where a reader finds
  the same;
* `World.Reordered`: worlds that differ in the order of their nodes, which nobody sees.
-/

namespace BoardDesign.File

/-- The bytes of a file; a directory has none. -/
def Node.content? : Node → Option (List UInt8)
  | .file content _ => some content
  | .dir => none

namespace Tree

variable {t u : Tree} {l m source target : Location} {n : Node} {name : String}

/-- What a reader finds below a location. -/
def view (t : Tree) (l : Location) : Location → Option (Option (List UInt8)) := fun rest =>
  (t.find? (l ++ rest)).map Node.content?

/-! ## Each location once -/

/-- No location is taken twice. -/
def Distinct (t : Tree) : Prop := (t.nodes.map Prod.fst).Nodup

instance (t : Tree) : Decidable t.Distinct := inferInstanceAs (Decidable (List.Nodup _))

theorem Distinct.filter (h : t.Distinct) (keep : Location × Node → Bool) :
    Distinct ⟨t.nodes.filter keep⟩ :=
  (t.nodes.filter_sublist.map Prod.fst).nodup h

theorem Distinct.erase (h : t.Distinct) (l : Location) : (t.erase l).Distinct := h.filter _

theorem Distinct.eraseBelow (h : t.Distinct) (l : Location) : (t.eraseBelow l).Distinct := h.filter _

theorem Distinct.insert (h : t.Distinct) (l : Location) (n : Node) : (t.insert l n).Distinct := by
  refine List.nodup_cons.mpr ⟨fun mem => ?_, h.erase l⟩
  obtain ⟨e, mem, same⟩ := List.mem_map.mp mem
  exact (of_decide_eq_true (List.mem_filter.mp mem).2) same

theorem Distinct.below (h : t.Distinct) (l : Location) : ((t.below l).map Prod.fst).Nodup := by
  have whole : ((t.below l).map Prod.fst).map (l ++ ·) =
      (t.nodes.filter fun e => isBelow l e.1).map Prod.fst := by
    rw [Tree.below, List.map_map, List.map_map]
    refine List.map_congr_left fun e mem => ?_
    obtain ⟨rest, same⟩ := isBelow_iff.mp (List.mem_filter.mp mem).2
    simp [same]
  refine List.Nodup.of_map (l ++ ·) ?_
  rw [whole]
  exact h.filter _

theorem Distinct.move (h : t.Distinct) (source target : Location) :
    (t.move source target).Distinct := by
  unfold Distinct Tree.move
  rw [List.map_append, List.nodup_append']
  refine ⟨?_, (h.eraseBelow source).eraseBelow target, fun k moved stays => ?_⟩
  · rw [List.map_map]
    have cancel : Function.Injective (target ++ ·) := fun _ _ => List.append_cancel_left
    have front := (h.below source).map cancel
    rwa [List.map_map] at front
  · obtain ⟨e, mem, rfl⟩ := List.mem_map.mp moved
    obtain ⟨d, _, rfl⟩ := List.mem_map.mp mem
    obtain ⟨e, mem, same⟩ := List.mem_map.mp stays
    have outside := (List.mem_filter.mp mem).2
    rw [show e.1 = target ++ d.1 from same, isBelow_iff.mpr ⟨d.1, rfl⟩] at outside
    cases outside

theorem lookup_of_mem {nodes : List (Location × Node)} (distinct : (nodes.map Prod.fst).Nodup)
    (mem : (l, n) ∈ nodes) : lookup l nodes = some n := by
  induction nodes with
  | nil => cases mem
  | cons e rest ih =>
    obtain ⟨k, x⟩ := e
    obtain ⟨fresh, distinct⟩ := List.nodup_cons.mp distinct
    rcases List.mem_cons.mp mem with same | mem
    · cases same
      exact if_pos rfl
    · have apart : k ≠ l := fun same => fresh (same ▸ List.mem_map.mpr ⟨_, mem, rfl⟩)
      rw [lookup, if_neg apart, ih distinct mem]

theorem mem_nodes_iff (h : t.Distinct) (named : l ≠ []) :
    (l, n) ∈ t.nodes ↔ t.find? l = some n := by
  rw [find?_of_ne named]
  exact ⟨lookup_of_mem h, mem_of_lookup⟩

/-- The order of the nodes does not matter. -/
theorem find?_perm (h : t.Distinct) (same : u.nodes.Perm t.nodes) (l : Location) :
    u.find? l = t.find? l := by
  by_cases root : l = []
  · simp [root]
  have distinct : u.Distinct := (same.map Prod.fst).nodup_iff.mpr h
  ext n
  rw [← mem_nodes_iff distinct root, ← mem_nodes_iff h root, same.mem_iff]

/-! ## The contents of a location -/

theorem mem_below_iff (h : t.Distinct) {rest : Location} (proper : rest ≠ []) :
    (rest, n) ∈ t.below l ↔ t.find? (l ++ rest) = some n := by
  rw [← mem_nodes_iff h (by simp [proper]), below, List.mem_map]
  constructor
  · rintro ⟨⟨k, x⟩, mem, same⟩
    obtain ⟨mem, under⟩ := List.mem_filter.mp mem
    obtain ⟨rest', rfl⟩ := isBelow_iff.mp under
    simp only [List.drop_left, Prod.mk.injEq] at same
    rwa [← same.1, ← same.2]
  · intro mem
    exact ⟨(l ++ rest, n), List.mem_filter.mpr ⟨mem, isBelow_iff.mpr ⟨rest, rfl⟩⟩, by simp⟩

theorem mem_contents_iff (h : t.Distinct) {rest : Location} :
    (rest, n) ∈ t.contents l ↔ rest ≠ [] ∧ t.find? (l ++ rest) = some n := by
  rw [contents, List.mem_mergeSort, List.mem_filter, and_comm]
  by_cases root : rest = []
  · simp [root]
  · simp [root, mem_below_iff h root]

/-- An entry as a reader finds it. -/
def entry (e : Location × Node) : Location × Option (List UInt8) := (e.1, e.2.content?)

theorem mem_map_entry_contents_iff (h : t.Distinct) {rest : Location}
    {content : Option (List UInt8)} :
    (rest, content) ∈ (t.contents l).map entry ↔ rest ≠ [] ∧ t.view l rest = some content := by
  rw [List.mem_map, view, Option.map_eq_some_iff]
  constructor
  · rintro ⟨⟨k, n⟩, mem, same⟩
    obtain ⟨rfl, rfl⟩ := Prod.mk.inj same
    obtain ⟨proper, found⟩ := (mem_contents_iff h).mp mem
    exact ⟨proper, n, found, rfl⟩
  · rintro ⟨proper, n, found, rfl⟩
    exact ⟨(rest, n), (mem_contents_iff h).mpr ⟨proper, found⟩, rfl⟩

theorem atMost_trans {a b c : Location} (h : atMost a b = true) (h' : atMost b c = true) :
    atMost a c = true := by
  simp only [atMost, Bool.not_eq_true', decide_eq_false_iff_not] at *
  exact List.le_trans h h'

theorem atMost_total (a b : Location) : (atMost a b || atMost b a) = true := by
  by_cases before : b < a
  · have notAfter : ¬ a < b := fun after => List.lt_irrefl a (List.lt_trans after before)
    simp only [atMost, notAfter, decide_false, Bool.not_false, Bool.or_true]
  · simp only [atMost, before, decide_false, Bool.not_false, Bool.true_or]

theorem atMost_antisymm {a b : Location} (h : atMost a b = true) (h' : atMost b a = true) :
    a = b := by
  simp only [atMost, Bool.not_eq_true', decide_eq_false_iff_not] at *
  exact List.le_antisymm h h'

theorem nodup_contents (h : t.Distinct) (l : Location) :
    ((t.contents l).map Prod.fst).Nodup := by
  have sorted := (List.mergeSort_perm ((t.below l).filter fun e => !e.1.isEmpty)
    fun a b => atMost a.1 b.1).map Prod.fst
  exact sorted.nodup_iff.mpr ((List.filter_sublist.map Prod.fst).nodup (h.below l))

theorem pairwise_contents (t : Tree) (l : Location) :
    (t.contents l).Pairwise fun a b => atMost a.1 b.1 = true := by
  have trans (a b c : Location × Node) (h : atMost a.1 b.1 = true) (h' : atMost b.1 c.1 = true) :
      atMost a.1 c.1 = true := atMost_trans h h'
  exact List.pairwise_mergeSort trans (fun a b => atMost_total a.1 b.1) _

/-- Lists in the order of their locations, each of which occurs once, are the same if they have the
same members. -/
theorem eq_of_pairwise_atMost {α : Type} {xs ys : List (Location × α)}
    (distinct : (ys.map Prod.fst).Nodup) (sorted : xs.Pairwise fun a b => atMost a.1 b.1 = true)
    (sorted' : ys.Pairwise fun a b => atMost a.1 b.1 = true) (same : xs.Perm ys) : xs = ys :=
  same.eq_of_pairwise (fun _ _ mem mem' le ge =>
    List.inj_on_of_nodup_map distinct (same.mem_iff.mp mem) mem' (atMost_antisymm le ge))
    sorted sorted'

/-- The contents of two locations are the same, and in the same order, just where a reader finds
the same below them. -/
theorem map_entry_contents_eq_iff (h : t.Distinct) (h' : u.Distinct) (dir : t.find? l = some .dir)
    (dir' : u.find? m = some .dir) :
    (t.contents l).map entry = (u.contents m).map entry ↔ t.view l = u.view m := by
  constructor
  · intro same
    funext rest
    by_cases root : rest = []
    · simp [view, root, dir, dir']
    ext content
    have whole : (rest, content) ∈ (t.contents l).map entry ↔
        rest ≠ [] ∧ t.view l rest = some content := mem_map_entry_contents_iff h
    rw [same, mem_map_entry_contents_iff h'] at whole
    simpa [root] using whole.symm
  · intro same
    have firsts (t : Tree) (l : Location) :
        ((t.contents l).map entry).map Prod.fst = (t.contents l).map Prod.fst := by
      rw [List.map_map]
      rfl
    have sorted (t : Tree) (l : Location) :
        ((t.contents l).map entry).Pairwise fun a b => atMost a.1 b.1 = true :=
      List.pairwise_map.mpr (pairwise_contents t l)
    have distinct : (((t.contents l).map entry).map Prod.fst).Nodup :=
      firsts t l ▸ nodup_contents h l
    have distinct' : (((u.contents m).map entry).map Prod.fst).Nodup :=
      firsts u m ▸ nodup_contents h' m
    refine eq_of_pairwise_atMost distinct' (sorted t l) (sorted u m)
      ((List.perm_ext_iff_of_nodup distinct.of_map distinct'.of_map).mpr ?_)
    rintro ⟨rest, content⟩
    rw [mem_map_entry_contents_iff h, mem_map_entry_contents_iff h', same]

theorem view_eq_of_below (h : t.Distinct) (h' : u.Distinct) (dir : t.find? l = some .dir)
    (dir' : u.find? m = some .dir) (same : t.below l = u.below m) : t.view l = u.view m :=
  (map_entry_contents_eq_iff h h' dir dir').mp (by rw [contents, contents, same])

end Tree

end BoardDesign.File

/-! ## Worlds that differ in the order of their nodes -/

namespace BoardDesign.World

open File

variable {w w' : World}

/-- The files of both worlds are the same, whatever the order in which they are kept. -/
structure Reordered (w w' : World) : Prop where
  here : w'.here = w.here
  nodes : w'.files.nodes.Perm w.files.nodes

namespace Reordered

variable (same : w.Reordered w') (distinct : w.files.Distinct)
include same distinct

theorem find? (l : Location) : w'.files.find? l = w.files.find? l :=
  Tree.find?_perm distinct same.nodes l

theorem isDirAt (l : Location) : w'.isDirAt l = w.isDirAt l := by
  rw [World.isDirAt, World.isDirAt, same.find? distinct]

theorem walk (l : Location) (names : List String) : w'.walk l names = w.walk l names := by
  induction names generalizing l with
  | nil => rfl
  | cons name rest ih =>
    have first : w'.step l name = w.step l name := by
      simp only [World.step, same.isDirAt distinct, same.find? distinct]
    rw [World.walk, World.walk, first]
    cases w.step l name with
    | error e => rfl
    | ok m => exact ih m

theorem locate (path : String) : w'.locate path = w.locate path := by
  simp only [World.locate, World.origin, same.here, same.walk distinct, same.isDirAt distinct]

theorem nodeAt (path : String) : w'.nodeAt path = w.nodeAt path := by
  rw [World.nodeAt, World.nodeAt, same.locate distinct]
  exact congrArg (Except.map · _) (funext fun l => by rw [same.find? distinct])

theorem bytesAt (path : String) : w'.bytesAt path = w.bytesAt path := by
  rw [World.bytesAt, World.bytesAt, same.nodeAt distinct]

theorem contents (l : Location) : w'.files.contents l = w.files.contents l := by
  have members := ((same.nodes.filter fun e => Tree.isBelow l e.1).map fun e =>
    (e.1.drop l.length, e.2)).filter fun e => !e.1.isEmpty
  exact Tree.eq_of_pairwise_atMost (Tree.nodup_contents distinct l) (Tree.pairwise_contents _ l)
    (Tree.pairwise_contents _ l)
    ((List.mergeSort_perm _ _).trans (members.trans (List.mergeSort_perm _ _).symm))

end Reordered

end BoardDesign.World
