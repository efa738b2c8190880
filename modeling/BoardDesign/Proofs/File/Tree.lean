import BoardDesign.File.Tree
import Mathlib.Data.List.Basic

/-!
# Trees in which everything lies in a directory

* `find?_move`: what lies where after a move;
* `Tree.Closed`: whatever lies in a tree lies in a directory of it;
* `Closed.insert`, `Closed.erase` and `Closed.moveFile`: the changes of single files keep that.
-/

namespace BoardDesign.File.Tree

variable {t u : Tree} {l m source target : Location} {n : Node} {name : String}

theorem isBelow_iff : isBelow l m = true ↔ ∃ rest, m = l ++ rest := by
  rw [isBelow, List.isPrefixOf_iff_prefix]
  exact ⟨fun ⟨rest, h⟩ => ⟨rest, h.symm⟩, fun ⟨rest, h⟩ => ⟨rest, h.symm⟩⟩

theorem find?_of_ne (h : m ≠ []) : t.find? m = lookup m t.nodes := if_neg h

theorem lookup_append (xs ys : List (Location × Node)) :
    lookup l (xs ++ ys) = (lookup l xs <|> lookup l ys) := by
  induction xs with
  | nil => simp [lookup]
  | cons e rest ih =>
    obtain ⟨k, x⟩ := e
    by_cases h : k = l
    · simp [lookup, h]
    · simpa [lookup, h] using ih

/-- What is moved lies as it lay, under another location. -/
theorem lookup_moved (nodes : List (Location × Node)) :
    lookup m (((nodes.filter fun e => isBelow source e.1).map fun e =>
        (e.1.drop source.length, e.2)).map fun e => (target ++ e.1, e.2)) =
      if isBelow target m then lookup (source ++ m.drop target.length) nodes else none := by
  induction nodes with
  | nil => simp [lookup]
  | cons e rest ih =>
    obtain ⟨k, x⟩ := e
    by_cases below : isBelow source k = true
    · obtain ⟨s, rfl⟩ := isBelow_iff.mp below
      simp only [List.filter_cons, below, if_true, List.map_cons, List.drop_left, lookup, ih]
      by_cases here : target ++ s = m
      · subst here
        have onTarget : isBelow target (target ++ s) = true := isBelow_iff.mpr ⟨s, rfl⟩
        simp [onTarget]
      · by_cases onTarget : isBelow target m = true
        · obtain ⟨r, rfl⟩ := isBelow_iff.mp onTarget
          have apart : s ≠ r := fun same => here (same ▸ rfl)
          simp [apart, onTarget]
        · simp [here, onTarget]
    · have apart : k ≠ source ++ m.drop target.length := fun same =>
        below (isBelow_iff.mpr ⟨_, same⟩)
      simp only [List.filter_cons, below, lookup, apart, if_false]
      exact ih

theorem find?_move (named : source ≠ []) (h : m ≠ []) :
    (t.move source target).find? m =
      if isBelow target m then t.find? (source ++ m.drop target.length)
      else if isBelow source m then none else t.find? m := by
  have named' : source ++ m.drop target.length ≠ [] := by simp [named]
  have rest : lookup m ((t.eraseBelow source).eraseBelow target).nodes =
      if isBelow target m then none else if isBelow source m then none else t.find? m := by
    rw [← find?_of_ne h, find?_eraseBelow h, find?_eraseBelow h]
  rw [find?_of_ne h, move, lookup_append, below, lookup_moved, rest, find?_of_ne named']
  by_cases onTarget : isBelow target m = true <;> simp [onTarget]

/-- Whatever lies in the tree lies in a directory of it. -/
def Closed (t : Tree) : Prop :=
  ∀ l name, (t.find? (l ++ [name])).isSome → t.find? l = some .dir

namespace Closed

theorem congr (h : t.Closed) (same : ∀ l, u.find? l = t.find? l) : u.Closed := by
  intro l name found
  rw [same] at found ⊢
  exact h l name found

/-- What has something below it is a directory. -/
theorem dir_above (h : t.Closed) {rest : Location} (proper : rest ≠ [])
    (found : (t.find? (l ++ rest)).isSome) : t.find? l = some .dir := by
  induction rest generalizing l with
  | nil => exact absurd rfl proper
  | cons name rest ih =>
    by_cases last : rest = []
    · subst last
      exact h l name found
    · have next : t.find? (l ++ [name]) = some .dir := ih last (by simpa using found)
      exact h l name (by simp [next])

/-- Nothing lies below what is no directory. -/
theorem find?_below (h : t.Closed) (noDir : t.find? l ≠ some .dir) {rest : Location}
    (proper : rest ≠ []) : t.find? (l ++ rest) = none := by
  rw [← Option.not_isSome_iff_eq_none]
  exact fun found => noDir (h.dir_above proper found)

theorem insert (h : t.Closed) (dir : t.find? l = some .dir)
    (keeps : t.find? (l ++ [name]) = some .dir → n = .dir) : (t.insert (l ++ [name]) n).Closed := by
  intro m other found
  rw [find?_insert (by simp)] at found
  by_cases root : m = []
  · simp [root]
  rw [find?_insert root]
  by_cases new : m ++ [other] = l ++ [name]
  · obtain ⟨rfl, _⟩ := List.append_inj' new rfl
    have apart : m ≠ m ++ [name] := by simp
    rw [if_neg apart]
    exact dir
  · rw [if_neg new] at found
    have before := h m other found
    split
    · rename_i here
      rw [here] at before
      rw [keeps before]
    · exact before

theorem erase (h : t.Closed) (noDir : t.find? l ≠ some .dir) : (t.erase l).Closed := by
  intro m other found
  rw [find?_erase (by simp)] at found
  split at found
  · cases found
  · have before := h m other found
    by_cases root : m = []
    · simp [root]
    · have apart : m ≠ l := fun same => noDir (same ▸ before)
      rw [find?_erase root, if_neg apart, before]

section MoveFile

variable {content : List UInt8} {executable : Bool} (h : t.Closed)
  (file : t.find? source = some (.file content executable)) (noDir : t.find? target ≠ some .dir)
include h file noDir

/-- A moved file lies at its new place and nowhere else. -/
theorem find?_moveFile (apart : source ≠ target) (m : Location) :
    (t.move source target).find? m =
      ((t.erase source).insert target (.file content executable)).find? m := by
  have named : source ≠ [] := by
    rintro rfl
    cases file
  by_cases root : m = []
  · simp [root]
  rw [find?_move named root, find?_insert root, find?_erase root]
  by_cases onTarget : isBelow target m = true
  · obtain ⟨rest, rfl⟩ := isBelow_iff.mp onTarget
    rw [if_pos onTarget, List.drop_left]
    by_cases last : rest = []
    · simp [last, file]
    · have fileOnly : t.find? source ≠ some .dir := by simp [file]
      rw [h.find?_below fileOnly last, h.find?_below noDir last]
      simp [last]
  · have elsewhere : m ≠ target := fun same => onTarget (isBelow_iff.mpr ⟨[], by simp [same]⟩)
    rw [if_neg onTarget, if_neg elsewhere]
    by_cases onSource : isBelow source m = true
    · obtain ⟨rest, rfl⟩ := isBelow_iff.mp onSource
      rw [if_pos onSource]
      by_cases last : rest = []
      · simp [last]
      · have fileOnly : t.find? source ≠ some .dir := by simp [file]
        simp [h.find?_below fileOnly last]
    · have here : m ≠ source := fun same => onSource (isBelow_iff.mpr ⟨[], by simp [same]⟩)
      rw [if_neg onSource, if_neg here]

theorem moveFile (apart : source ≠ target) (parent : target = l ++ [name])
    (dir : t.find? l = some .dir) : (t.move source target).Closed := by
  have fileOnly : t.find? source ≠ some .dir := by simp [file]
  have kept : (t.erase source).find? l = some .dir := by
    by_cases root : l = []
    · simp [root]
    · have elsewhere : l ≠ source := fun same => fileOnly (same ▸ dir)
      rw [find?_erase root, if_neg elsewhere, dir]
  refine congr ?_ (find?_moveFile h file noDir apart)
  subst parent
  refine (h.erase fileOnly).insert kept fun here => ?_
  rw [find?_erase (by simp), if_neg (Ne.symm apart)] at here
  exact absurd here noDir

end MoveFile

end Closed

end BoardDesign.File.Tree
