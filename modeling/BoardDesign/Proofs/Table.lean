import BoardDesign.Table
import Mathlib.Data.List.Nodup

/-!
# Look-ups in tables made of other tables

A table is determined by its look-ups, so a law of `overlay` or `ofList` is a law of look-ups.

* `find?_toList_eq_some_iff`: a test finds the first entry that passes it, in the order of the
  names;
* `get?_overlay`, `get?_fill`: the entry of the table on top wins, that of the table below stays;
* `get?_overlayAll`: of several tables laid on one after the other, the last that has an entry;
* `overlayAll_twice`: laying the same tables on a second time changes nothing;
* `map_ofList`: entries may be changed before they are put into a table or after;
* `map_eq_of_map_eq`: lists whose members tell the same tell the same of whatever depends on it.
-/

namespace BoardDesign

variable {α : Type _}

/-! ## Lists of which something is told -/

section Lists

variable {β γ : Type _} {f : α → β} {xs ys : List α}

theorem map_eq_of_map_eq {f' : α → β} {g g' : α → γ}
    (h : ∀ x ∈ xs, ∀ y ∈ ys, f x = f' y → g x = g' y) (same : xs.map f = ys.map f') :
    xs.map g = ys.map g' := by
  induction xs generalizing ys with
  | nil =>
    cases ys with
    | nil => rfl
    | cons y ys => cases same
  | cons x xs ih =>
    cases ys with
    | nil => cases same
    | cons y ys =>
      obtain ⟨first, rest⟩ := List.cons.inj same
      rw [List.map_cons, List.map_cons, h x (.head _) y (.head _) first,
        ih (fun x mem y mem' => h x (.tail _ mem) y (.tail _ mem')) rest]

theorem filterMap_eq_of_map_eq {g : α → Option γ} (h : ∀ x y, f x = f y → g x = g y)
    (same : xs.map f = ys.map f) : xs.filterMap g = ys.filterMap g := by
  have images : xs.map g = ys.map g := map_eq_of_map_eq (fun x _ y _ => h x y) same
  have whole (zs : List α) : zs.filterMap g = (zs.map g).filterMap id := by
    rw [List.filterMap_map]
    rfl
  rw [whole, images, ← whole]

theorem map_filter_eq_of_map_eq {p : α → Bool} (h : ∀ x y, f x = f y → p x = p y)
    (same : xs.map f = ys.map f) : (xs.filter p).map f = (ys.filter p).map f := by
  have whole (zs : List α) :
      (zs.filter p).map f = zs.filterMap fun x => if p x then some (f x) else none := by
    rw [← List.filterMap_eq_map, List.filterMap_filter]
    rfl
  rw [whole, whole]
  exact filterMap_eq_of_map_eq (fun x y alike => by rw [h x y alike, alike]) same

theorem bind_eq_of_map_eq {x y : Option α} {g : α → Option γ} (h : ∀ a b, f a = f b → g a = g b)
    (same : x.map f = y.map f) : x.bind g = y.bind g := by
  cases x with
  | none =>
    rw [Option.map_none, eq_comm, Option.map_eq_none_iff] at same
    rw [same]
  | some a =>
    rw [Option.map_some, eq_comm, Option.map_eq_some_iff] at same
    obtain ⟨b, rfl, alike⟩ := same
    exact h a b alike.symm

end Lists

/-! ## Look-ups -/

theorem findEntry_append (name : String) (xs ys : List (String × α)) :
    findEntry name (xs ++ ys) = (findEntry name xs <|> findEntry name ys) := by
  induction xs with
  | nil => simp [findEntry]
  | cons e rest ih =>
    by_cases h : name = e.1
    · simp [findEntry, h]
    · simpa [findEntry, h] using ih

theorem findEntry_isSome_iff {name : String} {entries : List (String × α)} :
    (findEntry name entries).isSome ↔ name ∈ entries.map (·.1) := by
  induction entries with
  | nil => simp [findEntry]
  | cons e rest ih =>
    by_cases h : name = e.1
    · simp [findEntry, h]
    · simpa [findEntry, h] using ih

theorem findEntry_eq_none_iff {name : String} {entries : List (String × α)} :
    findEntry name entries = none ↔ name ∉ entries.map (·.1) := by
  rw [← findEntry_isSome_iff, Option.not_isSome_iff_eq_none]

theorem findEntry_eq_some_iff {name : String} {value : α} {entries : List (String × α)}
    (distinct : (entries.map (·.1)).Nodup) :
    findEntry name entries = some value ↔ (name, value) ∈ entries := by
  induction entries with
  | nil => simp [findEntry]
  | cons e rest ih =>
    obtain ⟨k, v⟩ := e
    obtain ⟨fresh, distinct⟩ := List.nodup_cons.mp distinct
    by_cases h : name = k
    · subst h
      have absent : (name, value) ∉ rest := fun mem =>
        fresh (List.mem_map.mpr ⟨(name, value), mem, rfl⟩)
      simp [findEntry, absent, eq_comm]
    · simp [findEntry, h, ih distinct]

/-- Where no name is repeated, the order does not show. -/
theorem findEntry_perm {entries entries' : List (String × α)} (perm : entries'.Perm entries)
    (distinct : (entries.map (·.1)).Nodup) (name : String) :
    findEntry name entries' = findEntry name entries := by
  have distinct' : (entries'.map (·.1)).Nodup := (perm.map _).nodup_iff.mpr distinct
  refine Option.ext fun x => ?_
  rw [findEntry_eq_some_iff distinct', findEntry_eq_some_iff distinct, perm.mem_iff]

namespace Table

theorem nodup_keys (t : Table α) : t.keys.Nodup :=
  t.sorted.imp fun {a b} (h : a < b) (e : a = b) => String.lt_irrefl b (e ▸ h)

theorem mem_keys_iff {t : Table α} {name : String} :
    name ∈ t.keys ↔ t.contains name = true :=
  findEntry_isSome_iff.symm

theorem nodup_toList (t : Table α) : t.toList.Nodup := List.Nodup.of_map Prod.fst t.nodup_keys

theorem mem_toList_iff {t : Table α} {name : String} {value : α} :
    (name, value) ∈ t.toList ↔ t.get? name = some value :=
  (findEntry_eq_some_iff t.nodup_keys).symm

/-- Of the entries that pass a test on their names the first one is found. -/
theorem find?_toList_eq_some_iff {t : Table α} {p : String → Bool} {name : String}
    {value : α} : (t.toList.find? fun e => p e.1) = some (name, value) ↔
      t.get? name = some value ∧ p name = true ∧
        ∀ other, t.contains other = true → p other = true → ¬ other < name := by
  rw [List.find?_eq_some_iff_append, ← mem_toList_iff]
  constructor
  · rintro ⟨passes, before, after, whole, fail⟩
    refine ⟨whole ▸ List.mem_append_right _ (.head _), passes, fun other there passes' less => ?_⟩
    obtain ⟨x, found⟩ := Option.isSome_iff_exists.mp there
    have mem := mem_toList_iff.mpr found
    have sorted := t.sorted
    rw [show t.entries = _ from whole, List.map_append, List.map_cons, List.pairwise_append,
      List.pairwise_cons] at sorted
    rw [whole] at mem
    rcases List.mem_append.mp mem with early | late
    · simpa [passes'] using fail _ early
    · rcases List.mem_cons.mp late with same | later
      · cases same
        exact String.lt_irrefl _ less
      · exact String.lt_irrefl _ (String.lt_trans less
          (sorted.2.1.1 other (List.mem_map_of_mem later)))
  · rintro ⟨mem, passes, least⟩
    obtain ⟨before, after, whole⟩ := List.append_of_mem mem
    refine ⟨passes, before, after, whole, fun e early => ?_⟩
    have sorted := t.sorted
    rw [show t.entries = _ from whole, List.map_append, List.map_cons,
      List.pairwise_append] at sorted
    have less := sorted.2.2 e.1 (List.mem_map_of_mem early) name (.head _)
    have there : t.contains e.1 = true := by
      refine Option.isSome_iff_exists.mpr ⟨e.2, mem_toList_iff.mp ?_⟩
      rw [whole]
      exact List.mem_append_left _ early
    cases passes' : p e.1 with
    | false => rfl
    | true => exact absurd less (least e.1 there passes')

theorem get?_map {β : Type _} (f : α → β) (t : Table α) (name : String) :
    (t.map f).get? name = (t.get? name).map f := by
  simp only [get?, map]
  induction t.entries with
  | nil => rfl
  | cons e rest ih =>
    by_cases h : name = e.1
    · simp [findEntry, h]
    · simpa [findEntry, h] using ih

section Map

variable {β : Type _} (f : α → β) (t : Table α)

omit t in
theorem map_eq_iff {t u : Table α} :
    t.map f = u.map f ↔
      (t.toList.map fun e => (e.1, f e.2)) = u.toList.map fun e => (e.1, f e.2) := by
  rw [map, map, mk.injEq]
  rfl

theorem map_insert (name : String) (value : α) :
    (t.insert name value).map f = (t.map f).insert name (f value) := by
  apply ext
  intro other
  simp only [get?_map, get?_insert]
  split <;> rfl

theorem map_insertNew (name : String) (value : α) :
    (t.insertNew name value).map f = (t.map f).insertNew name (f value) := by
  have there : (t.map f).contains name = t.contains name := by simp [contains, get?_map]
  rw [insertNew, insertNew, there]
  split
  · rfl
  · exact map_insert f t name value

theorem map_foldl_insertNew (entries : List (String × α)) :
    (entries.foldl (fun t e => t.insertNew e.1 e.2) t).map f =
      (entries.map fun e => (e.1, f e.2)).foldl (fun t e => t.insertNew e.1 e.2) (t.map f) := by
  induction entries generalizing t with
  | nil => rfl
  | cons e rest ih => rw [List.foldl_cons, ih, map_insertNew, List.map_cons, List.foldl_cons]

theorem map_ofList (entries : List (String × α)) :
    (ofList entries).map f = ofList (entries.map fun e => (e.1, f e.2)) := by
  have all (t : Table α) : (entries.foldl (fun t e => t.insert e.1 e.2) t).map f =
      (entries.map fun e => (e.1, f e.2)).foldl (fun t e => t.insert e.1 e.2) (t.map f) := by
    induction entries generalizing t with
    | nil => rfl
    | cons e rest ih => rw [List.foldl_cons, ih, map_insert, List.map_cons, List.foldl_cons]
  exact all empty

end Map

theorem mem_values_of_get? {t : Table α} {name : String} {value : α}
    (found : t.get? name = some value) : value ∈ t.values :=
  List.mem_map_of_mem (mem_toList_iff.mpr found)

/-- Entries inserted one after the other, no name twice: each look-up is of the one entry. -/
theorem get?_insertAll (t : Table α) (name : String) (entries : List (String × α))
    (distinct : (entries.map (·.1)).Nodup) :
    (entries.foldl (fun t e => t.insert e.1 e.2) t).get? name
      = (findEntry name entries <|> t.get? name) := by
  induction entries generalizing t with
  | nil => simp [findEntry]
  | cons e rest ih =>
    simp only [List.map_cons, List.nodup_cons] at distinct
    rw [List.foldl_cons, ih _ distinct.2, get?_insert]
    by_cases h : name = e.1
    · subst h
      have absent : findEntry e.1 rest = none := findEntry_eq_none_iff.mpr distinct.1
      simp [findEntry, absent]
    · simp [findEntry, h]

theorem get?_overlay (t u : Table α) (name : String) :
    (t.overlay u).get? name = (u.get? name <|> t.get? name) :=
  get?_insertAll t name u.entries u.nodup_keys

/-- Entries put in where there are none yet: the first of a name counts. -/
theorem get?_insertNewAll (t : Table α) (name : String) (entries : List (String × α)) :
    (entries.foldl (fun t e => t.insertNew e.1 e.2) t).get? name
      = (t.get? name <|> findEntry name entries) := by
  induction entries generalizing t with
  | nil => simp [findEntry]
  | cons e rest ih =>
    rw [List.foldl_cons, ih, get?_insertNew]
    by_cases h : name = e.1
    · subst h
      cases t.get? e.1 <;> simp [findEntry]
    · simp [findEntry, h]

theorem get?_fill (t u : Table α) (name : String) :
    (t.fill u).get? name = (t.get? name <|> u.get? name) :=
  get?_insertNewAll t name u.entries

theorem fill_assoc (t u v : Table α) : t.fill (u.fill v) = (t.fill u).fill v := by
  apply ext
  intro name
  simp only [get?_fill]
  cases t.get? name <;> simp

/-- Tables laid over a table, each over all before it. -/
def overlayAll (t : Table α) (us : List (Table α)) : Table α := us.foldl overlay t

@[simp] theorem overlayAll_nil (t : Table α) : t.overlayAll [] = t := rfl

@[simp] theorem overlayAll_cons (t u : Table α) (us : List (Table α)) :
    t.overlayAll (u :: us) = (t.overlay u).overlayAll us := rfl

theorem get?_overlayAll (t : Table α) (us : List (Table α)) (name : String) :
    (t.overlayAll us).get? name = (us.reverse.findSome? (·.get? name) <|> t.get? name) := by
  induction us generalizing t with
  | nil => simp
  | cons u us ih =>
    rw [overlayAll_cons, ih, get?_overlay, List.reverse_cons, List.findSome?_append]
    cases us.reverse.findSome? (·.get? name) <;> simp

theorem overlayAll_twice (t : Table α) (us : List (Table α)) :
    (t.overlayAll us).overlayAll us = t.overlayAll us := by
  apply ext
  intro name
  simp only [get?_overlayAll]
  cases us.reverse.findSome? (·.get? name) <;> simp

end Table

end BoardDesign
