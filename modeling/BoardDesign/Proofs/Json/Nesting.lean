import BoardDesign.Proofs.Json.ReadBack
import BoardDesign.Proofs.Json.Record

/-!
# How deep records are nested

* `nesting_normal`, `lossless_normal`: a normal form is nested no deeper than the value, and its
  numbers are read back if those of the value are;
* `parse_normal`: so is the normal form as a whole, if the value is not nested too deep;
* `nesting_write_le`: a record is nested no deeper than the value that it has been read from, but
  for what its own fields take.
-/

namespace BoardDesign.Json

variable {items : List Json} {fields : List (String × Json)} {known : List String} {k : String}
  {x : Json} {n : Nat}

theorem nestingItems_le_iff : nestingItems items ≤ n ↔ ∀ x ∈ items, x.nesting ≤ n := by
  induction items with
  | nil => simp [nestingItems]
  | cons x rest ih => rw [nestingItems, Nat.max_le, ih, List.forall_mem_cons]

theorem nestingFields_le_iff : nestingFields fields ≤ n ↔ ∀ f ∈ fields, f.2.nesting ≤ n := by
  induction fields with
  | nil => simp [nestingFields]
  | cons f rest ih => rw [nestingFields, Nat.max_le, ih, List.forall_mem_cons]

theorem nesting_le_of_mem {f : String × Json} (mem : f ∈ fields) :
    f.2.nesting ≤ nestingFields fields := nestingFields_le_iff.mp (Nat.le_refl _) f mem

theorem losslessFields_iff : LosslessFields fields ↔ ∀ f ∈ fields, f.2.Lossless := by
  induction fields with
  | nil => simp [LosslessFields]
  | cons f rest ih => simp [LosslessFields, ih]

/-! ## Normal forms -/

theorem lifts_nesting : Lifts fun a b => b.nesting ≤ a.nesting where
  scalar a _ := Nat.le_refl _
  arr items items' each := by
    refine Nat.succ_le_succ ?_
    induction each with
    | nil => exact Nat.le_refl _
    | cons first _ ih =>
      rw [nestingItems, nestingItems]
      omega
  obj fields fields' _ each := by
    refine Nat.succ_le_succ (nestingFields_le_iff.mpr fun e mem => ?_)
    obtain ⟨f, mem, less⟩ := each e mem
    exact Nat.le_trans less (nesting_le_of_mem mem)

theorem nesting_normal (a : Json) : a.normal.nesting ≤ a.nesting := lifts_nesting.rel_normal a

theorem lifts_lossless : Lifts fun a b => a.Lossless → b.Lossless where
  scalar _ _ := id
  arr items items' each lossless := by
    change LosslessItems items at lossless
    change LosslessItems items'
    induction each with
    | nil => trivial
    | cons first _ ih => exact ⟨first lossless.1, ih lossless.2⟩
  obj fields fields' _ each lossless := by
    refine losslessFields_iff.mpr fun e mem => ?_
    obtain ⟨f, mem, holds⟩ := each e mem
    exact holds (losslessFields_iff.mp lossless f mem)

theorem lossless_normal {a : Json} (lossless : a.Lossless) : a.normal.Lossless :=
  lifts_lossless.rel_normal a lossless

/-- The normal form of a value is read back from its text. -/
theorem parse_normal {a : Json} (shallow : a.nesting < depthLimit) (lossless : a.Lossless) :
    parse a.normal.compact = some a.normal :=
  parse_compact ((fits_iff _ (by decide)).mpr
    ⟨Nat.lt_of_le_of_lt (nesting_normal a) shallow, lossless_normal lossless⟩)

/-! ## Records -/

theorem nesting_of_findEntry (found : findEntry k fields = some x) :
    x.nesting ≤ nestingFields fields := nesting_le_of_mem (mem_of_findEntry found)

theorem nesting_extra {f : String × Json} (mem : f ∈ (Fields.extra known fields).toList) :
    f.2.nesting ≤ nestingFields fields := by
  have found := Table.mem_toList_iff.mp mem
  have other : f.1 ∉ known := fun there => by
    rw [get?_extra there] at found
    cases found
  rw [get?_extra_of_not_mem other, field?_normal] at found
  obtain ⟨y, found, is⟩ := Option.map_eq_some_iff.mp found
  have there := List.mem_reverse.mp (mem_of_findEntry found)
  rw [← is]
  exact Nat.le_trans (nesting_normal y) (nesting_le_of_mem there)

/-- A record with what it knows and what it does not know of the fields that it has been read
from. -/
theorem nesting_write_le {value : String → Option Json} {depth : Nat}
    (each : ∀ k ∈ known, ∀ x, value k = some x → x.nesting ≤ max depth (nestingFields fields)) :
    (obj (Fields.write known value (Fields.extra known fields))).nesting ≤
      max (depth + 1) (obj fields).nesting := by
  have within : nestingFields (Fields.write known value (Fields.extra known fields)) ≤
      max depth (nestingFields fields) := by
    refine nestingFields_le_iff.mpr fun f mem => ?_
    rcases List.mem_append.mp mem with mem | mem
    · obtain ⟨k, there, mem⟩ := List.mem_flatMap.mp mem
      obtain ⟨x, is, rfl⟩ := Option.map_eq_some_iff.mp (Option.mem_toList.mp mem)
      exact each k there x is
    · exact Nat.le_trans (nesting_extra mem) (Nat.le_max_right _ _)
  rw [nesting, nesting]
  omega

/-- A value in a field that is null where it is left out. -/
theorem nesting_value_le (read : Fields.default fields k .null (fun v => some v.normal) = some x) :
    x.nesting ≤ nestingFields fields := by
  unfold Fields.default at read
  split at read
  · rename_i y found
    cases read
    exact Nat.le_trans (nesting_normal y) (nesting_of_findEntry found)
  · cases read
    exact Nat.zero_le _

section Parts

variable {α : Type} {f : Json → Option α} {write : α → Json} {depth : Nat}
  (each : ∀ b x, f b = some x → (write x).nesting ≤ max depth b.nesting)
include each

/-- A list of records in a field. -/
theorem nesting_list_le {xs : List α} (read : Fields.default fields k [] (listOf? f) = some xs) :
    (arr (xs.map write)).nesting ≤ max (depth + 1) (nestingFields fields) := by
  unfold Fields.default at read
  split at read
  · rename_i found
    obtain ⟨items, rfl, listed⟩ := listOf?_eq_some_iff.mp read
    have within : nestingItems items + 1 ≤ nestingFields fields := nesting_of_findEntry found
    have below : nestingItems (xs.map write) ≤ max depth (nestingItems items) := by
      refine nestingItems_le_iff.mpr fun y mem => ?_
      obtain ⟨x, own, rfl⟩ := List.mem_map.mp mem
      obtain ⟨b, there, holds⟩ := exists_of_mem_forall₂ listed own
      have item := nestingItems_le_iff.mp (Nat.le_refl _) b there
      have := each b x holds
      omega
    rw [nesting]
    omega
  · cases read
    exact Nat.le_trans (Nat.le_add_left 1 depth) (Nat.le_max_left _ _)

/-- A record in a field that may be left out. -/
theorem nesting_optional_le {o : Option α} (read : Fields.optional fields k f = some o) {x : α}
    (is : o = some x) : (write x).nesting ≤ max depth (nestingFields fields) := by
  unfold Fields.optional at read
  split at read
  · cases read
    cases is
  · cases read
    cases is
  · rename_i b _ found
    obtain ⟨y, holds, rfl⟩ := Option.map_eq_some_iff.mp read
    cases is
    have field := nesting_of_findEntry found
    have := each b x holds
    omega

end Parts

end BoardDesign.Json
