import BoardDesign.Json.Value
import Mathlib.Data.List.Forall2

/-!
# The normal form of values

* `Lifts.rel_normal`: what holds between values as between their parts holds between a value and its
  normal form;
* `normal_normal`: a normal form is its own normal form;
* `normal_of_field?`, `normal_of_mem`: so is every field and every item of one;
* `Single`: no object of a value repeats a name, which a normal form never does (`single_normal`);
* `Tidied`: a value whose objects have been put into another order and rid of repeated names.
-/

namespace BoardDesign

theorem mem_insertEntry {α : Type _} {name : String} {value : α} {e : String × α}
    {entries : List (String × α)} (mem : e ∈ insertEntry name value entries) :
    e = (name, value) ∨ e ∈ entries := by
  induction entries with
  | nil => simpa [insertEntry] using mem
  | cons f rest ih =>
    simp only [insertEntry] at mem
    split at mem
    · exact (List.mem_cons.mp mem).imp_right (List.mem_cons_of_mem _)
    · split at mem
      · exact List.mem_cons.mp mem
      · rcases List.mem_cons.mp mem with rfl | mem
        · exact .inr (.head _)
        · exact (ih mem).imp_right (List.mem_cons_of_mem _)

theorem insertEntry_of_lt {α : Type _} {name : String} {value : α} {entries : List (String × α)}
    (h : ∀ e ∈ entries, e.1 < name) :
    insertEntry name value entries = entries ++ [(name, value)] := by
  induction entries with
  | nil => rfl
  | cons f rest ih =>
    have before := h f (.head _)
    have other : name ≠ f.1 := fun same => String.lt_irrefl _ (same ▸ before)
    have after : ¬ name < f.1 := fun lt => String.lt_irrefl _ (String.lt_trans before lt)
    rw [insertEntry, if_neg other, if_neg after, ih fun e mem => h e (.tail _ mem)]
    rfl

theorem mem_of_findEntry {α : Type _} {name : String} {value : α} {entries : List (String × α)}
    (found : findEntry name entries = some value) : (name, value) ∈ entries := by
  induction entries with
  | nil => cases found
  | cons e rest ih =>
    rw [findEntry] at found
    split at found
    · next same =>
      cases found
      exact same ▸ .head _
    · exact .tail _ (ih found)

namespace Json

variable {a b : Json} {name : String} {done fields : List (String × Json)}

theorem mem_normalFields {e : String × Json} (mem : e ∈ normalFields done fields) :
    e ∈ done ∨ ∃ f ∈ fields, e.2 = f.2.normal := by
  induction fields generalizing done with
  | nil => exact .inl mem
  | cons f rest ih =>
    rcases ih mem with inserted | ⟨g, mem, same⟩
    · exact (mem_insertEntry inserted).symm.imp_right fun same => ⟨f, .head _, by rw [same]⟩
    · exact .inr ⟨g, .tail _ mem, same⟩

theorem sorted_normalFields (sorted : (done.map (·.1)).Pairwise (· < ·)) :
    ((normalFields done fields).map (·.1)).Pairwise (· < ·) := by
  induction fields generalizing done with
  | nil => exact sorted
  | cons f rest ih => exact ih (sorted_insertEntry sorted)

/-- Sorted fields with normal values are put behind each other as they are. -/
theorem normalFields_of_sorted (sorted : ((done ++ fields).map (·.1)).Pairwise (· < ·))
    (normal : ∀ f ∈ fields, f.2.normal = f.2) : normalFields done fields = done ++ fields := by
  induction fields generalizing done with
  | nil => simp [normalFields]
  | cons f rest ih =>
    have before : ∀ e ∈ done, e.1 < f.1 := fun e mem => by
      rw [List.map_append, List.pairwise_append] at sorted
      exact sorted.2.2 _ (List.mem_map_of_mem mem) _ (.head _)
    have shift : done ++ [f] ++ rest = done ++ f :: rest := by simp
    rw [normalFields, normal f (.head _), insertEntry_of_lt before,
      ih (shift ▸ sorted) fun g mem => normal g (.tail _ mem), shift]

/-- Neither an array nor an object. -/
def Scalar (a : Json) : Prop :=
  match a with
  | .arr _ | .obj _ => False
  | _ => True

/-- What holds of scalars, of arrays item by item, and of an object and a sorted one each of whose
fields comes from a field with which it holds. -/
structure Lifts (r : Json → Json → Prop) : Prop where
  scalar : ∀ a, Scalar a → r a a
  arr : ∀ items items', List.Forall₂ r items items' → r (.arr items) (.arr items')
  obj : ∀ fields fields' : List (String × Json), (fields'.map (·.1)).Pairwise (· < ·) →
    (∀ e ∈ fields', ∃ f ∈ fields, r f.2 e.2) → r (.obj fields) (.obj fields')

section Lifts

variable {r : Json → Json → Prop}

mutual

/-- It holds between a value and its normal form. -/
theorem Lifts.rel_normal (lifts : Lifts r) (a : Json) : r a a.normal := by
  cases a with
  | null | bool _ | int _ | float _ | str _ => exact lifts.scalar _ trivial
  | arr items => exact lifts.arr _ _ (lifts.forall₂_normalList items)
  | obj fields =>
    refine lifts.obj _ _ (sorted_normalFields .nil) fun e mem => ?_
    obtain ⟨f, mem, is⟩ := (mem_normalFields mem).resolve_left List.not_mem_nil
    exact ⟨f, mem, is ▸ lifts.rel_normal_of_mem fields f mem⟩
termination_by structural a

theorem Lifts.forall₂_normalList (lifts : Lifts r) (items : List Json) :
    List.Forall₂ r items (normalList items) := by
  cases items with
  | nil => exact .nil
  | cons x rest => exact .cons (lifts.rel_normal x) (lifts.forall₂_normalList rest)
termination_by structural items

theorem Lifts.rel_normal_of_mem (lifts : Lifts r) (fields : List (String × Json)) :
    ∀ f ∈ fields, r f.2 f.2.normal := by
  cases fields with
  | nil => exact nofun
  | cons f rest =>
    refine List.forall_mem_cons.mpr ⟨?_, lifts.rel_normal_of_mem rest⟩
    obtain ⟨k, x⟩ := f
    exact lifts.rel_normal x
termination_by structural fields

end

end Lifts

theorem lifts_normal : Lifts fun _ b => b.normal = b where
  scalar a scalar := by
    cases a with
    | arr _ | obj _ => exact scalar.elim
    | _ => rfl
  arr items items' each := by
    refine congrArg Json.arr ?_
    induction each with
    | nil => rfl
    | cons first _ ih => rw [normalList, first, ih]
  obj fields fields' sorted each := by
    have values : ∀ e ∈ fields', e.2.normal = e.2 := fun e mem => (each e mem).elim fun _ h => h.2
    have whole : normalFields [] fields' = [] ++ fields' := normalFields_of_sorted sorted values
    exact congrArg Json.obj whole

/-- A normal form is its own normal form. -/
theorem normal_normal (a : Json) : a.normal.normal = a.normal := lifts_normal.rel_normal a

theorem normal_of_mem {items : List Json} (normal : normalList items = items) (mem : a ∈ items) :
    a.normal = a := by
  induction items with
  | nil => cases mem
  | cons x rest ih =>
    obtain ⟨first, others⟩ := List.cons.inj normal
    rcases List.mem_cons.mp mem with rfl | mem
    · exact first
    · exact ih others mem

theorem normal_of_field? (field : a.normal.field? name = some b) : b.normal = b := by
  cases a with
  | null | bool _ | int _ | float _ | str _ | arr _ => cases field
  | obj fields =>
    obtain ⟨f, -, is⟩ :=
      (mem_normalFields (mem_of_findEntry field)).resolve_left List.not_mem_nil
    change b = f.2.normal at is
    rw [is, normal_normal]

/-! ## Values without repeated names -/

mutual

/-- No object of the value repeats a name. -/
def Single (a : Json) : Prop :=
  match a with
  | .null | .bool _ | .int _ | .float _ | .str _ => True
  | .arr items => SingleItems items
  | .obj fields => (fields.map (·.1)).Nodup ∧ SingleFields fields
termination_by structural a

def SingleItems (items : List Json) : Prop :=
  match items with
  | [] => True
  | x :: rest => Single x ∧ SingleItems rest
termination_by structural items

def SingleFields (fields : List (String × Json)) : Prop :=
  match fields with
  | [] => True
  | (_, x) :: rest => Single x ∧ SingleFields rest
termination_by structural fields

end

theorem singleFields_iff : SingleFields fields ↔ ∀ f ∈ fields, f.2.Single := by
  induction fields with
  | nil => simp [SingleFields]
  | cons f rest ih => simp [SingleFields, ih]

theorem lifts_single : Lifts fun _ b => b.Single where
  scalar a scalar := by
    cases a with
    | arr _ | obj _ => exact scalar.elim
    | _ => trivial
  arr items items' each := by
    change SingleItems items'
    induction each with
    | nil => trivial
    | cons first _ ih => exact ⟨first, ih⟩
  obj fields fields' sorted each := by
    refine ⟨sorted.imp fun {a b} (less : a < b) (same : a = b) => String.lt_irrefl b (same ▸ less),
      singleFields_iff.mpr fun e mem => ?_⟩
    obtain ⟨f, -, single⟩ := each e mem
    exact single

theorem single_normal (a : Json) : a.normal.Single := lifts_single.rel_normal a

/-! ## Tidied values -/

/-- The second value is the first one with the fields of its objects in any order, and of each name
the last one only. -/
structure Tidied (a b : Json) : Prop where
  same : b.normal = a.normal
  single : b.Single

theorem tidied_normal (a : Json) : Tidied a a.normal := ⟨normal_normal a, single_normal a⟩

theorem Tidied.symm (h : Tidied a b) (single : a.Single) : Tidied b a := ⟨h.same.symm, single⟩

theorem Tidied.of_str {s : String} (h : Tidied (.str s) b) : b = .str s := by
  have same := h.same
  cases b <;> cases same
  rfl

theorem Tidied.of_bool {x : Bool} (h : Tidied (.bool x) b) : b = .bool x := by
  have same := h.same
  cases b <;> cases same
  rfl

theorem Tidied.of_int {n : Int} (h : Tidied (.int n) b) : b = .int n := by
  have same := h.same
  cases b <;> cases same
  rfl

theorem eq_null_of_normal (h : a.normal = .null) : a = .null := by
  cases a <;> cases h
  rfl

theorem Tidied.null_iff (h : Tidied a b) : b = .null ↔ a = .null := by
  refine ⟨?_, ?_⟩ <;> rintro rfl
  · exact eq_null_of_normal h.same.symm
  · exact eq_null_of_normal h.same

theorem forall₂_tidied {items items' : List Json} (same : normalList items' = normalList items)
    (single : SingleItems items') : List.Forall₂ Tidied items items' := by
  induction items generalizing items' with
  | nil =>
    cases items' with
    | nil => exact .nil
    | cons y rest => cases same
  | cons x rest ih =>
    cases items' with
    | nil => cases same
    | cons y rest' =>
      obtain ⟨first, others⟩ := List.cons.inj same
      exact .cons ⟨first, single.1⟩ (ih others single.2)

theorem Tidied.of_arr {items : List Json} (h : Tidied (.arr items) b) :
    ∃ items', b = .arr items' ∧ List.Forall₂ Tidied items items' := by
  have same := h.same
  have single := h.single
  cases b with
  | arr items' => exact ⟨items', rfl, forall₂_tidied (arr.inj same) single⟩
  | _ => cases same

theorem Tidied.of_obj (h : Tidied (.obj fields) b) : ∃ fields', b = .obj fields' := by
  have same := h.same
  cases b with
  | obj fields' => exact ⟨fields', rfl⟩
  | _ => cases same

end Json

end BoardDesign
