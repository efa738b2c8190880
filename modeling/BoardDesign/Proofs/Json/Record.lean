import BoardDesign.Json.Fields
import BoardDesign.Proofs.Json.Normal
import BoardDesign.Proofs.Table
import Mathlib.Data.List.Nodup

/-!
# Records that are written and read

* `Table.get?_ofList`, `field?_normal`: of several values for a name the last one counts;
* `get?_extra_of_not_mem`: the further fields of a record are those of its normal form;
* `Further`: further fields as they are after reading;
* `Fields.write`: the fields of a record as they are written, with `of?_write`, `findEntry_write`
  and `extra_write` for what is read from them;
* `Keeps`: what is read from a value is read from the value tidied, of a record field by field
  (`keeps_of_fields`); so it is from its normal form (`Keeps.stable`), and from any order of its
  fields (`Keeps.congr`).
-/

namespace BoardDesign

variable {α : Type} {name : String}

/-! ## The last value of a name -/

theorem Table.get?_insertAll' (t : Table α) (entries : List (String × α)) :
    (entries.foldl (fun t e => t.insert e.1 e.2) t).get? name =
      (findEntry name entries.reverse <|> t.get? name) := by
  induction entries generalizing t with
  | nil => rfl
  | cons e rest ih =>
    rw [List.foldl_cons, ih, get?_insert, List.reverse_cons, findEntry_append]
    by_cases same : name = e.1 <;> cases findEntry name rest.reverse <;> simp [findEntry, same]

theorem Table.get?_ofList (entries : List (String × α)) :
    (ofList entries).get? name = findEntry name entries.reverse := by
  rw [ofList, get?_insertAll']
  simp

theorem Table.ofList_toList (t : Table α) : ofList t.toList = t := by
  refine ext fun name => ?_
  have found := get?_insertAll empty name t.toList t.nodup_keys
  rw [ofList, found]
  change (t.get? name <|> none) = t.get? name
  simp

theorem findEntry_map {β : Type} (f : α → β) (entries : List (String × α)) :
    findEntry name (entries.map fun e => (e.1, f e.2)) = (findEntry name entries).map f := by
  induction entries with
  | nil => rfl
  | cons e rest ih =>
    by_cases same : name = e.1
    · simp [findEntry, same]
    · simpa [findEntry, same] using ih

theorem findEntry_filter (keep : String → Bool) (kept : keep name = true)
    (entries : List (String × α)) :
    findEntry name (entries.filter fun e => keep e.1) = findEntry name entries := by
  induction entries with
  | nil => rfl
  | cons e rest ih =>
    by_cases same : name = e.1
    · subst same
      simp [findEntry, kept]
    · rw [List.filter_cons]
      split <;> simpa [findEntry, same] using ih

/-- Where a name stands only once, its first value is its last one. -/
theorem findEntry_reverse {entries : List (String × α)}
    (once : (entries.filter fun e => e.1 == name).length ≤ 1) :
    findEntry name entries.reverse = findEntry name entries := by
  induction entries with
  | nil => rfl
  | cons e rest ih =>
    rw [List.reverse_cons, findEntry_append]
    by_cases same : name = e.1
    · subst same
      rw [List.filter_cons_of_pos (by simp), List.length_cons] at once
      have none : findEntry e.1 rest.reverse = none := by
        rw [findEntry_eq_none_iff, List.map_reverse, List.mem_reverse]
        intro mem
        obtain ⟨f, mem, same⟩ := List.mem_map.mp mem
        have there : f ∈ rest.filter fun f => f.1 == e.1 :=
          List.mem_filter.mpr ⟨mem, by simp [same]⟩
        have := List.length_pos_of_mem there
        omega
      simp [none, findEntry]
    · rw [List.filter_cons_of_neg (by simpa using fun h => same h.symm)] at once
      rw [ih once, findEntry, if_neg same]
      simp [findEntry, same]

theorem Table.eq_empty {t : Table α} (none : t.isEmpty = true) : t = .empty := by
  refine ext fun name => ?_
  rw [get?, List.isEmpty_iff.mp none]
  rfl

namespace Json

variable {known : List String} {fields : List (String × Json)} {v : Json}

theorem findEntry_normalFields (done fields : List (String × Json)) :
    findEntry name (normalFields done fields) =
      ((findEntry name fields.reverse).map normal <|> findEntry name done) := by
  induction fields generalizing done with
  | nil => rfl
  | cons f rest ih =>
    rw [normalFields, ih, findEntry_insertEntry, List.reverse_cons, findEntry_append]
    by_cases same : name = f.1 <;> cases findEntry name rest.reverse <;> simp [findEntry, same]

theorem field?_normal (fields : List (String × Json)) :
    (obj fields).normal.field? name = (findEntry name fields.reverse).map normal := by
  change findEntry name (normalFields [] fields) = _
  rw [findEntry_normalFields]
  simp [findEntry]

theorem of?_eq_some_iff {fields : List (String × Json)} :
    Fields.of? known v = some fields ↔
      v = .obj fields ∧ ∀ k ∈ known, (fields.filter fun f => f.1 == k).length ≤ 1 := by
  cases v with
  | obj fs =>
    simp only [Fields.of?, List.all_eq_true, decide_eq_true_eq, Option.ite_none_right_eq_some,
      Option.some.injEq, obj.injEq]
    exact ⟨fun ⟨once, same⟩ => ⟨same, same ▸ once⟩, fun ⟨same, once⟩ => ⟨same ▸ once, same⟩⟩
  | _ => simp [Fields.of?]

/-- The further fields of a record are those of its normal form that it does not know. -/
theorem get?_extra_of_not_mem (other : name ∉ known) (fields : List (String × Json)) :
    (Fields.extra known fields).get? name = (obj fields).normal.field? name := by
  have kept : (!known.contains name) = true := by simpa using other
  rw [Fields.extra, Table.get?_ofList, ← List.map_reverse, ← List.filter_reverse, findEntry_map,
    field?_normal]
  exact congrArg (Option.map normal)
    (findEntry_filter (fun k => !known.contains k) kept fields.reverse)

/-! ## Further fields -/

/-- Fields that a record does not know, with values in the form in which they are kept. -/
def Further (known : List String) (t : Table Json) : Prop :=
  ∀ k x, t.get? k = some x → k ∉ known ∧ x.normal = x

/-- The further fields of a record are called otherwise than those that are known. -/
theorem get?_extra {known : List String} {name : String} (mem : name ∈ known)
    (fields : List (String × Json)) : (Fields.extra known fields).get? name = none := by
  rw [Fields.extra, Table.get?_ofList, findEntry_eq_none_iff]
  simp only [← List.map_reverse, List.map_map, List.mem_map, List.mem_reverse, List.mem_filter]
  rintro ⟨f, ⟨-, other⟩, rfl⟩
  exact absurd mem (by simpa using other)

theorem further_extra (fields : List (String × Json)) :
    Further known (Fields.extra known fields) := by
  intro k x found
  have other : k ∉ known := fun mem => by
    rw [get?_extra mem] at found
    cases found
  rw [get?_extra_of_not_mem other] at found
  exact ⟨other, normal_of_field? found⟩

theorem further_table? {t : Table Json} (read : table? v = some t) : Further [] t := by
  cases v with
  | obj fields =>
    cases read
    intro k x found
    rw [Table.get?_ofList, ← List.map_reverse, findEntry_map] at found
    obtain ⟨y, -, rfl⟩ := Option.map_eq_some_iff.mp found
    exact ⟨List.not_mem_nil, normal_normal y⟩
  | _ => cases read

theorem Further.overlay {t u : Table Json} (h : Further known t) (h' : Further known u) :
    Further known (t.overlay u) := by
  intro k x found
  rw [Table.get?_overlay] at found
  cases above : u.get? k with
  | none =>
    rw [above] at found
    exact h k x found
  | some y =>
    rw [above] at found
    cases found
    exact h' k _ above

theorem Further.fill {t u : Table Json} (h : Further known t) (h' : Further known u) :
    Further known (t.fill u) := by
  intro k x found
  rw [Table.get?_fill] at found
  cases own : t.get? k with
  | none =>
    rw [own] at found
    exact h' k x found
  | some y =>
    rw [own] at found
    cases found
    exact h k _ own

theorem Further.map_normal {t : Table Json} (h : Further known t) :
    (t.toList.map fun f => (f.1, f.2.normal)) = t.toList := by
  refine (List.map_congr_left fun f mem => ?_).trans (List.map_id _)
  rw [(h f.1 f.2 (Table.mem_toList_iff.mp mem)).2]
  rfl

theorem table?_ofTable {t : Table Json} (h : Further [] t) : table? (ofTable t) = some t := by
  rw [ofTable, table?, h.map_normal, Table.ofList_toList]

/-! ## Fields as they are written -/

namespace Fields

/-- The known fields that have a value, and then the further ones. -/
def write (known : List String) (value : String → Option Json) (extra : Table Json) :
    List (String × Json) :=
  known.flatMap (fun k => ((value k).map (k, ·)).toList) ++ extra.toList

/-- A field that is left out in some cases, as it is written. -/
theorem toList_unless (left : Prop) [Decidable left] (k : String) (x : Json) :
    ((if left then none else some x).map (k, ·)).toList = if left then [] else [(k, x)] := by
  split <;> rfl

theorem toList_if (there : Prop) [Decidable there] (k : String) (x : Json) :
    (if there then some (k, x) else none).toList = if there then [(k, x)] else [] := by
  split <;> rfl

variable {value : String → Option Json} {extra : Table Json} (distinct : known.Nodup)
  (further : Further known extra)
include further

theorem not_mem_keys {k : String} (mem : k ∈ known) : k ∉ extra.keys := fun there => by
  obtain ⟨f, there', rfl⟩ := List.mem_map.mp there
  exact (further f.1 f.2 (Table.mem_toList_iff.mp there')).1 mem

omit further in
theorem keys_sublist (known : List String) :
    ((known.flatMap fun k => ((value k).map (k, ·)).toList).map (·.1)).Sublist known := by
  induction known with
  | nil => exact .slnil
  | cons k rest ih =>
    rw [List.flatMap_cons, List.map_append]
    cases value k with
    | none => exact ih.cons k
    | some x => exact ih.cons_cons k

include distinct

theorem nodup_write : ((write known value extra).map (·.1)).Nodup := by
  rw [write, List.map_append]
  refine List.nodup_append.mpr ⟨distinct.sublist (keys_sublist known), extra.nodup_keys, ?_⟩
  rintro k mem k' there rfl
  exact not_mem_keys further ((keys_sublist known).subset mem) there

theorem of?_write :
    of? known (.obj (write known value extra)) = some (write known value extra) := by
  refine of?_eq_some_iff.mpr ⟨rfl, fun k _ => ?_⟩
  have names : ((write known value extra).map (·.1)).Nodup := nodup_write distinct further
  have once := List.nodup_iff_count_le_one.mp names k
  rw [List.count_eq_countP, List.countP_map, List.countP_eq_length_filter] at once
  exact once

theorem findEntry_write {k : String} (mem : k ∈ known) :
    findEntry k (write known value extra) = value k := by
  have absent : findEntry k extra.toList = none :=
    findEntry_eq_none_iff.mpr (not_mem_keys further mem)
  rw [write, findEntry_append, absent]
  clear further absent
  induction known with
  | nil => cases mem
  | cons k' rest ih =>
    rw [List.flatMap_cons, findEntry_append]
    obtain ⟨fresh, distinct⟩ := List.nodup_cons.mp distinct
    by_cases same : k = k'
    · subst same
      have none : findEntry k (rest.flatMap fun k => ((value k).map (k, ·)).toList) = none :=
        findEntry_eq_none_iff.mpr fun there => fresh ((keys_sublist rest).subset there)
      rw [none]
      cases value k <;> simp [findEntry]
    · have others := ih distinct ((List.mem_cons.mp mem).resolve_left same)
      cases value k' with
      | none => simpa [findEntry] using others
      | some x => simpa [findEntry, same] using others

omit distinct in
theorem extra_write : Fields.extra known (write known value extra) = extra := by
  have dropped : (known.flatMap fun k => ((value k).map (k, ·)).toList).filter
      (fun f => !known.contains f.1) = [] := by
    refine List.filter_eq_nil_iff.mpr fun f mem => ?_
    have there := (keys_sublist known).subset (List.mem_map_of_mem mem)
    simpa using there
  have kept : extra.toList.filter (fun f => !known.contains f.1) = extra.toList := by
    refine List.filter_eq_self.mpr fun f mem => ?_
    simpa using (further f.1 f.2 (Table.mem_toList_iff.mp mem)).1
  rw [Fields.extra, write, List.filter_append, dropped, kept, List.nil_append, further.map_normal,
    Table.ofList_toList]

end Fields

/-! ## Fields as they are read -/

/-- An item of the list in a field. -/
def item? (v : Json) (k : String) (i : Nat) : Option Json :=
  ((v.field? k).bind list?).bind (·[i]?)

section Read

variable {k : String} {item : Json → Option α} {xs : List α} {x : α}

theorem listOf?_eq_some_iff :
    listOf? item v = some xs ↔
      ∃ items, v = .arr items ∧ List.Forall₂ (fun b x => item b = some x) items xs := by
  have all (items : List Json) : items.mapM item = some xs ↔
      List.Forall₂ (fun b x => item b = some x) items xs := by
    induction items generalizing xs with
    | nil => simp [eq_comm]
    | cons b rest ih =>
      simp only [List.mapM_cons, Option.bind_eq_bind, Option.bind_eq_some_iff, Option.pure_def,
        Option.some.injEq, List.forall₂_cons_left_iff, ih]
      exact ⟨fun ⟨x, first, ys, others, whole⟩ => ⟨x, ys, first, others, whole.symm⟩,
        fun ⟨x, ys, first, others, whole⟩ => ⟨x, first, ys, others, whole.symm⟩⟩
  cases v with
  | arr items => simp [listOf?, all]
  | _ => simp [listOf?]

theorem exists_of_mem_forall₂ {β : Type} {r : β → α → Prop} {ys : List β} (h : List.Forall₂ r ys xs)
    (mem : x ∈ xs) : ∃ y ∈ ys, r y x := by
  induction h with
  | nil => cases mem
  | cons first _ ih =>
    rcases List.mem_cons.mp mem with rfl | mem
    · exact ⟨_, .head _, first⟩
    · obtain ⟨y, mem, holds⟩ := ih mem
      exact ⟨y, .tail _ mem, holds⟩

/-- A list in a field, each of whose items has been read. -/
theorem exists_of_mem_default (read : Fields.default fields k [] (listOf? item) = some xs)
    (mem : x ∈ xs) : ∃ b, item b = some x := by
  unfold Fields.default at read
  split at read
  · obtain ⟨items, -, each⟩ := listOf?_eq_some_iff.mp read
    obtain ⟨b, -, holds⟩ := exists_of_mem_forall₂ each mem
    exact ⟨b, holds⟩
  · cases read
    cases mem

/-- The items of a list are read in their places. -/
theorem map_item? (read : Fields.default fields k [] (listOf? item) = some xs) (i : Nat) :
    (item? (.obj fields) k i).map item = xs[i]?.map some := by
  unfold Fields.default at read
  split at read
  · rename_i found
    obtain ⟨items, rfl, each⟩ := listOf?_eq_some_iff.mp read
    have there : item? (.obj fields) k i = items[i]? := by simp [item?, field?, found, list?]
    rw [there, ← List.getElem?_map, ← List.getElem?_map]
    congr 1
    clear read found there
    induction each with
    | nil => rfl
    | cons first _ ih => rw [List.map_cons, List.map_cons, first, ih]
  · rename_i found
    cases read
    simp [item?, field?, found]

theorem exists_of_optional {f : Json → Option α} {o : Option α}
    (read : Fields.optional fields k f = some o) (is : o = some x) :
    ∃ b, b ≠ .null ∧ f b = some x := by
  unfold Fields.optional at read
  split at read
  · cases read
    cases is
  · cases read
    cases is
  · rename_i b other _
    subst is
    exact ⟨b, other, by simpa using read⟩

theorem filled_of_optional {o : Option Json} {x : Json}
    (read : Fields.optional fields k (fun v => some v.normal) = some o) (is : o = some x) :
    x ≠ .null ∧ x.normal = x := by
  obtain ⟨b, filled, same⟩ := exists_of_optional read is
  cases same
  exact ⟨fun null => filled (by cases b <;> first | rfl | cases null), normal_normal b⟩

theorem further_default {t : Table Json} (read : Fields.default fields k .empty table? = some t) :
    Further [] t := by
  unfold Fields.default at read
  split at read
  · exact further_table? read
  · cases read
    exact nofun

/-! ### Fields that were written -/

theorem required_of_some {f : Json → Option α} {y : Json} (found : findEntry k fields = some y)
    (back : f y = some x) : Fields.required fields k f = some x := by
  rw [Fields.required, found, Option.bind_some, back]

theorem default_of_some {f : Json → Option α} {y : Json} (start : α)
    (found : findEntry k fields = some y) (back : f y = some x) :
    Fields.default fields k start f = some x := by
  rw [Fields.default, found]
  exact back

/-- A field that is left out where it has its default. -/
theorem default_of_unless {f : Json → Option α} {y : Json} {left : Bool} {start : α}
    (found : findEntry k fields = if left then none else some y) (is : left = true → x = start)
    (back : f y = some x) : Fields.default fields k start f = some x := by
  cases left with
  | true =>
    rw [Fields.default, found, is rfl]
    rfl
  | false => exact default_of_some start found back

theorem listOf?_map {write : α → Json} (back : ∀ x ∈ xs, item (write x) = some x) :
    listOf? item (.arr (xs.map write)) = some xs := by
  refine listOf?_eq_some_iff.mpr ⟨_, rfl, ?_⟩
  rw [List.forall₂_map_left_iff]
  exact List.forall₂_same.mpr back

theorem default_of_list {write : α → Json} (found : findEntry k fields =
      if xs.isEmpty then none else some (.arr (xs.map write)))
    (back : ∀ x ∈ xs, item (write x) = some x) :
    Fields.default fields k [] (listOf? item) = some xs :=
  default_of_unless found (fun none => List.isEmpty_iff.mp none) (listOf?_map back)

theorem default_of_strings {ss : List String}
    (found : findEntry k fields = if ss.isEmpty then none else some (.arr (ss.map .str))) :
    Fields.default fields k [] strings? = some ss :=
  default_of_list found fun _ _ => rfl

theorem default_of_normal {xs : List Json}
    (found : findEntry k fields = if xs.isEmpty then none else some (.arr xs))
    (normal : ∀ x ∈ xs, x.normal = x) :
    Fields.default fields k [] (listOf? fun v => some v.normal) = some xs := by
  refine default_of_list (found.trans ?_) fun x mem => congrArg some (normal x mem)
  rw [List.map_id']

theorem default_of_value {y : Json} (start : Json) (found : findEntry k fields = some y)
    (normal : y.normal = y) :
    Fields.default fields k start (fun v => some v.normal) = some y :=
  default_of_some start found (congrArg some normal)

theorem default_of_flag {b : Bool}
    (found : findEntry k fields = if b then some (.bool true) else none) :
    Fields.default fields k false bool? = some b := by
  rw [Fields.default, found]
  cases b <;> rfl

theorem optional_of_option {f : Json → Option α} {write : α → Json} {o : Option α}
    (found : findEntry k fields = o.map write)
    (back : ∀ x, o = some x → write x ≠ .null ∧ f (write x) = some x) :
    Fields.optional fields k f = some o := by
  rw [Fields.optional, found]
  cases o with
  | none => rfl
  | some x =>
    obtain ⟨filled, back⟩ := back x rfl
    rw [Option.map_some]
    split
    · rename_i none
      cases none
    · rename_i null
      exact absurd (Option.some.inj null) filled
    · rename_i same
      cases same
      rw [back]
      rfl

theorem optional_of_normal {o : Option Json} (found : findEntry k fields = o)
    (proper : ∀ x, o = some x → x ≠ .null ∧ x.normal = x) :
    Fields.optional fields k (fun v => some v.normal) = some o := by
  refine optional_of_option (found.trans Option.map_id'.symm) fun x is => ?_
  exact (proper x is).imp_right (congrArg some)

end Read

theorem optional_of_found {fields : List (String × Json)} {k : String} {f : Json → Option α}
    {y : Json} (found : findEntry k fields = some y) :
    Fields.optional fields k f = if y = .null then some none else (f y).map some := by
  rw [Fields.optional, found]
  cases y <;> simp

/-! ## Tidied values are read alike -/

/-- What is read from a value is read from the value tidied. -/
def Keeps (f : Json → Option α) : Prop := ∀ v v' x, Tidied v v' → f v = some x → f v' = some x

/-- What is read from a value is read from its normal form. -/
def Stable (f : Json → Option α) : Prop := ∀ v x, f v = some x → f v.normal = some x

theorem Keeps.stable {f : Json → Option α} (keeps : Keeps f) : Stable f :=
  fun v x => keeps v v.normal x (tidied_normal v)

/-- Of two values without repeated names that differ in the order of fields the same is read. -/
theorem Keeps.congr {f : Json → Option α} (keeps : Keeps f) {v v' : Json} (tidied : Tidied v v')
    (single : v.Single) : f v' = f v :=
  Option.ext fun x => ⟨keeps v' v x (tidied.symm single), keeps v v' x tidied⟩

theorem keeps_str? : Keeps str? := by
  intro v v' x tidied read
  cases v with
  | str s => rwa [tidied.of_str]
  | _ => cases read

theorem keeps_bool? : Keeps bool? := by
  intro v v' x tidied read
  cases v with
  | bool b => rwa [tidied.of_bool]
  | _ => cases read

theorem keeps_int64? : Keeps int64? := by
  intro v v' x tidied read
  cases v with
  | int n => rwa [tidied.of_int]
  | _ => cases read

theorem keeps_normal : Keeps fun v => some v.normal :=
  fun _ _ _ tidied read => (congrArg some tidied.same).trans read

theorem keeps_listOf? {item : Json → Option α} (keeps : Keeps item) : Keeps (listOf? item) := by
  intro v v' xs tidied read
  obtain ⟨items, rfl, each⟩ := listOf?_eq_some_iff.mp read
  obtain ⟨items', rfl, alike⟩ := tidied.of_arr
  refine listOf?_eq_some_iff.mpr ⟨items', rfl, ?_⟩
  clear read tidied
  induction alike generalizing xs with
  | nil =>
    cases each
    exact .nil
  | cons first _ ih =>
    cases each with
    | cons holds rest => exact .cons (keeps _ _ _ first holds) (ih _ rest)

/-- A name stands once where no name is repeated. -/
theorem once_of_nodup {fields : List (String × Json)} (distinct : (fields.map (·.1)).Nodup)
    (k : String) : (fields.filter fun f => f.1 == k).length ≤ 1 := by
  have single := List.nodup_iff_count_le_one.mp distinct k
  rwa [List.count_eq_countP, List.countP_map, List.countP_eq_length_filter] at single

/-- An object of one field has one field when it has been tidied. -/
theorem Tidied.of_singleton {k : String} {x v' : Json} (tidied : Tidied (.obj [(k, x)]) v') :
    ∃ y, v' = .obj [(k, y)] ∧ Tidied x y := by
  obtain ⟨fields', rfl⟩ := tidied.of_obj
  obtain ⟨distinct, values⟩ := tidied.single
  have only : ∀ f ∈ fields', f.1 = k := fun f mem => by
    have there : (findEntry f.1 fields').isSome :=
      findEntry_isSome_iff.mpr (List.mem_map_of_mem mem)
    have same : (obj fields').normal.field? f.1 = (obj [(k, x)]).normal.field? f.1 := by
      rw [tidied.same]
    rw [field?_normal, field?_normal, findEntry_reverse (once_of_nodup distinct f.1)] at same
    by_contra other
    simp [findEntry, other, Option.isSome_iff_ne_none.mp there] at same
  cases fields' with
  | nil => cases tidied.same
  | cons f rest =>
    have first := only f (.head _)
    cases rest with
    | nil =>
      obtain ⟨k', y⟩ := f
      obtain rfl : k' = k := first
      have same := tidied.same
      simp only [normal, normalFields, insertEntry, obj.injEq, List.cons.injEq, Prod.mk.injEq,
        and_true, true_and] at same
      exact ⟨y, rfl, same, values.1⟩
    | cons g rest =>
      have second := only g (.tail _ (.head _))
      simp [first, second] at distinct

theorem keeps_strings? : Keeps strings? := keeps_listOf? keeps_str?

theorem keeps_table? : Keeps table? := by
  intro v v' t tidied read
  cases v with
  | obj fields =>
    obtain ⟨fields', rfl⟩ := tidied.of_obj
    refine (congrArg some (Table.ext fun k => ?_)).trans read
    rw [Table.get?_ofList, Table.get?_ofList, ← List.map_reverse, ← List.map_reverse, findEntry_map,
      findEntry_map, ← field?_normal, ← field?_normal, tidied.same]
  | _ => cases read

/-- The fields of a record and those of the record tidied. -/
structure TidiedFields (known : List String) (fields fields' : List (String × Json)) : Prop where
  extra : Fields.extra known fields' = Fields.extra known fields
  same : ∀ k ∈ known, Option.Rel Tidied (findEntry k fields) (findEntry k fields')

theorem exists_of?_tidied {v' : Json} {fields : List (String × Json)} (tidied : Tidied v v')
    (read : Fields.of? known v = some fields) :
    ∃ fields', Fields.of? known v' = some fields' ∧ TidiedFields known fields fields' := by
  obtain ⟨rfl, once⟩ := of?_eq_some_iff.mp read
  obtain ⟨fields', rfl⟩ := tidied.of_obj
  obtain ⟨distinct, values⟩ := tidied.single
  have once' := once_of_nodup distinct
  refine ⟨fields', of?_eq_some_iff.mpr ⟨rfl, fun k _ => once' k⟩, Table.ext fun k => ?_,
    fun k mem => ?_⟩
  · by_cases mem : k ∈ known
    · rw [get?_extra mem, get?_extra mem]
    · rw [get?_extra_of_not_mem mem, get?_extra_of_not_mem mem, tidied.same]
  · have same : (obj fields').normal.field? k = (obj fields).normal.field? k := by
      rw [tidied.same]
    rw [field?_normal, field?_normal, findEntry_reverse (once k mem),
      findEntry_reverse (once' k)] at same
    cases found : findEntry k fields <;> cases found' : findEntry k fields' <;>
      rw [found, found'] at same
    · exact .none
    · cases same
    · cases same
    · have single := singleFields_iff.mp values _ (mem_of_findEntry found')
      exact .some ⟨Option.some.inj same, single⟩

/-- A record is read from its value tidied if each field is. -/
theorem keeps_of_fields {f : Json → Option α} {read : α → List (String × Json) → Prop}
    (reads : ∀ v x, f v = some x ↔ ∃ fields, Fields.of? known v = some fields ∧ read x fields)
    (keeps : ∀ x fields fields', read x fields → TidiedFields known fields fields' →
      read x fields') : Keeps f := by
  intro v v' x tidied holds
  obtain ⟨fields, record, each⟩ := (reads v x).mp holds
  obtain ⟨fields', record', same⟩ := exists_of?_tidied tidied record
  exact (reads v' x).mpr ⟨fields', record', keeps x fields fields' each same⟩

section Keeps

variable {fields fields' : List (String × Json)} {k : String} {f : Json → Option α} {x : α}
  (same : Option.Rel Tidied (findEntry k fields) (findEntry k fields')) (keeps : Keeps f)
include same keeps

theorem Keeps.required (read : Fields.required fields k f = some x) :
    Fields.required fields' k f = some x := by
  obtain ⟨y, found, holds⟩ := Option.bind_eq_some_iff.mp read
  rw [found] at same
  rw [Fields.required]
  cases found' : findEntry k fields' with
  | none =>
    rw [found'] at same
    cases same
  | some y' =>
    rw [found'] at same
    cases same with
    | some tidied => exact keeps y y' x tidied holds

theorem Keeps.default {start : α} (read : Fields.default fields k start f = some x) :
    Fields.default fields' k start f = some x := by
  unfold Fields.default at read ⊢
  cases found : findEntry k fields <;> cases found' : findEntry k fields' <;>
    rw [found, found'] at same <;> rw [found] at read
  · exact read
  · cases same
  · cases same
  · cases same with
    | some tidied => exact keeps _ _ x tidied read

theorem Keeps.optional {o : Option α} (read : Fields.optional fields k f = some o) :
    Fields.optional fields' k f = some o := by
  cases found : findEntry k fields <;> cases found' : findEntry k fields' <;>
    rw [found, found'] at same
  · rw [Fields.optional, found] at read
    rw [Fields.optional, found']
    exact read
  · cases same
  · cases same
  · cases same with
    | some tidied =>
      rw [optional_of_found found] at read
      rw [optional_of_found found', if_congr tidied.null_iff rfl rfl]
      split at read
      · rwa [if_pos ‹_›]
      · rw [if_neg ‹_›]
        obtain ⟨x, holds, rfl⟩ := Option.map_eq_some_iff.mp read
        exact Option.map_eq_some_iff.mpr ⟨x, keeps _ _ x tidied holds, rfl⟩

end Keeps

end Json

end BoardDesign
