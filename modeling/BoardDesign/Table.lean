/-!
Tables: finite maps from names to values, kept in the order of their names.

`Table.ext` says that a table is determined by its look-ups, so the order in which entries
were inserted never shows.
-/

namespace BoardDesign

/-- Entries of an association list, sorted by insertion; the same name is replaced. -/
def insertEntry {α : Type _} (name : String) (value : α) :
    List (String × α) → List (String × α)
  | [] => [(name, value)]
  | (k, v) :: rest =>
    if name = k then (name, value) :: rest
    else if name < k then (name, value) :: (k, v) :: rest
    else (k, v) :: insertEntry name value rest

/-- The first value recorded under a name. -/
def findEntry {α : Type _} (name : String) : List (String × α) → Option α
  | [] => none
  | (k, v) :: rest => if name = k then some v else findEntry name rest

/-- Every entry but those of one name. -/
def eraseEntry {α : Type _} (name : String) (entries : List (String × α)) :
    List (String × α) :=
  entries.filter fun e => e.1 ≠ name

variable {α : Type _}

theorem findEntry_insertEntry (name other : String) (value : α) (entries : List (String × α)) :
    findEntry other (insertEntry name value entries)
      = if other = name then some value else findEntry other entries := by
  induction entries with
  | nil => simp [insertEntry, findEntry]
  | cons e rest ih =>
    obtain ⟨k, v⟩ := e
    simp only [insertEntry]
    split
    · rename_i h
      subst h
      by_cases ho : other = name <;> simp [findEntry, ho]
    · split
      · simp only [findEntry]
      · rename_i h _
        simp only [findEntry, ih]
        by_cases hk : other = k
        · subst hk
          simp [Ne.symm h]
        · simp [hk]

theorem findEntry_eraseEntry (name other : String) (entries : List (String × α)) :
    findEntry other (eraseEntry name entries)
      = if other = name then none else findEntry other entries := by
  induction entries with
  | nil => simp [eraseEntry, findEntry]
  | cons e rest ih =>
    obtain ⟨k, v⟩ := e
    simp only [eraseEntry] at ih ⊢
    by_cases hk : k = name
    · subst hk
      simp only [List.filter_cons, ne_eq, not_true_eq_false, decide_false, Bool.false_eq_true,
        if_false, ih, findEntry]
      by_cases ho : other = k <;> simp [ho]
    · simp only [List.filter_cons, ne_eq, hk, not_false_eq_true, decide_true, if_true, findEntry,
        ih]
      by_cases ho : other = k
      · subst ho; simp [hk]
      · simp [ho]

theorem mem_keys_insertEntry {name k : String} {value : α} {entries : List (String × α)}
    (h : k ∈ (insertEntry name value entries).map (·.1)) :
    k = name ∨ k ∈ entries.map (·.1) := by
  induction entries with
  | nil => simpa [insertEntry] using h
  | cons e rest ih =>
    obtain ⟨k', v⟩ := e
    simp only [insertEntry] at h
    split at h
    · rename_i he; subst he
      exact .inr h
    · split at h
      · simpa only [List.map_cons, List.mem_cons] using h
      · simp only [List.map_cons, List.mem_cons] at h ⊢
        rcases h with h | h
        · exact .inr (.inl h)
        · rcases ih h with h | h
          · exact .inl h
          · exact .inr (.inr h)

theorem sorted_insertEntry {name : String} {value : α} {entries : List (String × α)}
    (h : (entries.map (·.1)).Pairwise (· < ·)) :
    ((insertEntry name value entries).map (·.1)).Pairwise (· < ·) := by
  induction entries with
  | nil => simp [insertEntry]
  | cons e rest ih =>
    obtain ⟨k, v⟩ := e
    simp only [List.map_cons, List.pairwise_cons] at h
    simp only [insertEntry]
    split
    · rename_i he; subst he
      simpa only [List.map_cons, List.pairwise_cons] using h
    · split
      · rename_i hlt
        simp only [List.map_cons, List.pairwise_cons]
        refine ⟨fun a ha => ?_, h⟩
        rcases List.mem_cons.1 ha with rfl | ha
        · exact hlt
        · exact String.lt_trans hlt (h.1 a ha)
      · rename_i hne hlt
        simp only [List.map_cons, List.pairwise_cons]
        refine ⟨fun a ha => ?_, ih h.2⟩
        rcases mem_keys_insertEntry ha with rfl | ha
        · rcases Std.lt_trichotomy a k with h' | h' | h'
          · exact absurd h' hlt
          · exact absurd h' hne
          · exact h'
        · exact h.1 a ha

theorem sorted_eraseEntry {name : String} {entries : List (String × α)}
    (h : (entries.map (·.1)).Pairwise (· < ·)) :
    ((eraseEntry name entries).map (·.1)).Pairwise (· < ·) :=
  List.Pairwise.sublist (List.Sublist.map _ List.filter_sublist) h

/-- A finite map from names to values. -/
structure Table (α : Type _) where
  entries : List (String × α)
  sorted : (entries.map (·.1)).Pairwise (· < ·)
deriving DecidableEq, Repr

namespace Table

def empty : Table α := ⟨[], .nil⟩

instance : Inhabited (Table α) := ⟨empty⟩

def toList (t : Table α) : List (String × α) := t.entries
def keys (t : Table α) : List String := t.entries.map (·.1)
def values (t : Table α) : List α := t.entries.map (·.2)
def size (t : Table α) : Nat := t.entries.length
def isEmpty (t : Table α) : Bool := t.entries.isEmpty

def get? (t : Table α) (name : String) : Option α := findEntry name t.entries
def contains (t : Table α) (name : String) : Bool := (t.get? name).isSome

def insert (t : Table α) (name : String) (value : α) : Table α :=
  ⟨insertEntry name value t.entries, sorted_insertEntry t.sorted⟩

def erase (t : Table α) (name : String) : Table α :=
  ⟨eraseEntry name t.entries, sorted_eraseEntry t.sorted⟩

/-- An entry that is already there wins. -/
def insertNew (t : Table α) (name : String) (value : α) : Table α :=
  if t.contains name then t else t.insert name value

/-- Of several values for a name the last one counts. -/
def ofList (entries : List (String × α)) : Table α :=
  entries.foldl (fun t e => t.insert e.1 e.2) empty

/-- The entries of `t` with those of `u` written over them. -/
def overlay (t u : Table α) : Table α :=
  u.entries.foldl (fun t e => t.insert e.1 e.2) t

/-- The entries of `t`, and those of `u` that `t` lacks. -/
def fill (t u : Table α) : Table α :=
  u.entries.foldl (fun t e => t.insertNew e.1 e.2) t

def map {β : Type _} (f : α → β) (t : Table α) : Table β :=
  ⟨t.entries.map fun e => (e.1, f e.2), by
    simpa [List.map_map, Function.comp_def] using t.sorted⟩

@[simp] theorem get?_empty (name : String) : (empty : Table α).get? name = none := rfl

@[simp] theorem get?_insert (t : Table α) (name other : String) (value : α) :
    (t.insert name value).get? other = if other = name then some value else t.get? other :=
  findEntry_insertEntry name other value t.entries

@[simp] theorem get?_erase (t : Table α) (name other : String) :
    (t.erase name).get? other = if other = name then none else t.get? other :=
  findEntry_eraseEntry name other t.entries

theorem get?_insertNew (t : Table α) (name other : String) (value : α) :
    (t.insertNew name value).get? other
      = if other = name then some ((t.get? name).getD value) else t.get? other := by
  unfold insertNew contains
  by_cases ho : other = name
  · subst ho
    cases h : t.get? other <;> simp [h]
  · cases h : t.get? name <;> simp [ho]

private theorem findEntry_lt {name : String} {entries : List (String × α)}
    (h : ∀ k ∈ entries.map (·.1), name < k) : findEntry name entries = none := by
  induction entries with
  | nil => rfl
  | cons e rest ih =>
    obtain ⟨k, v⟩ := e
    have hk : name < k := h k (by simp)
    have hne : name ≠ k := fun e => String.lt_irrefl k (e ▸ hk)
    simp only [findEntry, hne, if_false]
    exact ih fun k' hk' => h k' (by simp [hk'])

private theorem entries_ext {a b : List (String × α)}
    (ha : (a.map (·.1)).Pairwise (· < ·)) (hb : (b.map (·.1)).Pairwise (· < ·))
    (h : ∀ name, findEntry name a = findEntry name b) : a = b := by
  induction a generalizing b with
  | nil =>
    cases b with
    | nil => rfl
    | cons e rest => simpa [findEntry] using h e.1
  | cons e rest ih =>
    obtain ⟨k, v⟩ := e
    cases b with
    | nil => simpa [findEntry] using h k
    | cons e' rest' =>
      obtain ⟨k', v'⟩ := e'
      simp only [List.map_cons, List.pairwise_cons] at ha hb
      have hk : k = k' := by
        rcases Std.lt_trichotomy k k' with hlt | heq | hlt
        · have : findEntry k ((k', v') :: rest') = none :=
            findEntry_lt (by
              simp only [List.map_cons, List.mem_cons]
              rintro x (rfl | hx)
              · exact hlt
              · exact String.lt_trans hlt (hb.1 x hx))
          have hh := h k
          rw [this] at hh
          simp [findEntry] at hh
        · exact heq
        · have : findEntry k' ((k, v) :: rest) = none :=
            findEntry_lt (by
              simp only [List.map_cons, List.mem_cons]
              rintro x (rfl | hx)
              · exact hlt
              · exact String.lt_trans hlt (ha.1 x hx))
          have hh := h k'
          rw [this] at hh
          simp [findEntry] at hh
      subst hk
      have hv : v = v' := by simpa [findEntry] using h k
      subst hv
      congr 1
      refine ih ha.2 hb.2 fun name => ?_
      by_cases hn : name = k
      · subst hn
        rw [findEntry_lt ha.1, findEntry_lt hb.1]
      · simpa [findEntry, hn] using h name

/-- A table is determined by its look-ups. -/
theorem ext {t u : Table α} (h : ∀ name, t.get? name = u.get? name) : t = u := by
  cases t; cases u
  simp only [mk.injEq]
  exact entries_ext (by assumption) (by assumption) h

end Table

end BoardDesign
