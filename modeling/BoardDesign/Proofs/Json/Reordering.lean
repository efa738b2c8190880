import BoardDesign.Proofs.Json.Form
import BoardDesign.Proofs.Json.Record

/-!
# The order of fields

Two texts of which one is the other with the fields of its objects in another order, and with
other blanks, hold the same value but for the order of its fields.

* `Form.Reordered`: the tokens of the two texts;
* `normalFields_perm`: fields without repeated names have one normal form in every order;
* `parse_reordered`: either both texts are no values or both are, and these are one value tidied.
-/

namespace BoardDesign.Json

variable {depth : Nat}

namespace Form

mutual

/-- The second form is the first one with the fields of its objects in any order. -/
def Reordered (a b : Form) : Prop :=
  match a with
  | .word w => b = .word w
  | .str s => b = .str s
  | .arr items => ∃ items', b = .arr items' ∧ ReorderedItems items items'
  | .obj fields => ∃ fields', b = .obj fields' ∧ ReorderedFields fields fields'
termination_by structural a

def ReorderedItems (items items' : List Form) : Prop :=
  match items with
  | [] => items' = []
  | x :: rest => ∃ y rest', items' = y :: rest' ∧ Reordered x y ∧ ReorderedItems rest rest'
termination_by structural items

/-- The first field stands somewhere among the others, and these are reordered. -/
def ReorderedFields (fields fields' : List (List Char × Form)) : Prop :=
  match fields with
  | [] => fields' = []
  | (k, x) :: rest => ∃ before y after, fields' = before ++ (k, y) :: after ∧ Reordered x y ∧
      ReorderedFields rest (before ++ after)
termination_by structural fields

end

end Form

/-! ## Fields without repeated names -/

section Fields

variable {fields fields' : List (String × Json)}

/-- A field with its value in normal form. -/
def normalField (f : String × Json) : String × Json := (f.1, f.2.normal)

/-- Fields without repeated names have one normal form in every order. -/
theorem normalFields_perm (perm : (fields'.map normalField).Perm (fields.map normalField))
    (distinct : (fields.map (·.1)).Nodup) : normalFields [] fields' = normalFields [] fields := by
  have names (fs : List (String × Json)) : (fs.map normalField).map (·.1) = fs.map (·.1) := by
    rw [List.map_map]
    rfl
  have distinct' : (fields'.map (·.1)).Nodup := by
    rw [← names] at distinct ⊢
    exact (perm.map _).nodup_iff.mpr distinct
  have values (fs : List (String × Json)) (distinct : (fs.map (·.1)).Nodup) (k : String) :
      findEntry k (normalFields [] fs) = findEntry k (fs.map normalField) := by
    have mapped : findEntry k (fs.map normalField) = (findEntry k fs).map normal :=
      findEntry_map normal fs
    rw [findEntry_normalFields, findEntry_reverse (once_of_nodup distinct k), mapped]
    simp [findEntry]
  have same : Table.mk (normalFields [] fields') (sorted_normalFields .nil) =
      Table.mk (normalFields [] fields) (sorted_normalFields .nil) := by
    refine Table.ext fun k => ?_
    change findEntry k (normalFields [] fields') = findEntry k (normalFields [] fields)
    rw [values _ distinct', values _ distinct]
    exact findEntry_perm perm ((names fields).symm ▸ distinct) k
  exact congrArg Table.entries same

end Fields

/-- If the first values repeat no name, the second fields are the first ones in some order and with
their values tidied. -/
def FieldsAlike (fields fields' : List (String × Json)) : Prop :=
  SingleFields fields →
    (fields'.map normalField).Perm (fields.map normalField) ∧ SingleFields fields'

theorem FieldsAlike.perm {fields fields' fields'' : List (String × Json)}
    (alike : FieldsAlike fields fields') (perm : fields''.Perm fields') :
    FieldsAlike fields fields'' := fun single => by
  obtain ⟨perm', single'⟩ := alike single
  exact ⟨(perm.map _).trans perm',
    singleFields_iff.mpr fun f mem => singleFields_iff.mp single' f (perm.mem_iff.mp mem)⟩

theorem FieldsAlike.rel {o o' o'' : Option (List (String × Json))}
    (alike : Option.Rel FieldsAlike o o') (moved : Option.Rel List.Perm o'' o') :
    Option.Rel FieldsAlike o o'' := by
  cases alike with
  | none =>
    cases moved
    exact .none
  | some holds =>
    cases moved with
    | some perm => exact .some (holds.perm perm)

/-! ## Values of reordered forms -/

section Rel

variable {α β γ δ : Type} {r : α → β → Prop} {s : γ → δ → Prop} {o : Option α} {o' : Option β}

theorem rel_bind {f : α → Option γ} {g : β → Option δ} (h : Option.Rel r o o')
    (next : ∀ x y, r x y → Option.Rel s (f x) (g y)) : Option.Rel s (o.bind f) (o'.bind g) := by
  cases h with
  | none => exact .none
  | some holds => exact next _ _ holds

theorem rel_map {f : α → γ} {g : β → δ} (h : Option.Rel r o o')
    (next : ∀ x y, r x y → s (f x) (g y)) : Option.Rel s (o.map f) (o'.map g) := by
  cases h with
  | none => exact .none
  | some holds => exact .some (next _ _ holds)

end Rel

namespace Form

theorem fields?_append (fields more : List (List Char × Form)) :
    fields? depth (fields ++ more) =
      (fields? depth fields).bind fun vs => (fields? depth more).map (vs ++ ·) := by
  induction fields with
  | nil => simp [fields?]
  | cons f rest ih =>
    obtain ⟨k, x⟩ := f
    rw [List.cons_append, fields?, fields?, ih]
    cases bodyChars? k <;> cases x.value? depth <;> cases fields? depth rest <;>
      cases fields? depth more <;> rfl

/-- A field among others is read as it is read before them. -/
theorem perm_fields? (before after : List (List Char × Form)) (k : List Char) (x : Form) :
    Option.Rel List.Perm (fields? depth (before ++ (k, x) :: after))
      (fields? depth ((k, x) :: (before ++ after))) := by
  rw [fields?_append, fields?, fields?, fields?_append]
  cases fields? depth before <;> cases bodyChars? k <;> cases x.value? depth <;>
    cases fields? depth after <;>
    first
    | exact .none
    | exact .some List.perm_middle

mutual

/-- Of two forms that differ in the order of fields either none stands for a value, or both do, and
the values differ in the order of fields, if no name is repeated. -/
theorem value?_reordered (a b : Form) (depth : Nat) (reordered : a.Reordered b) :
    Option.Rel (fun v w => v.Single → Tidied v w) (a.value? depth) (b.value? depth) := by
  match a with
  | .word w =>
    obtain rfl := reordered
    cases (word w).value? depth with
    | none => exact .none
    | some v => exact .some fun single => ⟨rfl, single⟩
  | .str s =>
    obtain rfl := reordered
    cases (str s).value? depth with
    | none => exact .none
    | some v => exact .some fun single => ⟨rfl, single⟩
  | .arr items =>
    obtain ⟨items', rfl, each⟩ := reordered
    rw [value?, value?]
    split
    · exact .none
    · refine rel_map (values?_reordered items items' (depth - 1) each) fun vs ws alike single => ?_
      obtain ⟨same, single'⟩ := alike single
      exact ⟨congrArg Json.arr same, single'⟩
  | .obj fields =>
    obtain ⟨fields', rfl, each⟩ := reordered
    rw [value?, value?]
    split
    · exact .none
    · have pairs := fields?_reordered fields fields' (depth - 1) each
      refine rel_map pairs fun vs ws alike ⟨distinct, single⟩ => ?_
      obtain ⟨perm, single'⟩ := alike single
      have names (fs : List (String × Json)) : (fs.map normalField).map (·.1) = fs.map (·.1) := by
        rw [List.map_map]
        rfl
      refine ⟨congrArg Json.obj (normalFields_perm perm distinct), ?_, single'⟩
      rw [← names] at distinct ⊢
      exact (perm.map _).nodup_iff.mpr distinct
termination_by structural a

theorem values?_reordered (items items' : List Form) (depth : Nat)
    (reordered : ReorderedItems items items') :
    Option.Rel (fun vs ws => SingleItems vs → normalList ws = normalList vs ∧ SingleItems ws)
      (values? depth items) (values? depth items') := by
  match items with
  | [] =>
    obtain rfl := reordered
    exact .some fun single => ⟨rfl, single⟩
  | x :: rest =>
    obtain ⟨y, rest', rfl, first, others⟩ := reordered
    rw [values?, values?]
    refine rel_bind (value?_reordered x y depth first) fun v w tidied => ?_
    refine rel_map (values?_reordered rest rest' depth others) fun vs ws alike single => ?_
    obtain ⟨same, single'⟩ := alike single.2
    obtain ⟨first, single⟩ := tidied single.1
    exact ⟨by rw [normalList, normalList, first, same], single, single'⟩
termination_by structural items

theorem fields?_reordered (fields fields' : List (List Char × Form)) (depth : Nat)
    (reordered : ReorderedFields fields fields') :
    Option.Rel FieldsAlike (fields? depth fields) (fields? depth fields') := by
  match fields with
  | [] =>
    obtain rfl := reordered
    exact .some fun single => ⟨.refl _, single⟩
  | (k, x) :: rest =>
    obtain ⟨before, y, after, rfl, first, others⟩ := reordered
    have alike : Option.Rel FieldsAlike (fields? depth ((k, x) :: rest))
        (fields? depth ((k, y) :: (before ++ after))) := by
      rw [fields?, fields?]
      cases bodyChars? k with
      | none => exact .none
      | some name =>
        rw [Option.bind_some, Option.bind_some]
        refine rel_bind (value?_reordered x y depth first) fun v w tidied => ?_
        refine rel_map (fields?_reordered rest _ depth others) fun vs ws alike single => ?_
        obtain ⟨perm, single'⟩ := alike single.2
        obtain ⟨first, single⟩ := tidied single.1
        refine ⟨?_, single, single'⟩
        rw [List.map_cons, List.map_cons, normalField, normalField, first]
        exact perm.cons _
    exact FieldsAlike.rel alike (perm_fields? before after k y)
termination_by structural fields

end

end Form

/-- Two texts that differ in blanks and in the order of fields are read alike: either none of them
is a value, or both are, and if the first one repeats no name, the second one is the first one
tidied. -/
theorem parse_reordered {a b : Form} {t t' : String} (spelled : a.Spells t.toList)
    (spelled' : b.Spells t'.toList) (reordered : a.Reordered b) :
    Option.Rel (fun v w => v.Single → Tidied v w) (parse t) (parse t') := by
  rw [parse_spelled spelled, parse_spelled spelled']
  exact a.value?_reordered b depthLimit reordered

/-- So whatever looks at no order of fields is told the same by both texts. -/
theorem Keeps.parse_reordered {α : Type} {f : Json → Option α} (keeps : Keeps f) {a b : Form}
    {t t' : String} (spelled : a.Spells t.toList) (spelled' : b.Spells t'.toList)
    (reordered : a.Reordered b) (single : ∀ v, parse t = some v → v.Single) :
    (parse t').bind f = (parse t).bind f := by
  have alike := Json.parse_reordered spelled spelled' reordered
  cases read : parse t with
  | none =>
    rw [read] at alike
    cases read' : parse t' with
    | none => rfl
    | some w =>
      rw [read'] at alike
      cases alike
  | some v =>
    rw [read] at alike
    cases read' : parse t' with
    | none =>
      rw [read'] at alike
      cases alike
    | some w =>
      rw [read'] at alike
      cases alike with
      | some tidied => exact keeps.congr (tidied (single v read)) (single v read)

end BoardDesign.Json
