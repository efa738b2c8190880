import BoardDesign.Proofs.Catalog.Proper
import BoardDesign.Proofs.Json.Compact

/-!
# What the text of a catalog tells of its types

A board depends on little of the types of its nodes. The text of a tidy catalog tells all of it.

* `NodeType.Gist`: what of a type a board depends on;
* `NodeType.gist_of_compact`: types with the same text have the same gist;
* `EffectiveCatalog.gist_of_compact`: so have the types of a name in catalogs with the same text.
-/

namespace BoardDesign

open Json (compact told)

/-! ## Fields of a record -/

section Fields

variable {α : Type _} {name other : String}

/-- A field that is written if there is a value. -/
@[simp] theorem findEntry_ofOption (x : Option α) (f : α → Json) :
    findEntry name (x.map fun v => (other, f v)).toList =
      if name = other then x.map f else none := by
  cases x <;> simp [findEntry]

@[simp] theorem findEntry_ofOption_value (x : Option Json) :
    findEntry name (x.map fun v => (other, v)).toList = if name = other then x else none := by
  cases x <;> simp [findEntry]

/-- A field that is written unless a condition holds. -/
@[simp] theorem findEntry_unless (c : Prop) [Decidable c] (v : Json) :
    findEntry name (if c then [] else [(other, v)]) =
      if name = other then (if c then none else some v) else none := by
  by_cases h : c <;> simp [h, findEntry]

@[simp] theorem findEntry_when (c : Prop) [Decidable c] (v : Json) :
    findEntry name (if c then [(other, v)] else []) =
      if name = other then (if c then some v else none) else none := by
  by_cases h : c <;> simp [h, findEntry]

/-- A list that is written unless it is empty. -/
theorem map_eq_of_filled {β : Type _} {f : α → β} {g : List α → Json}
    (tells : ∀ xs ys, (g xs).compact = (g ys).compact → xs.map f = ys.map f) {xs ys : List α}
    (same : (if xs.isEmpty then none else some (g xs)).map compact =
      (if ys.isEmpty then none else some (g ys)).map compact) : xs.map f = ys.map f := by
  cases xs <;> cases ys
  · rfl
  · cases same
  · cases same
  · exact tells _ _ (Option.some.inj same)

end Fields

/-! ## Types -/

namespace Property

/-- What a board depends on: the name, and the text of the default. -/
def gist (p : Property) : String × Option String := (p.name, p.default.map compact)

theorem gist_of_compact {p q : Property} (tidy : p.Tidy) (tidy' : q.Tidy)
    (same : p.toJson.compact = q.toJson.compact) : p.gist = q.gist := by
  have name (p : Property) : p.toJson.field? "name" = some (.str p.name) := rfl
  have default {p : Property} (tidy : p.Tidy) : p.toJson.field? "default" = p.default := by
    have none : findEntry "default" p.extra.toList = none := tidy "default" (by decide)
    simp [toJson, Json.field?, findEntry_append, none, findEntry]
  have names := Json.field?_of_compact same "name"
  have defaults := Json.field?_of_compact same "default"
  rw [name, name] at names
  rw [default tidy, default tidy'] at defaults
  have equal : p.name = q.name := by simpa using names
  exact Prod.ext equal defaults

end Property

namespace NodeType

/-- What of a type a board depends on. -/
@[ext] structure Gist where
  category : Option String
  isAbstract : Bool
  modelName : Option String
  compats : List String
  properties : List (String × Option String)

def gist (t : NodeType) : Gist :=
  ⟨t.category, t.isAbstract, t.modelName, t.compats, t.properties.map Property.gist⟩

section Tidy

variable {t u : NodeType} (tidy : t.Tidy)
include tidy

theorem Tidy.findEntry (name : String) (mem : name ∈ known) :
    findEntry name t.extra.toList = none := tidy.extra name mem

theorem field?_category : t.toJson.field? "category" = t.category.map .str := by
  simp [toJson, Json.field?, findEntry_append, tidy.findEntry "category" (by decide),
    findEntry]

theorem field?_properties : t.toJson.field? "properties" =
    if t.properties.isEmpty then none else some (.arr (t.properties.map Property.toJson)) := by
  simp [toJson, Json.field?, findEntry_append, tidy.findEntry "properties" (by decide),
    findEntry]

theorem field?_abstract :
    t.toJson.field? "abstract" = if t.isAbstract then some (.bool true) else none := by
  simp [toJson, Json.field?, findEntry_append, tidy.findEntry "abstract" (by decide),
    findEntry]

theorem field?_urls :
    t.toJson.field? "urls" = if t.urls.isEmpty then none else some (.ofTable t.urls) := by
  simp [toJson, Json.field?, findEntry_append, tidy.findEntry "urls" (by decide),
    findEntry]

theorem field?_additionalData : t.toJson.field? "additionalData" = t.additionalData := by
  simp [toJson, Json.field?, findEntry_append,
    tidy.findEntry "additionalData" (by decide), findEntry]

end Tidy

section Congr

variable {t u : NodeType}

theorem modelName_congr (urls : t.urls.map compact = u.urls.map compact) :
    t.modelName = u.modelName := by
  have page := congrArg (Table.get? · "rdp") urls
  rw [Table.get?_map, Table.get?_map] at page
  rw [modelName, modelName, bind_eq_of_map_eq (fun _ _ => Json.str?_of_compact) page]

theorem compats_congr (data : t.additionalData.map compact = u.additionalData.map compact) :
    t.compats = u.compats := by
  let strings (items : List Json) : Option (List String) := some (items.filterMap Json.str?)
  have whole (t : NodeType) : t.compats =
      (((t.additionalData.bind (·.field? "compats")).bind Json.list?).bind strings).getD [] := by
    unfold compats
    split <;> simp [strings, *]
  have fields : (t.additionalData.bind (·.field? "compats")).map compact =
      (u.additionalData.bind (·.field? "compats")).map compact := by
    rw [Option.map_bind, Option.map_bind]
    exact bind_eq_of_map_eq (fun _ _ same => Json.field?_of_compact same "compats") data
  have items : ((t.additionalData.bind (·.field? "compats")).bind Json.list?).map (List.map compact) =
      ((u.additionalData.bind (·.field? "compats")).bind Json.list?).map (List.map compact) := by
    rw [Option.map_bind, Option.map_bind]
    exact bind_eq_of_map_eq (fun _ _ => Json.list?_of_compact) fields
  have texts := bind_eq_of_map_eq (g := strings) (fun _ _ same =>
    congrArg some (filterMap_eq_of_map_eq (fun _ _ => Json.str?_of_compact) same)) items
  rw [whole, whole, texts]

end Congr

/-- The text of a type tells all that a board depends on. -/
theorem gist_of_compact {t u : NodeType} (tidy : t.Tidy) (tidy' : u.Tidy)
    (same : t.toJson.compact = u.toJson.compact) : t.gist = u.gist := by
  have field := Json.field?_of_compact same
  have category := field "category"
  have isAbstract := field "abstract"
  have urls := field "urls"
  have data := field "additionalData"
  have properties := field "properties"
  rw [field?_category tidy, field?_category tidy'] at category
  rw [field?_abstract tidy, field?_abstract tidy'] at isAbstract
  rw [field?_urls tidy, field?_urls tidy'] at urls
  rw [field?_additionalData tidy, field?_additionalData tidy'] at data
  rw [field?_properties tidy, field?_properties tidy'] at properties
  have categories : t.category = u.category := by
    cases known : t.category <;> cases known' : u.category <;> simp_all
  have abstracts : t.isAbstract = u.isAbstract := by
    cases known : t.isAbstract <;> cases known' : u.isAbstract <;> simp_all
  have pages : t.urls.map compact = u.urls.map compact :=
    (Table.map_eq_iff compact).mpr
      (map_eq_of_filled (g := Json.obj) (fun _ _ => Json.compact_obj_inj.mp) urls)
  have members : t.properties.map (compact ∘ Property.toJson) =
      u.properties.map (compact ∘ Property.toJson) :=
    map_eq_of_filled (g := fun ps => .arr (ps.map Property.toJson))
      (fun _ _ same => by simpa using same) properties
  have gists := map_eq_of_map_eq (fun p mem q mem' =>
    Property.gist_of_compact (tidy.properties p mem) (tidy'.properties q mem')) members
  exact Gist.ext categories abstracts (modelName_congr pages) (compats_congr data) gists

end NodeType

/-! ## Catalogs -/

namespace EffectiveCatalog

/-- The text of a catalog tells all that a board depends on of its types. -/
theorem gist_of_compact {c e : EffectiveCatalog} (tidy : c.Tidy) (tidy' : e.Tidy)
    (same : c.toJson.compact = e.toJson.compact) (name : String) :
    (c.get? name).map NodeType.gist = (e.get? name).map NodeType.gist := by
  have resolved : c.resolved.toList.map (told ∘ fun x => (x.1, x.2.toJson)) =
      e.resolved.toList.map (told ∘ fun x => (x.1, x.2.toJson)) := by
    have fields := Json.compact_obj_inj.mp same
    simp only [List.map_cons, List.map_nil, List.cons.injEq, told, Prod.mk.injEq, true_and,
      and_true, Json.compact_obj_inj, List.map_map] at fields
    exact fields.2
  have texts := congrArg (Table.get? · name)
    ((Table.map_eq_iff fun t : NodeType => t.toJson.compact).mpr resolved)
  rw [Table.get?_map, Table.get?_map] at texts
  change (c.resolved.get? name).map _ = (e.resolved.get? name).map _
  cases known : c.resolved.get? name with
  | none =>
    rw [known, Option.map_none, eq_comm, Option.map_eq_none_iff] at texts
    rw [texts, Option.map_none]
  | some t =>
    rw [known, Option.map_some, eq_comm, Option.map_eq_some_iff] at texts
    obtain ⟨u, known', alike⟩ := texts
    rw [known', Option.map_some, Option.map_some,
      NodeType.gist_of_compact (tidy name t known) (tidy' name u known') alike.symm]

end EffectiveCatalog

end BoardDesign
