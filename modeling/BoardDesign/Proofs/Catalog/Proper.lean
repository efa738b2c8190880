import BoardDesign.Catalog.Modification
import BoardDesign.Proofs.Catalog.Steps
import BoardDesign.Proofs.Json.Record
import Mathlib.Data.Option.Basic

/-!
# Records of a catalog as they are read and written

* `Property.ReadFrom` and its like: the fields that a record is read from;
* `Property.Proper` and its like: records as they are after reading (`proper_of_ofJson?`);
* `ofJson?_toJson`: they are read back from what is written of them;
* `keeps_ofJson?`: every record is read from its value tidied as from the value itself;
* `Catalog.Proper.compose`: a catalog composed of what has been read is as if it had been read;
* `NodeType.Tidy`: no further field of a type or of one of its properties is called like one that is
  known, which would give its text two readings. So it is with every type of a catalog that is
  composed of what has been read (`Catalog.tidy_of_compose`).
-/

namespace BoardDesign

open Json (Further Keeps)

/-! ## Properties -/

namespace Property

/-- As it is after reading: its type called by its own name, all values in the form in which they
are kept. -/
structure Proper (p : Property) : Prop where
  kind : .ofName p.kind.name = p.kind
  default : ∀ x, p.default = some x → x ≠ .null ∧ x.normal = x
  values : ∀ x ∈ p.values, x.normal = x
  extra : Further known p.extra

/-- The value of a field as it is written. -/
def written? (p : Property) : String → Option Json
  | "name" => some (.str p.name)
  | "type" => some (.str p.kind.name)
  | "default" => p.default
  | "values" => if p.values.isEmpty then none else some (.arr p.values)
  | _ => none

theorem toJson_eq (p : Property) :
    p.toJson = .obj (Json.Fields.write known p.written? p.extra) := by
  simp [toJson, Json.Fields.write, known, written?, Json.Fields.toList_unless]

/-- The fields that the record is read from. -/
structure ReadFrom (p : Property) (fields : List (String × Json)) : Prop where
  name : Json.Fields.required fields "name" Json.str? = some p.name
  kind : ∃ kind, Json.Fields.required fields "type" Json.str? = some kind ∧ .ofName kind = p.kind
  default : Json.Fields.optional fields "default" (fun v => some v.normal) = some p.default
  values : Json.Fields.default fields "values" [] (Json.listOf? fun v => some v.normal) =
    some p.values
  extra : Json.Fields.extra known fields = p.extra

variable {p : Property} {v : Json}

theorem ofJson?_eq_some_iff : ofJson? v = some p ↔
    ∃ fields, Json.Fields.of? known v = some fields ∧ p.ReadFrom fields := by
  simp only [ofJson?, Option.bind_eq_bind, Option.bind_eq_some_iff, Option.some.injEq]
  constructor
  · rintro ⟨fields, record, name, named, kind, typed, default, given, values, items, rfl⟩
    exact ⟨fields, record, named, ⟨kind, typed, rfl⟩, given, items, rfl⟩
  · rintro ⟨fields, record, read⟩
    obtain ⟨kind, typed, is⟩ := read.kind
    exact ⟨fields, record, p.name, read.name, kind, typed, p.default, read.default, p.values,
      read.values, by rw [is, read.extra]⟩

theorem proper_of_ofJson? (holds : ofJson? v = some p) : p.Proper := by
  obtain ⟨fields, -, read⟩ := ofJson?_eq_some_iff.mp holds
  obtain ⟨kind, -, is⟩ := read.kind
  refine ⟨by rw [← is, PropertyType.name_ofName], fun x => Json.filled_of_optional read.default,
    fun x mem => ?_, read.extra ▸ Json.further_extra fields⟩
  obtain ⟨b, same⟩ := Json.exists_of_mem_default read.values mem
  cases same
  exact Json.normal_normal b

theorem ofJson?_toJson (proper : p.Proper) : ofJson? p.toJson = some p := by
  have found {k : String} (mem : k ∈ known) :
      findEntry k (Json.Fields.write known p.written? p.extra) = p.written? k :=
    Json.Fields.findEntry_write (by decide) proper.extra mem
  rw [toJson_eq]
  exact ofJson?_eq_some_iff.mpr ⟨_, Json.Fields.of?_write (by decide) proper.extra,
    { name := Json.required_of_some (found (k := "name") (by decide)) rfl
      kind := ⟨_, Json.required_of_some (found (k := "type") (by decide)) rfl, proper.kind⟩
      default := Json.optional_of_normal (found (k := "default") (by decide)) proper.default
      values := Json.default_of_normal (found (k := "values") (by decide)) proper.values
      extra := Json.Fields.extra_write proper.extra }⟩

theorem keeps_ofJson? : Keeps ofJson? :=
  Json.keeps_of_fields (fun _ _ => ofJson?_eq_some_iff) fun p _ _ read h =>
    { name := Json.keeps_str?.required (h.same "name" (by decide)) read.name
      kind := read.kind.imp fun _ =>
        And.imp_left (Json.keeps_str?.required (h.same "type" (by decide)))
      default := Json.keeps_normal.optional (h.same "default" (by decide)) read.default
      values := (Json.keeps_listOf? Json.keeps_normal).default (h.same "values" (by decide))
        read.values
      extra := h.extra.trans read.extra }

end Property

/-! ## Interfaces -/

theorem Direction.ofJson?_toJson (d : Direction) : ofJson? d.toJson = some d := d.ofText?_text

theorem Direction.keeps_ofJson? : Keeps ofJson? := by
  intro v v' d tidied read
  cases v with
  | str s => rwa [tidied.of_str]
  | obj fields =>
    match fields with
    | [(k, x)] =>
      obtain ⟨y, rfl, value⟩ := tidied.of_singleton
      cases x with
      | null => rwa [value.null_iff.mpr rfl]
      | _ => cases read
    | [] => cases read
    | f :: g :: rest => simp [ofJson?] at read
  | _ => cases read

theorem TypeTags.ofJson?_toJson (t : TypeTags) : ofJson? t.toJson = some t := by
  obtain ⟨tags⟩ := t
  match tags with
  | [] | [_] => rfl
  | tag :: tag' :: rest => exact congrArg (Option.map mk) (Json.listOf?_map fun s _ => rfl)

theorem TypeTags.keeps_ofJson? : Keeps ofJson? := by
  intro v v' t tidied read
  cases v with
  | str s => rwa [tidied.of_str]
  | arr items =>
    obtain ⟨tags, each, rfl⟩ := Option.map_eq_some_iff.mp read
    have each' := Json.keeps_strings? _ v' tags tidied each
    obtain ⟨items', rfl, -⟩ := tidied.of_arr
    exact congrArg (Option.map mk) each'
  | _ => cases read

namespace Interface

structure Proper (i : Interface) : Prop where
  limit : ∀ n, i.maxConnections = some n → Json.int64? (.int n) = some n
  extra : Further known i.extra

/-- The value of a field as it is written. -/
def written? (i : Interface) : String → Option Json
  | "name" => some (.str i.name)
  | "direction" => some i.direction.toJson
  | "side" => i.side.map .str
  | "type" => if i.tags.isEmpty then none else some i.tags.toJson
  | "maxConnectionsCount" => i.maxConnections.map .int
  | _ => none

theorem toJson_eq (i : Interface) :
    i.toJson = .obj (Json.Fields.write known i.written? i.extra) := by
  simp [toJson, Json.Fields.write, known, written?, Json.Fields.toList_unless, Function.comp_def]

/-- The fields that the record is read from. -/
structure ReadFrom (i : Interface) (fields : List (String × Json)) : Prop where
  name : Json.Fields.required fields "name" Json.str? = some i.name
  direction : Json.Fields.default fields "direction" .inout Direction.ofJson? = some i.direction
  side : Json.Fields.optional fields "side" Json.str? = some i.side
  tags : Json.Fields.default fields "type" ⟨[]⟩ TypeTags.ofJson? = some i.tags
  limit : Json.Fields.optional fields "maxConnectionsCount" Json.int64? = some i.maxConnections
  extra : Json.Fields.extra known fields = i.extra

variable {i : Interface} {v : Json}

theorem ofJson?_eq_some_iff : ofJson? v = some i ↔
    ∃ fields, Json.Fields.of? known v = some fields ∧ i.ReadFrom fields := by
  simp only [ofJson?, Option.bind_eq_bind, Option.bind_eq_some_iff, Option.some.injEq]
  constructor
  · rintro ⟨fields, record, name, named, direction, way, side, placed, tags, tagged, limit, bounded,
      rfl⟩
    exact ⟨fields, record, named, way, placed, tagged, bounded, rfl⟩
  · rintro ⟨fields, record, read⟩
    exact ⟨fields, record, i.name, read.name, i.direction, read.direction, i.side, read.side,
      i.tags, read.tags, i.maxConnections, read.limit, by rw [read.extra]⟩

theorem proper_of_ofJson? (holds : ofJson? v = some i) : i.Proper := by
  obtain ⟨fields, -, read⟩ := ofJson?_eq_some_iff.mp holds
  refine ⟨fun n is => ?_, read.extra ▸ Json.further_extra fields⟩
  obtain ⟨b, -, same⟩ := Json.exists_of_optional read.limit is
  cases b with
  | int m =>
    obtain rfl : m = n := by
      simp only [Json.int64?, Option.ite_none_right_eq_some, Option.some.injEq] at same
      exact same.2
    exact same
  | _ => cases same

theorem ofJson?_toJson (proper : i.Proper) : ofJson? i.toJson = some i := by
  have found {k : String} (mem : k ∈ known) :
      findEntry k (Json.Fields.write known i.written? i.extra) = i.written? k :=
    Json.Fields.findEntry_write (by decide) proper.extra mem
  rw [toJson_eq]
  exact ofJson?_eq_some_iff.mpr ⟨_, Json.Fields.of?_write (by decide) proper.extra,
    { name := Json.required_of_some (found (k := "name") (by decide)) rfl
      direction := Json.default_of_some .inout (found (k := "direction") (by decide))
        i.direction.ofJson?_toJson
      side := Json.optional_of_option (found (k := "side") (by decide)) fun s _ => ⟨nofun, rfl⟩
      tags := Json.default_of_unless (found (k := "type") (by decide))
        (fun none => congrArg TypeTags.mk (List.isEmpty_iff.mp none)) i.tags.ofJson?_toJson
      limit := Json.optional_of_option (found (k := "maxConnectionsCount") (by decide))
        fun n is => ⟨nofun, proper.limit n is⟩
      extra := Json.Fields.extra_write proper.extra }⟩

theorem keeps_ofJson? : Keeps ofJson? :=
  Json.keeps_of_fields (fun _ _ => ofJson?_eq_some_iff) fun i _ _ read h =>
    { name := Json.keeps_str?.required (h.same "name" (by decide)) read.name
      direction := Direction.keeps_ofJson?.default (h.same "direction" (by decide)) read.direction
      side := Json.keeps_str?.optional (h.same "side" (by decide)) read.side
      tags := TypeTags.keeps_ofJson?.default (h.same "type" (by decide)) read.tags
      limit := Json.keeps_int64?.optional (h.same "maxConnectionsCount" (by decide)) read.limit
      extra := h.extra.trans read.extra }

end Interface

/-! ## Node types -/

namespace NodeType

structure Proper (t : NodeType) : Prop where
  properties : ∀ p ∈ t.properties, p.Proper
  interfaces : ∀ i ∈ t.interfaces, i.Proper
  urls : Further [] t.urls
  additionalData : ∀ x, t.additionalData = some x → x ≠ .null ∧ x.normal = x
  extra : Further known t.extra

/-- The value of a field as it is written. -/
def written? (t : NodeType) : String → Option Json
  | "name" => some (.str t.name)
  | "category" => t.category.map .str
  | "properties" =>
    if t.properties.isEmpty then none else some (.arr (t.properties.map Property.toJson))
  | "interfaces" =>
    if t.interfaces.isEmpty then none else some (.arr (t.interfaces.map Interface.toJson))
  | "abstract" => if t.isAbstract then some (.bool true) else none
  | "isCategory" => if t.isCategory then some (.bool true) else none
  | "extends" => if t.extending.isEmpty then none else some (.arr (t.extending.map .str))
  | "urls" => if t.urls.isEmpty then none else some (.ofTable t.urls)
  | "additionalData" => t.additionalData
  | _ => none

theorem toJson_eq (t : NodeType) :
    t.toJson = .obj (Json.Fields.write known t.written? t.extra) := by
  simp [toJson, Json.Fields.write, known, written?, Json.Fields.toList_unless,
    Json.Fields.toList_if, Function.comp_def]

/-- The fields that the record is read from. -/
structure ReadFrom (t : NodeType) (fields : List (String × Json)) : Prop where
  name : Json.Fields.required fields "name" Json.str? = some t.name
  category : Json.Fields.optional fields "category" Json.str? = some t.category
  properties : Json.Fields.default fields "properties" [] (Json.listOf? Property.ofJson?) =
    some t.properties
  interfaces : Json.Fields.default fields "interfaces" [] (Json.listOf? Interface.ofJson?) =
    some t.interfaces
  isAbstract : Json.Fields.default fields "abstract" false Json.bool? = some t.isAbstract
  isCategory : Json.Fields.default fields "isCategory" false Json.bool? = some t.isCategory
  extending : Json.Fields.default fields "extends" [] Json.strings? = some t.extending
  urls : Json.Fields.default fields "urls" .empty Json.table? = some t.urls
  additionalData : Json.Fields.optional fields "additionalData" (fun v => some v.normal) =
    some t.additionalData
  extra : Json.Fields.extra known fields = t.extra

variable {t : NodeType} {v : Json}

theorem ofJson?_eq_some_iff : ofJson? v = some t ↔
    ∃ fields, Json.Fields.of? known v = some fields ∧ t.ReadFrom fields := by
  simp only [ofJson?, Option.bind_eq_bind, Option.bind_eq_some_iff, Option.some.injEq]
  constructor
  · rintro ⟨fields, record, name, named, category, placed, properties, members, interfaces, points,
      isAbstract, flag, isCategory, flag', extending, above, urls, pages, data, given, rfl⟩
    exact ⟨fields, record, named, placed, members, points, flag, flag', above, pages, given, rfl⟩
  · rintro ⟨fields, record, read⟩
    exact ⟨fields, record, t.name, read.name, t.category, read.category, t.properties,
      read.properties, t.interfaces, read.interfaces, t.isAbstract, read.isAbstract, t.isCategory,
      read.isCategory, t.extending, read.extending, t.urls, read.urls, t.additionalData,
      read.additionalData, by rw [read.extra]⟩

theorem proper_of_ofJson? (holds : ofJson? v = some t) : t.Proper := by
  obtain ⟨fields, -, read⟩ := ofJson?_eq_some_iff.mp holds
  refine ⟨fun p mem => ?_, fun i mem => ?_, Json.further_default read.urls,
    fun x => Json.filled_of_optional read.additionalData, read.extra ▸ Json.further_extra fields⟩
  · obtain ⟨b, holds⟩ := Json.exists_of_mem_default read.properties mem
    exact Property.proper_of_ofJson? holds
  · obtain ⟨b, holds⟩ := Json.exists_of_mem_default read.interfaces mem
    exact Interface.proper_of_ofJson? holds

theorem ofJson?_toJson (proper : t.Proper) : ofJson? t.toJson = some t := by
  have found {k : String} (mem : k ∈ known) :
      findEntry k (Json.Fields.write known t.written? t.extra) = t.written? k :=
    Json.Fields.findEntry_write (by decide) proper.extra mem
  rw [toJson_eq]
  exact ofJson?_eq_some_iff.mpr ⟨_, Json.Fields.of?_write (by decide) proper.extra,
    { name := Json.required_of_some (found (k := "name") (by decide)) rfl
      category := Json.optional_of_option (found (k := "category") (by decide))
        fun s _ => ⟨nofun, rfl⟩
      properties := Json.default_of_list (found (k := "properties") (by decide))
        fun p mem => Property.ofJson?_toJson (proper.properties p mem)
      interfaces := Json.default_of_list (found (k := "interfaces") (by decide))
        fun i mem => Interface.ofJson?_toJson (proper.interfaces i mem)
      isAbstract := Json.default_of_flag (found (k := "abstract") (by decide))
      isCategory := Json.default_of_flag (found (k := "isCategory") (by decide))
      extending := Json.default_of_strings (found (k := "extends") (by decide))
      urls := Json.default_of_unless (found (k := "urls") (by decide))
        (fun none => Table.eq_empty none) (Json.table?_ofTable proper.urls)
      additionalData := Json.optional_of_normal (found (k := "additionalData") (by decide))
        proper.additionalData
      extra := Json.Fields.extra_write proper.extra }⟩

theorem keeps_ofJson? : Keeps ofJson? :=
  Json.keeps_of_fields (fun _ _ => ofJson?_eq_some_iff) fun t _ _ read h =>
    { name := Json.keeps_str?.required (h.same "name" (by decide)) read.name
      category := Json.keeps_str?.optional (h.same "category" (by decide)) read.category
      properties := (Json.keeps_listOf? Property.keeps_ofJson?).default
        (h.same "properties" (by decide)) read.properties
      interfaces := (Json.keeps_listOf? Interface.keeps_ofJson?).default
        (h.same "interfaces" (by decide)) read.interfaces
      isAbstract := Json.keeps_bool?.default (h.same "abstract" (by decide)) read.isAbstract
      isCategory := Json.keeps_bool?.default (h.same "isCategory" (by decide)) read.isCategory
      extending := Json.keeps_strings?.default (h.same "extends" (by decide)) read.extending
      urls := Json.keeps_table?.default (h.same "urls" (by decide)) read.urls
      additionalData := Json.keeps_normal.optional (h.same "additionalData" (by decide))
        read.additionalData
      extra := h.extra.trans read.extra }

end NodeType

/-! ## Catalogs -/

/-- A document that is given out if it passes its check. -/
theorem checked_eq_ok_iff {ε α : Type} {check : Except ε Unit} {a b : α} :
    (check.map fun _ => a) = .ok b ↔ a = b ∧ check = .ok () := by
  cases check <;> simp [Except.map]

namespace Catalog

structure Proper (c : Catalog) : Prop where
  metadata : Further [] c.metadata
  nodes : ∀ t ∈ c.nodes, t.Proper
  extra : Further known c.extra

/-- The value of a field as it is written. -/
def written? (c : Catalog) : String → Option Json
  | "metadata" => some (.ofTable c.metadata)
  | "nodes" => some (.arr (c.nodes.map NodeType.toJson))
  | _ => none

theorem toJson_eq (c : Catalog) : c.toJson = .obj (Json.Fields.write known c.written? c.extra) :=
  rfl

/-- The fields that the record is read from. -/
structure ReadFrom (c : Catalog) (fields : List (String × Json)) : Prop where
  metadata : Json.Fields.default fields "metadata" .empty Json.table? = some c.metadata
  nodes : Json.Fields.default fields "nodes" [] (Json.listOf? NodeType.ofJson?) = some c.nodes
  extra : Json.Fields.extra known fields = c.extra

variable {c : Catalog} {v : Json}

theorem ofJson?_eq_some_iff : ofJson? v = some c ↔
    ∃ fields, Json.Fields.of? known v = some fields ∧ c.ReadFrom fields := by
  simp only [ofJson?, Option.bind_eq_bind, Option.bind_eq_some_iff, Option.some.injEq]
  constructor
  · rintro ⟨fields, record, metadata, kept, nodes, types, rfl⟩
    exact ⟨fields, record, kept, types, rfl⟩
  · rintro ⟨fields, record, read⟩
    exact ⟨fields, record, c.metadata, read.metadata, c.nodes, read.nodes, by rw [read.extra]⟩

theorem proper_of_ofJson? (holds : ofJson? v = some c) : c.Proper := by
  obtain ⟨fields, -, read⟩ := ofJson?_eq_some_iff.mp holds
  refine ⟨Json.further_default read.metadata, fun t mem => ?_,
    read.extra ▸ Json.further_extra fields⟩
  obtain ⟨b, holds⟩ := Json.exists_of_mem_default read.nodes mem
  exact NodeType.proper_of_ofJson? holds

theorem ofJson?_toJson (proper : c.Proper) : ofJson? c.toJson = some c := by
  have found {k : String} (mem : k ∈ known) :
      findEntry k (Json.Fields.write known c.written? c.extra) = c.written? k :=
    Json.Fields.findEntry_write (by decide) proper.extra mem
  rw [toJson_eq]
  exact ofJson?_eq_some_iff.mpr ⟨_, Json.Fields.of?_write (by decide) proper.extra,
    { metadata := Json.default_of_some .empty (found (k := "metadata") (by decide))
        (Json.table?_ofTable proper.metadata)
      nodes := Json.default_of_some [] (found (k := "nodes") (by decide))
        (Json.listOf?_map fun t mem => NodeType.ofJson?_toJson (proper.nodes t mem))
      extra := Json.Fields.extra_write proper.extra }⟩

theorem keeps_ofJson? : Json.Keeps ofJson? :=
  Json.keeps_of_fields (fun _ _ => ofJson?_eq_some_iff) fun c _ _ read h =>
    { metadata := Json.keeps_table?.default (h.same "metadata" (by decide)) read.metadata
      nodes := (Json.keeps_listOf? NodeType.keeps_ofJson?).default (h.same "nodes" (by decide))
        read.nodes
      extra := h.extra.trans read.extra }

theorem read_eq_ok_iff {text : String} :
    read text = .ok c ↔ (Json.parse text).bind ofJson? = some c ∧ c.check = .ok () := by
  unfold Catalog.read
  cases (Json.parse text).bind ofJson? with
  | none => simp
  | some d =>
    rw [checked_eq_ok_iff, Option.some.injEq]
    exact and_congr_right fun same => by rw [same]

theorem proper_of_read {text : String} (h : Catalog.read text = .ok c) : c.Proper := by
  obtain ⟨v, -, read⟩ := Option.bind_eq_some_iff.mp (read_eq_ok_iff.mp h).1
  exact proper_of_ofJson? read

end Catalog

/-! ## Modifications -/

structure MemberAddition.Proper (a : MemberAddition) : Prop where
  properties : ∀ p ∈ a.properties, p.Proper
  interfaces : ∀ i ∈ a.interfaces, i.Proper

theorem MemberAddition.proper_of_ofJson? {v : Json} {a : MemberAddition}
    (read : ofJson? v = some a) : a.Proper := by
  simp only [ofJson?, Option.bind_eq_bind, Option.bind_eq_some_iff, Option.some.injEq] at read
  obtain ⟨fields, -, names, -, properties, members, interfaces, points, rfl⟩ := read
  refine ⟨fun p mem => ?_, fun i mem => ?_⟩
  · obtain ⟨b, read⟩ := Json.exists_of_mem_default members mem
    exact Property.proper_of_ofJson? read
  · obtain ⟨b, read⟩ := Json.exists_of_mem_default points mem
    exact Interface.proper_of_ofJson? read

namespace Modification

structure Proper (m : Modification) : Prop where
  metadata : Further [] m.metadata
  addedNodes : ∀ t ∈ m.addedNodes, t.Proper
  additions : ∀ a ∈ m.additions, a.Proper

variable {m : Modification}

theorem proper_of_ofJson? {v : Json} (read : ofJson? v = some m) : m.Proper := by
  simp only [ofJson?, Option.bind_eq_bind, Option.bind_eq_some_iff, Option.some.injEq] at read
  obtain ⟨fields, -, metadata, kept, nodes, types, additions, entries, rfl⟩ := read
  refine ⟨Json.further_default kept, fun t mem => ?_, fun a mem => ?_⟩
  · obtain ⟨b, read⟩ := Json.exists_of_mem_default types mem
    exact NodeType.proper_of_ofJson? read
  · obtain ⟨b, read⟩ := Json.exists_of_mem_default entries mem
    exact MemberAddition.proper_of_ofJson? read

theorem read_eq_ok_iff {text origin : String} :
    read text origin = .ok m ↔
      (Json.parse text).bind ofJson? = some m ∧ m.check origin = .ok () := by
  unfold Modification.read
  cases (Json.parse text).bind ofJson? with
  | none => simp
  | some n =>
    rw [checked_eq_ok_iff, Option.some.injEq]
    exact and_congr_right fun same => by rw [same]

theorem proper_of_read {text origin : String} (h : Modification.read text origin = .ok m) :
    m.Proper := by
  obtain ⟨v, -, read⟩ := Option.bind_eq_some_iff.mp (read_eq_ok_iff.mp h).1
  exact proper_of_ofJson? read

end Modification

/-! ## What has been composed -/

namespace NodeType.Proper

variable {t u : NodeType}

theorem mem_foldl_pushNew {α : Type _} {key : α → String} {xs ys : List α} {x : α}
    (mem : x ∈ ys.foldl (pushNew key) xs) : x ∈ xs ∨ x ∈ ys := by
  induction ys generalizing xs with
  | nil => exact .inl mem
  | cons y rest ih =>
    rcases ih mem with before | after
    · unfold pushNew at before
      split at before
      · exact .inl before
      · refine (List.mem_append.mp before).imp_right fun last => ?_
        rw [List.mem_singleton.mp last]
        exact .head rest
    · exact .inr (.tail _ after)

theorem mergeMembers (h : t.Proper) {ps : List Property} {is : List Interface}
    (properties : ∀ p ∈ ps, p.Proper) (interfaces : ∀ i ∈ is, i.Proper) :
    (t.mergeMembers ps is).Proper := by
  rw [mergeMembers_eq]
  exact { h with
    properties := fun p mem => (mem_foldl_pushNew mem).elim (h.properties p) (properties p)
    interfaces := fun i mem => (mem_foldl_pushNew mem).elim (h.interfaces i) (interfaces i) }

theorem inherit (h : t.Proper) (h' : u.Proper) : (t.inherit u).Proper := by
  have merged := h.mergeMembers h'.properties h'.interfaces
  refine { merged with urls := merged.urls.fill h'.urls, additionalData := fun x is => ?_ }
  rcases (Option.orElse_eq_some _ _ x).mp is with own | ⟨-, above⟩
  · exact merged.additionalData x own
  · exact h'.additionalData x above

theorem foldl_inherit (h : t.Proper) {above : List NodeType} (all : ∀ u ∈ above, u.Proper) :
    (above.foldl NodeType.inherit t).Proper := by
  induction above generalizing t with
  | nil => exact h
  | cons u rest ih => exact ih (h.inherit (all u (.head _))) fun v mem => all v (.tail _ mem)

end NodeType.Proper

namespace Catalog

variable {c d : Catalog} {index : Nat}

theorem foldlM_keeps {σ α : Type} {f : σ → α → Except Error σ} {P : σ → Prop} {xs : List α}
    {s s' : σ} (keeps : ∀ s s', ∀ x ∈ xs, P s → f s x = .ok s' → P s') (start : P s)
    (h : xs.foldlM f s = .ok s') : P s' := by
  induction xs generalizing s with
  | nil =>
    cases h
    exact start
  | cons x rest ih =>
    rw [List.foldlM_cons] at h
    obtain ⟨s₁, first, others⟩ := bind_eq_ok h
    have next : P s₁ := keeps s s₁ x (.head _) start first
    exact ih (fun s s' y mem => keeps s s' y (.tail _ mem)) next others

theorem Walk.mem {names : List String} {ts : List NodeType} (h : c.Walk names ts) :
    ∀ t ∈ ts, t ∈ c.nodes := by
  induction h with
  | nil => simp
  | missing _ _ ih => exact ih
  | node found _ _ up next =>
    rw [List.cons_append, List.forall_mem_cons, List.forall_mem_append]
    exact ⟨List.mem_of_find?_eq_some found, up, next⟩

namespace Proper

theorem update (h : c.Proper) (name : String) {change : NodeType → NodeType}
    (keeps : ∀ t, t.Proper → (change t).Proper) : (c.update name change).Proper := by
  refine { h with nodes := fun t mem => ?_ }
  rcases mem_updateFirst mem with old | ⟨u, old, rfl⟩
  · exact h.nodes t old
  · exact keeps u (h.nodes u old)

theorem addNode (h : c.Proper) {t : NodeType} (proper : t.Proper) (added : c.addNode t = .ok d) :
    d.Proper := by
  unfold Catalog.addNode at added
  split at added
  · cases added
    exact { h with nodes := List.forall_mem_append.mpr ⟨h.nodes, by simpa using proper⟩ }
  · split at added
    · cases added
      exact h
    · cases added

theorem addMembers (h : c.Proper) {a : MemberAddition} (proper : a.Proper)
    (added : c.addMembers index a = .ok d) : d.Proper := by
  obtain ⟨-, rfl⟩ := addMembers_eq_ok_iff.mp added
  clear added
  unfold mergeAll
  generalize a.names = names
  induction names generalizing c with
  | nil => exact h
  | cons name rest ih =>
    exact ih (h.update name fun t old => old.mergeMembers proper.properties proper.interfaces)

theorem apply (h : c.Proper) {m : Modification} (proper : m.Proper)
    (applied : c.apply index m = .ok d) : d.Proper := by
  obtain ⟨c₁, nodes, members⟩ := bind_eq_ok applied
  have start : Proper { c with metadata := c.metadata.overlay m.metadata } :=
    { h with metadata := h.metadata.overlay proper.metadata }
  have added : c₁.Proper :=
    foldlM_keeps (fun _ _ t mem h' => h'.addNode (proper.addedNodes t mem)) start nodes
  exact foldlM_keeps (fun _ _ a mem h' => h'.addMembers (proper.additions a mem)) added members

theorem applyAll (h : c.Proper) {ms : List Modification} (proper : ∀ m ∈ ms, m.Proper)
    (applied : c.applyAll index ms = .ok d) : d.Proper := by
  induction ms generalizing c index with
  | nil =>
    cases applied
    exact h
  | cons m rest ih =>
    unfold Catalog.applyAll at applied
    split at applied
    · cases applied
    · rename_i first
      exact ih (h.apply (proper m (.head _)) first) (fun m mem => proper m (.tail _ mem)) applied

/-- A composed catalog and its types with all that they inherit are as what it is composed of. -/
theorem compose {ms : List Modification} {e : EffectiveCatalog} (h : c.Proper)
    (proper : ∀ m ∈ ms, m.Proper) (composed : c.compose ms = .ok e) :
    e.composed.Proper ∧ ∀ name t, e.get? name = some t → t.Proper := by
  obtain ⟨-, applied, flat⟩ := compose_eq_ok_iff.mp composed
  have all : e.composed.Proper := h.applyAll proper applied
  refine ⟨all, fun name t found => ?_⟩
  obtain ⟨own, above, entry, walk, rfl⟩ := (flatten_ok flat).1 name t found
  exact (all.nodes own (List.mem_of_find?_eq_some entry)).foldl_inherit
    fun u mem => all.nodes u (walk.mem u mem)

end Proper

end Catalog

end BoardDesign

/-! ## Catalogs without shadowed fields -/

namespace BoardDesign

/-- No further field is called like a field that is known. -/
def Property.Tidy (p : Property) : Prop := ∀ name ∈ known, p.extra.get? name = none

/-- No further field of the type or of one of its properties is called like one that is known. -/
structure NodeType.Tidy (t : NodeType) : Prop where
  extra : ∀ name ∈ known, t.extra.get? name = none
  properties : ∀ p ∈ t.properties, p.Tidy

/-- No further field of a resolved type is called like one that is known. -/
def EffectiveCatalog.Tidy (c : EffectiveCatalog) : Prop := ∀ name t, c.get? name = some t → t.Tidy

theorem Json.Further.get?_of_mem {known : List String} {name : String} {t : Table Json}
    (h : Further known t) (mem : name ∈ known) : t.get? name = none := by
  cases found : t.get? name with
  | none => rfl
  | some x => exact absurd mem (h name x found).1

theorem Property.Proper.tidy {p : Property} (h : p.Proper) : p.Tidy :=
  fun _ mem => h.extra.get?_of_mem mem

theorem NodeType.Proper.tidy {t : NodeType} (h : t.Proper) : t.Tidy :=
  ⟨fun _ mem => h.extra.get?_of_mem mem, fun p mem => (h.properties p mem).tidy⟩

/-- The types of a composed catalog are tidy if it is composed of what has been read. -/
theorem Catalog.tidy_of_compose {base : Catalog} {ms : List Modification} {e : EffectiveCatalog}
    (proper : base.Proper) (proper' : ∀ m ∈ ms, m.Proper) (composed : base.compose ms = .ok e) :
    e.Tidy :=
  fun name t found => ((proper.compose proper' composed).2 name t found).tidy

end BoardDesign
