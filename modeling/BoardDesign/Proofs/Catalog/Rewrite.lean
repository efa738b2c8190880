import BoardDesign.Program.Design
import BoardDesign.Proofs.Catalog.Proper
import BoardDesign.Proofs.File.Careful
import BoardDesign.Proofs.File.Reading
import BoardDesign.Proofs.Json.ReadBack
import BoardDesign.Proofs.Text.Utf8
import Mathlib.Data.Option.Basic

/-!
# Catalogs that are written again

* `Level`: the records within each other that a catalog consists of, and `Level.further?`: the
  fields that none of them knows;
* `Level.Alike.further?`: values that are read as one record have the same further fields, however
  deep;
* `Catalog.Proper.survives`: a catalog is read back from what is written of it, and
  `Catalog.survives_rewrite`: every catalog that has been read or composed is, in the file that it
  is written to as well.
-/

namespace BoardDesign

/-- Values that are read as one. -/
def Json.ReadAlike {α : Type} (f : Json → Option α) (v w : Json) : Prop :=
  ∃ x, f v = some x ∧ f w = some x

namespace Catalog

/-! ## Further fields, however deep -/

/-- The records of a catalog. -/
inductive Level where
  | catalog
  | nodeType
  | property
  | interface
deriving DecidableEq, Repr

namespace Level

def known : Level → List String
  | .catalog => Catalog.known
  | .nodeType => NodeType.known
  | .property => Property.known
  | .interface => Interface.known

/-- The fields that hold records of a deeper level. -/
def parts : Level → List (String × Level)
  | .catalog => [("nodes", .nodeType)]
  | .nodeType => [("properties", .property), ("interfaces", .interface)]
  | .property | .interface => []

/-- The value of a field that is not known, in the record or in one within it. The way there names
a field and the place of an item for every step down. -/
def further? (level : Level) (v : Json) : List (String × Nat) → String → Option Json
  | [], name => if name ∈ level.known then none else v.field? name
  | (part, i) :: way, name =>
    (findEntry part level.parts).bind fun deeper =>
      (v.item? part i).bind fun w => deeper.further? w way name

/-- Values that are read as one record. -/
def Alike : Level → Json → Json → Prop
  | .catalog => Json.ReadAlike ofJson?
  | .nodeType => Json.ReadAlike NodeType.ofJson?
  | .property => Json.ReadAlike Property.ofJson?
  | .interface => Json.ReadAlike Interface.ofJson?

variable {level deeper : Level} {v w : Json} {name part : String} {i : Nat}

theorem normal_of_item? (normal : v.normal = v) (item : v.item? part i = some w) :
    w.normal = w := by
  obtain ⟨items, list, there⟩ := Option.bind_eq_some_iff.mp item
  obtain ⟨x, field, isList⟩ := Option.bind_eq_some_iff.mp list
  have same : x.normal = x := Json.normal_of_field? (normal.symm ▸ field)
  cases x with
  | arr items' =>
    cases isList
    exact Json.normal_of_mem (Json.arr.inj same) (List.mem_of_getElem? there)
  | _ => cases isList

section Step

variable {known : List String} {fields fields' : List (String × Json)}
  (record : Json.Fields.of? known v = some fields)
  (record' : Json.Fields.of? known w = some fields')
include record record'

/-- A field that two records do not know has one value in both. -/
theorem field?_congr (normal : v.normal = v) (normal' : w.normal = w)
    (same : Json.Fields.extra known fields' = Json.Fields.extra known fields)
    (other : name ∉ known) :
    v.field? name = w.field? name := by
  obtain ⟨rfl, -⟩ := Json.of?_eq_some_iff.mp record
  obtain ⟨rfl, -⟩ := Json.of?_eq_some_iff.mp record'
  have found := Json.get?_extra_of_not_mem other fields
  rwa [← same, Json.get?_extra_of_not_mem other, normal, normal', eq_comm] at found

/-- The items of two lists that are read as one list are read alike in each place. -/
theorem item?_congr {α : Type} {f : Json → Option α} {xs : List α}
    (read : Json.Fields.default fields part [] (Json.listOf? f) = some xs)
    (read' : Json.Fields.default fields' part [] (Json.listOf? f) = some xs) (i : Nat) :
    Option.Rel (Json.ReadAlike f) (v.item? part i) (w.item? part i) := by
  obtain ⟨rfl, -⟩ := Json.of?_eq_some_iff.mp record
  obtain ⟨rfl, -⟩ := Json.of?_eq_some_iff.mp record'
  have each := Json.map_item? read i
  have each' := Json.map_item? read' i
  cases there : xs[i]? with
  | none =>
    rw [there, Option.map_none, Option.map_eq_none_iff] at each each'
    rw [each, each']
    exact .none
  | some x =>
    rw [there] at each each'
    obtain ⟨b, item, holds⟩ := Option.map_eq_some_iff.mp each
    obtain ⟨b', item', holds'⟩ := Option.map_eq_some_iff.mp each'
    rw [item, item']
    exact .some ⟨x, holds, holds'⟩

end Step

/-- Values of one record agree in every field that the record does not know, and the items of its
parts are values of one record again. -/
theorem Alike.step (alike : Alike level v w) (normal : v.normal = v) (normal' : w.normal = w) :
    (∀ name ∉ level.known, v.field? name = w.field? name) ∧
      ∀ part deeper, (part, deeper) ∈ level.parts →
        ∀ i, Option.Rel (Alike deeper) (v.item? part i) (w.item? part i) := by
  cases level with
  | catalog =>
    obtain ⟨c, one, other⟩ := alike
    obtain ⟨fields, record, read⟩ := Catalog.ofJson?_eq_some_iff.mp one
    obtain ⟨fields', record', read'⟩ := Catalog.ofJson?_eq_some_iff.mp other
    refine ⟨fun _ => field?_congr record record' normal normal' (read'.extra.trans read.extra.symm),
      fun part deeper mem i => ?_⟩
    obtain ⟨rfl, rfl⟩ : part = "nodes" ∧ deeper = .nodeType := by simpa [parts] using mem
    exact item?_congr record record' read.nodes read'.nodes i
  | nodeType =>
    obtain ⟨t, one, other⟩ := alike
    obtain ⟨fields, record, read⟩ := NodeType.ofJson?_eq_some_iff.mp one
    obtain ⟨fields', record', read'⟩ := NodeType.ofJson?_eq_some_iff.mp other
    refine ⟨fun _ => field?_congr record record' normal normal' (read'.extra.trans read.extra.symm),
      fun part deeper mem i => ?_⟩
    obtain ⟨rfl, rfl⟩ | ⟨rfl, rfl⟩ : (part = "properties" ∧ deeper = .property) ∨
      (part = "interfaces" ∧ deeper = .interface) := by simpa [parts] using mem
    · exact item?_congr record record' read.properties read'.properties i
    · exact item?_congr record record' read.interfaces read'.interfaces i
  | property =>
    obtain ⟨p, one, other⟩ := alike
    obtain ⟨fields, record, read⟩ := Property.ofJson?_eq_some_iff.mp one
    obtain ⟨fields', record', read'⟩ := Property.ofJson?_eq_some_iff.mp other
    exact ⟨fun _ => field?_congr record record' normal normal' (read'.extra.trans read.extra.symm),
      fun part deeper mem => absurd mem List.not_mem_nil⟩
  | interface =>
    obtain ⟨n, one, other⟩ := alike
    obtain ⟨fields, record, read⟩ := Interface.ofJson?_eq_some_iff.mp one
    obtain ⟨fields', record', read'⟩ := Interface.ofJson?_eq_some_iff.mp other
    exact ⟨fun _ => field?_congr record record' normal normal' (read'.extra.trans read.extra.symm),
      fun part deeper mem => absurd mem List.not_mem_nil⟩

/-- So values of one record have the same further fields, however deep. -/
theorem Alike.further? (alike : Alike level v w) (normal : v.normal = v) (normal' : w.normal = w)
    (way : List (String × Nat)) (name : String) :
    level.further? v way name = level.further? w way name := by
  induction way generalizing level v w with
  | nil =>
    unfold Level.further?
    split
    · rfl
    · rename_i other
      exact (alike.step normal normal').1 name other
  | cons step way ih =>
    obtain ⟨part, i⟩ := step
    unfold Level.further?
    cases there : findEntry part level.parts with
    | none => rfl
    | some deeper =>
      have items := (alike.step normal normal').2 part deeper (mem_of_findEntry there) i
      match item : v.item? part i, item' : w.item? part i, items with
      | none, none, .none => rfl
      | some _, some _, .some alike =>
        exact ih alike (normal_of_item? normal item) (normal_of_item? normal' item')

end Level

/-! ## What is written of a catalog -/

/-- What is written of the catalog is read as the catalog itself, also from its text if that is
read as the value it was made from. -/
structure Survives (c : Catalog) : Prop where
  value : ofJson? c.toJson = some c
  normal : ofJson? c.toJson.normal = some c
  check : c.check = .ok ()
  text : Json.parse c.prettyText = some c.toJson.normal → read c.prettyText = .ok c

variable {c : Catalog}

theorem Proper.survives (proper : c.Proper) (checked : c.check = .ok ()) : c.Survives where
  value := ofJson?_toJson proper
  normal := keeps_ofJson?.stable _ _ (ofJson?_toJson proper)
  check := checked
  text parsed := read_eq_ok_iff.mpr
    ⟨by rw [parsed, Option.bind_some, keeps_ofJson?.stable _ _ (ofJson?_toJson proper)], checked⟩

/-- Where no number loses digits and nothing is nested too deep, the text is all it takes. -/
theorem Proper.read_prettyText (proper : c.Proper) (checked : c.check = .ok ())
    (fits : c.toJson.normal.Fits Json.depthLimit) : read c.prettyText = .ok c :=
  (proper.survives checked).text (Json.parse_pretty 4 fits)

theorem further?_toJson {v : Json} (read : ofJson? v = some c) (way : List (String × Nat))
    (name : String) :
    Level.further? .catalog c.toJson.normal way name =
      Level.further? .catalog v.normal way name := by
  have written := keeps_ofJson?.stable _ _ (ofJson?_toJson (proper_of_ofJson? read))
  have alike : Level.Alike .catalog c.toJson.normal v.normal :=
    ⟨c, written, keeps_ofJson?.stable _ _ read⟩
  exact alike.further? (Json.normal_normal _) (Json.normal_normal _) way name

/-- A catalog composed of checked ones is as one that has been read. -/
theorem survives_of_compose {ms : List Modification} {e : EffectiveCatalog} (proper : c.Proper)
    (proper' : ∀ m ∈ ms, m.Proper ∧ ∃ origin, m.check origin = .ok ())
    (composed : c.compose ms = .ok e) : e.composed.Survives := by
  obtain ⟨sound, applied, -⟩ := compose_eq_ok_iff.mp composed
  have checked := applyAll_check sound (fun m mem => (proper' m mem).2) applied
  exact (proper.compose (fun m mem => (proper' m mem).1) composed).1.survives checked

/-! ## The file of a catalog -/

theorem reads_load (path : String) : Action.Reads (Catalog.load path) :=
  ((Action.Reads.reading _).mapError _).bind fun _ => .ofExcept _

theorem reads_loadModification (path : String) : Action.Reads (Modification.load path) :=
  ((Action.Reads.reading _).mapError _).bind fun _ => .ofExcept _

variable {path text : String} {paths : List String} {w w' : World} {e : EffectiveCatalog}

theorem load_of_textAt (there : w.textAt path = .ok text) :
    Catalog.load path w = (read text, w) := by
  have found : readFile path w = (.ok text, w) := by
    simp only [readFile, Action.readText, Action.mapError, Action.reading, there]
  rw [Catalog.load, Action.bind_apply, found]
  rfl

theorem exists_of_load (loaded : Catalog.load path w = (.ok c, w')) :
    ∃ text, read text = .ok c := by
  obtain ⟨text, w₁, -, done⟩ := Action.bind_eq_ok loaded
  exact ⟨text, congrArg Prod.fst done⟩

theorem yields_loadModification (path : String) :
    Action.Yields (fun m => m.Proper ∧ ∃ origin, m.check origin = .ok ())
      (Modification.load path) := by
  intro w m w' loaded
  obtain ⟨text, w₁, -, done⟩ := Action.bind_eq_ok loaded
  have read : Modification.read text path = .ok m := congrArg Prod.fst done
  exact ⟨Modification.proper_of_read read, path, (Modification.read_eq_ok_iff.mp read).2⟩

/-- The catalog of files under modifications of files. -/
theorem survives_of_load (loaded : EffectiveCatalog.load path paths w = (.ok e, w')) :
    e.composed.Survives := by
  obtain ⟨base, w₁, first, loaded⟩ := Action.bind_eq_ok loaded
  obtain ⟨ms, w₂, mods, loaded⟩ := Action.bind_eq_ok loaded
  obtain ⟨text, read⟩ := exists_of_load first
  exact survives_of_compose (proper_of_read read)
    (Action.yields_mapM (fun m _ => yields_loadModification m) _ _ _ mods)
    (congrArg Prod.fst loaded)

/-- The command leaves the text of what is composed of the files before it. -/
theorem textAt_of_modifyCatalog (done : Program.modifyCatalog path paths w = (.ok (), w')) :
    ∃ e, EffectiveCatalog.load path paths w = (.ok e, w) ∧
      w'.textAt path = .ok e.composed.prettyText := by
  obtain ⟨base, w₁, first, done₁⟩ := Action.bind_eq_ok done
  have loaded := Action.mapError_eq_ok first
  obtain rfl : w₁ = w := (reads_load path).same loaded
  obtain ⟨ms, w₂, second, done₂⟩ := Action.bind_eq_ok done₁
  have mods := Action.mapM_mapError_eq_ok second
  obtain rfl : w₂ = w₁ := (Action.Reads.mapM fun m _ => reads_loadModification m).same mods
  obtain ⟨e, w₃, third, done₃⟩ := Action.bind_eq_ok done₂
  have composed : base.compose ms = .ok e := Action.ofExcept_of_mapError third
  obtain ⟨_, w₄, -, done₄⟩ := Action.bind_eq_ok done₃
  obtain ⟨_, w₅, -, done₅⟩ := Action.bind_eq_ok done₄
  obtain ⟨_, w₆, fourth, done₆⟩ := Action.bind_eq_ok done₅
  have written := Action.changing_of_mapError fourth
  refine ⟨e, ?_, ?_⟩
  · rw [EffectiveCatalog.load, Action.bind_apply, loaded]
    change ((paths.mapM Modification.load) >>= _) w₂ = _
    rw [Action.bind_apply, mods]
    exact congrArg (·, w₂) composed
  · have said : w₆.Keeps w' := by
      cases done₆
      exact ⟨rfl, fun _ dir => dir⟩
    have same (l : File.Location) : w'.files.find? l = w₆.files.find? l := by
      cases done₆
      rfl
    have bytes := said.bytesAt (World.bytesAt_of_write written) (same _)
    exact World.textAt_of_bytesAt bytes (Text.Utf8.text?_bytes _)

/-- Catalog files survive being rewritten. What is written of a catalog that has been read is read
as the catalog itself and has the same further fields, however deep; what is written of a catalog
composed of checked ones is read as that catalog; and so is the file that a command has put
modifications into, if its text is read as the value it was made from. -/
theorem survives_rewrite :
    (∀ v c, ofJson? v = some c → c.check = .ok () →
      c.Survives ∧ ∀ way name, Level.further? .catalog c.toJson.normal way name =
        Level.further? .catalog v.normal way name) ∧
    (∀ v base ms e, ofJson? v = some base →
      (∀ m ∈ ms, ∃ u origin, Modification.ofJson? u = some m ∧ m.check origin = .ok ()) →
      base.compose ms = .ok e → e.composed.Survives) ∧
    ∀ path paths w w', Program.modifyCatalog path paths w = (.ok (), w') →
      ∃ e, EffectiveCatalog.load path paths w = (.ok e, w) ∧ e.composed.Survives ∧
        (Json.parse e.composed.prettyText = some e.composed.toJson.normal →
          Catalog.load path w' = (.ok e.composed, w')) := by
  refine ⟨fun v c read checked => ?_, fun v base ms e read each composed => ?_,
    fun path paths w w' done => ?_⟩
  · exact ⟨(proper_of_ofJson? read).survives checked, further?_toJson read⟩
  · refine survives_of_compose (proper_of_ofJson? read) (fun m mem => ?_) composed
    obtain ⟨u, origin, read, checked⟩ := each m mem
    exact ⟨Modification.proper_of_ofJson? read, origin, checked⟩
  · obtain ⟨e, loaded, there⟩ := textAt_of_modifyCatalog done
    have survives := survives_of_load loaded
    exact ⟨e, loaded, survives, fun parsed => by rw [load_of_textAt there, survives.text parsed]⟩

/-- A catalog in which every record has a field that it does not know. -/
def vendorDocument : Json :=
  .obj [("version", .int 7), ("nodes", .arr [.obj [("name", .str "LED"), ("vendor", .str "st"),
    ("properties", .arr [.obj [("name", .str "color"), ("type", .str "text"), ("unit", .null)]])]])]

def vendorCatalog : Catalog :=
  let color : Property := ⟨"color", .text, none, [], Table.ofList [("unit", .null)]⟩
  ⟨.empty, [⟨"LED", none, [color], [], false, false, [], .empty, none,
    Table.ofList [("vendor", .str "st")]⟩], Table.ofList [("version", .int 7)]⟩

/-- A catalog of one type. -/
def buttonCatalog : Catalog :=
  ⟨.empty, [⟨"B", none, [], [], false, false, [], .empty, none, .empty⟩], .empty⟩

/-- A catalog without any type in one file, and in another one a modification that adds the type. -/
def buttonWorld : World :=
  let text (v : Json) : File.Node := .file (Text.Utf8.bytes v.compact) false
  ⟨⟨[(["c"], text (.obj [])),
    (["m"], text (.obj [("add_nodes", .arr [.obj [("name", .str "B")]])]))]⟩, [], 0, [], 0, []⟩

theorem survives_rewrite_vendor :
    ofJson? vendorDocument = some vendorCatalog ∧ vendorCatalog.Survives ∧
      Level.further? .catalog vendorCatalog.toJson.normal [("nodes", 0), ("properties", 0)] "unit" =
        some .null ∧
      ∃ w', Program.modifyCatalog "c" ["m"] buttonWorld = (.ok (), w') ∧
        Catalog.load "c" w' = (.ok buttonCatalog, w') := by
  obtain ⟨values, -, files⟩ := survives_rewrite
  have read : ofJson? vendorDocument = some vendorCatalog := by decide +kernel
  obtain ⟨survives, further⟩ := values _ _ read (by decide +kernel)
  have succeeds : (Program.modifyCatalog "c" ["m"] buttonWorld).1.toBool = true := by
    decide +kernel
  have composed : (EffectiveCatalog.load "c" ["m"] buttonWorld).1.toOption.map (·.composed) =
      some buttonCatalog := by decide +kernel
  have parsed : Json.parse buttonCatalog.prettyText = some buttonCatalog.toJson.normal := by
    decide +kernel
  cases ran : Program.modifyCatalog "c" ["m"] buttonWorld with
  | mk result w' =>
    rw [ran] at succeeds
    cases result with
    | error e => cases succeeds
    | ok _ =>
      obtain ⟨e, loaded, -, again⟩ := files _ _ _ _ ran
      rw [loaded] at composed
      have same : e.composed = buttonCatalog := Option.some.inj composed
      rw [same] at again
      exact ⟨read, survives, (further _ _).trans (by decide +kernel), w', rfl, again parsed⟩

end Catalog

end BoardDesign
