import BoardDesign.Json.Fields
/-!
Properties that a node type declares, and their types.

`PropertyType.name_ofName`: every name is the name of the type that it names.
-/

namespace BoardDesign

/-! ## Declared types -/

inductive PropertyType where
  | text
  | constant
  | select
  | hex
  | number
  | slider
  | integer
  | bool
  | checkbox
  | list
  /-- A type that validation does not know; it accepts every value. -/
  | other (name : String)
deriving DecidableEq, Repr, Inhabited

namespace PropertyType

def name : PropertyType → String
  | .text => "text"
  | .constant => "constant"
  | .select => "select"
  | .hex => "hex"
  | .number => "number"
  | .slider => "slider"
  | .integer => "integer"
  | .bool => "bool"
  | .checkbox => "checkbox"
  | .list => "list"
  | .other name => name

def ofName : String → PropertyType
  | "text" => .text
  | "constant" => .constant
  | "select" => .select
  | "hex" => .hex
  | "number" => .number
  | "slider" => .slider
  | "integer" => .integer
  | "bool" => .bool
  | "checkbox" => .checkbox
  | "list" => .list
  | name => .other name

def isKnown : PropertyType → Bool
  | .other _ => false
  | _ => true

theorem name_ofName (s : String) : (ofName s).name = s := by
  unfold ofName
  split <;> rfl

end PropertyType

/-! ## Properties -/

structure Property where
  name : String
  kind : PropertyType
  default : Option Json
  /-- The values that a property of type `select` may have. -/
  values : List Json
  extra : Table Json
deriving DecidableEq, Repr, Inhabited

namespace Property

def known : List String := ["name", "type", "default", "values"]

/-- Alike in all fields. -/
def same (p q : Property) : Bool :=
  p.name == q.name && p.kind == q.kind &&
    Json.sameOption p.default q.default && Json.sameList p.values q.values && p.extra.same q.extra

def toJson (p : Property) : Json :=
  .obj ([("name", .str p.name), ("type", .str p.kind.name)] ++
    (p.default.map fun v => ("default", v)).toList ++
    (if p.values.isEmpty then [] else [("values", .arr p.values)]) ++
    p.extra.toList)

def ofJson? (a : Json) : Option Property := do
  let fields ← Json.Fields.of? known a
  let name ← Json.Fields.required fields "name" Json.str?
  let kind ← Json.Fields.required fields "type" Json.str?
  let default ← Json.Fields.optional fields "default" fun v => some v.normal
  let values ← Json.Fields.default fields "values" [] (Json.listOf? fun v => some v.normal)
  some ⟨name, .ofName kind, default, values, Json.Fields.extra known fields⟩

end Property

end BoardDesign
