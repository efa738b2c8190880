import BoardDesign.Json.Value
/-!
Records written as JSON objects.

A record has known fields, each written at most once. What else the object holds is either kept
(`extra`), refused or left aside, as the record says.
-/

namespace BoardDesign.Json.Fields

/-- The fields of an object in which no known field is repeated. -/
def of? (known : List String) : Json → Option (List (String × Json))
  | .obj fields =>
    if known.all fun k => (fields.filter fun f => f.1 == k).length ≤ 1 then some fields else none
  | _ => none

/-- As `of?`, for a record that may also be written as the list of its fields in order. -/
def orList? (known : List String) : Json → Option (List (String × Json))
  | .arr items => if items.length ≤ known.length then some (known.zip items) else none
  | a => of? known a

/-- As `orList?`, for a record without any other field. -/
def closed? (known : List String) (a : Json) : Option (List (String × Json)) :=
  (orList? known a).bind fun fields =>
    if fields.all fun f => known.contains f.1 then some fields else none

/-- A field that has to be there. -/
def required {α : Type _} (fields : List (String × Json)) (name : String)
    (value : Json → Option α) : Option α :=
  (findEntry name fields).bind value

/-- A field with a default. -/
def default {α : Type _} (fields : List (String × Json)) (name : String) (default : α)
    (value : Json → Option α) : Option α :=
  match findEntry name fields with
  | some x => value x
  | none => some default

/-- A field that may be absent, or null for the same. -/
def optional {α : Type _} (fields : List (String × Json)) (name : String)
    (value : Json → Option α) : Option (Option α) :=
  match findEntry name fields with
  | none => some none
  | some .null => some none
  | some x => (value x).map some

/-- The other fields, the last of each name. -/
def extra (known : List String) (fields : List (String × Json)) : Table Json :=
  Table.ofList ((fields.filter fun f => !known.contains f.1).map fun f => (f.1, f.2.normal))

end BoardDesign.Json.Fields
