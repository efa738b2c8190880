import BoardDesign.Yaml.Value
/-!
Records and collections written as YAML nodes.

Where a text is wanted every scalar is one, whatever it looks like. Nothing at all stands for an
empty collection.
-/

namespace BoardDesign.Yaml

namespace Node

def str? : Node → Option String
  | .scalar _ s _ => some s
  | _ => none

/-- A scalar that is left out. -/
def isLeftOut : Node → Bool
  | .scalar _ s isPlain => s.isEmpty && isPlain
  | _ => false

def list? : Node → Option (List Node)
  | .seq _ items => some items
  | n => if n.isLeftOut then some [] else none

def pairs? : Node → Option (List (Node × Node))
  | .map _ pairs => some pairs
  | n => if n.isLeftOut then some [] else none

def listOf? {α : Type _} (item : Node → Option α) (n : Node) : Option (List α) :=
  n.list?.bind (List.mapM item)

def strings? : Node → Option (List String) := listOf? str?

/-- A node that may say that there is nothing: the result is none if it is not of the form. -/
def optional? {α : Type _} (value : Node → Option α) (n : Node) : Option (Option α) :=
  match n with
  | .scalar none s true => if s.isEmpty || Look.isNull s then some none else (value n).map some
  | .scalar (some tag) s true =>
    if tag == Value.coreTag "null" then if Look.isNull s then some none else none
    else (value n).map some
  | n => (value n).map some

/-- The keys of a mapping as texts, with their values. -/
def fields? (n : Node) : Option (List (String × Node)) :=
  n.pairs?.bind (List.mapM fun p => p.1.str?.map (·, p.2))

/-- The fields of a record in which no known field is repeated. -/
def record? (known : List String) (n : Node) : Option (List (String × Node)) :=
  n.fields?.bind fun fields =>
    if known.all fun k => (fields.filter fun f => f.1 == k).length ≤ 1 then some fields else none

end Node

namespace Fields

def required {α : Type _} (fields : List (String × Node)) (name : String)
    (value : Node → Option α) : Option α :=
  (findEntry name fields).bind value

def default {α : Type _} (fields : List (String × Node)) (name : String) (default : α)
    (value : Node → Option α) : Option α :=
  match findEntry name fields with
  | some n => value n
  | none => some default

def optional {α : Type _} (fields : List (String × Node)) (name : String)
    (value : Node → Option α) : Option (Option α) :=
  match findEntry name fields with
  | some n => n.optional? value
  | none => some none

/-- The values of the other fields, the last of each name; none if one has no value. -/
def extra (known : List String) (fields : List (String × Node)) : Option (Table Value) :=
  ((fields.filter fun f => !known.contains f.1).mapM fun f =>
    (Value.ofNode? f.2).map (f.1, ·)).map Table.ofList

end Fields

end BoardDesign.Yaml
