import BoardDesign.Catalog.Interface
import BoardDesign.Catalog.Property
import BoardDesign.Text.Basic
/-!
Node types: the parts from which a board is designed.

A merge only adds: `mergeProperty` and `mergeInterface` leave a member alone that is already
there under the same name.
-/

namespace BoardDesign

structure NodeType where
  name : String
  category : Option String
  properties : List Property
  interfaces : List Interface
  isAbstract : Bool
  isCategory : Bool
  /-- The names of the types whose members this type inherits. -/
  extending : List String
  urls : Table Json
  additionalData : Option Json
  extra : Table Json
deriving DecidableEq, Repr, Inhabited

/-- The first name in a list that occurred before. -/
def firstRepeated : List String → Option String := go []
where
  go (seen : List String) : List String → Option String
    | [] => none
    | name :: rest => if name ∈ seen then some name else go (name :: seen) rest

namespace NodeType

def known : List String :=
  ["name", "category", "properties", "interfaces", "abstract", "isCategory", "extends", "urls",
    "additionalData"]

def property? (t : NodeType) (name : String) : Option Property :=
  t.properties.find? fun p => p.name == name

def interface? (t : NodeType) (name : String) : Option Interface :=
  t.interfaces.find? fun i => i.name == name

/-- The category, `Other` if none is declared. -/
def categoryPath (t : NodeType) : String := t.category.getD "Other"

/-- The category is the given one or lies below it. -/
def inCategory (t : NodeType) (path : String) : Bool :=
  match Text.after path.toList t.categoryPath.toList with
  | some [] => true
  | some rest => rest.head? == some '/' || path.toList.getLast? == some '/'
  | none => false

/-- A type around which a board is built. -/
def isBoardRoot (t : NodeType) : Bool := Text.startsWith "SoC".toList t.categoryPath.toList

/-- The last part of a path, slashes at its end aside; none if nothing is left. -/
def lastSegment (cs : List Char) : Option (List Char) :=
  match ((cs.reverse.dropWhile (· == '/')).takeWhile (· != '/')).reverse with
  | [] => none
  | segment => some segment

/-- The name of the hardware model, from the address of its data page. -/
def modelName (t : NodeType) : Option String :=
  ((t.urls.get? "rdp").bind Json.str?).bind fun url =>
    (lastSegment url.toList).map String.ofList

/-- The devicetree `compatible` strings. -/
def compats (t : NodeType) : List String :=
  match (t.additionalData.bind (·.field? "compats")).bind Json.list? with
  | some items => items.filterMap Json.str?
  | none => []

/-- The first property, else the first interface, that is declared twice. -/
def repeatedMember (t : NodeType) : Option String :=
  firstRepeated (t.properties.map (·.name)) <|> firstRepeated (t.interfaces.map (·.name))

def hasProperty (t : NodeType) (name : String) : Bool := (t.property? name).isSome

def hasInterface (t : NodeType) (name : String) : Bool := (t.interface? name).isSome

/-- The property is added unless there is one of that name. -/
def mergeProperty (t : NodeType) (p : Property) : NodeType :=
  if t.hasProperty p.name then t else { t with properties := t.properties ++ [p] }

/-- The interface is added unless there is one of that name. -/
def mergeInterface (t : NodeType) (i : Interface) : NodeType :=
  if t.hasInterface i.name then t else { t with interfaces := t.interfaces ++ [i] }

/-- All of a list of properties merged, then all of a list of interfaces. -/
def mergeMembers (t : NodeType) (properties : List Property) (interfaces : List Interface) :
    NodeType :=
  interfaces.foldl mergeInterface (properties.foldl mergeProperty t)

/-- What a type takes over from one that it extends; its own members win. -/
def inherit (t parent : NodeType) : NodeType :=
  let merged := t.mergeMembers parent.properties parent.interfaces
  { merged with
    category := merged.category <|> parent.category
    urls := merged.urls.fill parent.urls
    additionalData := merged.additionalData <|> parent.additionalData }

/-- Everything that `other` declares is in `t`, and differs in nothing. -/
def subsumes (t other : NodeType) : Bool :=
  t.name == other.name && t.category == other.category && t.isAbstract == other.isAbstract &&
    t.isCategory == other.isCategory && t.extending == other.extending &&
    t.urls.same other.urls && Json.sameOption t.additionalData other.additionalData &&
    t.extra.same other.extra &&
    (other.properties.all fun p => (t.property? p.name).any (·.same p)) &&
    other.interfaces.all fun i => (t.interface? i.name).any (·.same i)

def toJson (t : NodeType) : Json :=
  .obj ([("name", .str t.name)] ++
    (t.category.map fun c => ("category", .str c)).toList ++
    (if t.properties.isEmpty then []
      else [("properties", .arr (t.properties.map Property.toJson))]) ++
    (if t.interfaces.isEmpty then []
      else [("interfaces", .arr (t.interfaces.map Interface.toJson))]) ++
    (if t.isAbstract then [("abstract", .bool true)] else []) ++
    (if t.isCategory then [("isCategory", .bool true)] else []) ++
    (if t.extending.isEmpty then [] else [("extends", .arr (t.extending.map .str))]) ++
    (if t.urls.isEmpty then [] else [("urls", .ofTable t.urls)]) ++
    (t.additionalData.map fun d => ("additionalData", d)).toList ++
    t.extra.toList)

def ofJson? (a : Json) : Option NodeType := do
  let fields ← Json.Fields.of? known a
  let name ← Json.Fields.required fields "name" Json.str?
  let category ← Json.Fields.optional fields "category" Json.str?
  let properties ← Json.Fields.default fields "properties" [] (Json.listOf? Property.ofJson?)
  let interfaces ← Json.Fields.default fields "interfaces" [] (Json.listOf? Interface.ofJson?)
  let isAbstract ← Json.Fields.default fields "abstract" false Json.bool?
  let isCategory ← Json.Fields.default fields "isCategory" false Json.bool?
  let extending ← Json.Fields.default fields "extends" [] Json.strings?
  let urls ← Json.Fields.default fields "urls" .empty Json.table?
  let additionalData ← Json.Fields.optional fields "additionalData" fun v => some v.normal
  some ⟨name, category, properties, interfaces, isAbstract, isCategory, extending, urls,
    additionalData, Json.Fields.extra known fields⟩

end NodeType

end BoardDesign
