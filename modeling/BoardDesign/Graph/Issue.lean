import BoardDesign.Catalog.NodeType
import BoardDesign.Decimal.Shortest
import BoardDesign.Graph.Address
import BoardDesign.Json.Writer
import BoardDesign.Text.Quoted
/-!
Rules that a design can break, each with the message that tells of it.
-/

namespace BoardDesign

namespace Property

/-- The value fits the declared type. -/
def accepts (p : Property) (value : Json) : Bool :=
  match p.kind, value with
  | .text, .str _ => true
  | .constant, .str _ => true
  | .select, .str s => p.values.isEmpty || p.values.any fun v => v.same (.str s)
  | .hex, .str s => (Graph.Address.parse s).isSome
  | .number, .int _ => true
  | .number, .float _ => true
  | .slider, .int _ => true
  | .slider, .float _ => true
  | .integer, .int _ => true
  | .bool, .bool _ => true
  | .checkbox, .bool _ => true
  | .list, .arr _ => true
  | .other _, _ => true
  | _, _ => false

/-- What a value of the property has to be. -/
def expectation (p : Property) : String :=
  if p.kind = .select && !p.values.isEmpty then
    "one of [" ++ Text.joinWith ", " (p.values.map Json.compact) ++ "]"
  else if p.kind = .hex then "a hexadecimal string"
  else "a " ++ p.kind.name ++ " value"

end Property

namespace Json

/-- A short account of a value. -/
def describe : Json → String
  | .null => "null"
  | .bool b => "bool " ++ compact (.bool b)
  | .int n => "number " ++ compact (.int n)
  | .float x => "number " ++ compact (.float x)
  | .str s => "string " ++ Text.Quoted.quote s
  | .arr items => "list of " ++ Decimal.natText items.length ++ " item(s)"
  | .obj _ => "object"

end Json

namespace Graph

inductive Issue where
  | unknownNodeType (label typeName : String)
  | typeMismatch (label : String) (property : Property) (value : Json)
  | unknownProperty (label property : String)
  | unknownInterface (connection : Nat) (label interface : String)
  | incompatibleTypes (connection : Nat) (source target : String) (sourceTags targetTags : TypeTags)
  | directionConflict (connection : Nat) (source target : String)
      (sourceDirection targetDirection : Direction)
  | limitExceeded (label interface : String) (limit count : Nat)
  | duplicateLabel (label : String) (count : Nat)
  | multipleBoardRoots (labels : List String)
  | danglingConnection (connection : Nat) (interfaceId : String)
deriving DecidableEq, Repr

/-- The name of the rule that is broken. -/
def Issue.kind : Issue → String
  | .unknownNodeType .. => "UnknownNodeType"
  | .typeMismatch .. => "TypeMismatch"
  | .unknownProperty .. => "UnknownProperty"
  | .unknownInterface .. => "UnknownInterface"
  | .incompatibleTypes .. => "IncompatibleInterfaceTypes"
  | .directionConflict .. => "DirectionConflict"
  | .limitExceeded .. => "ConnectionLimitExceeded"
  | .duplicateLabel .. => "DuplicateLabel"
  | .multipleBoardRoots .. => "MultipleBoardRoots"
  | .danglingConnection .. => "DanglingConnection"

def Issue.message : Issue → String
  | .unknownNodeType label typeName => s!"node '{label}': unknown node type '{typeName}'"
  | .typeMismatch label p value =>
    s!"node '{label}': property '{p.name}' expects {p.expectation}, found {value.describe}"
  | .unknownProperty label property =>
    s!"node '{label}': property '{property}' is not declared by its type"
  | .unknownInterface connection label interface =>
    s!"connection {connection}: node '{label}' has no interface '{interface}'"
  | .incompatibleTypes connection source target a b =>
    s!"connection {connection} ({source} -> {target}): incompatible interface types " ++
      s!"{a.text} and {b.text}"
  | .directionConflict connection source target a b =>
    s!"connection {connection} ({source} -> {target}): cannot connect {a.text} to {b.text}"
  | .limitExceeded label interface limit count =>
    s!"interface '{label}.{interface}' has {count} connection(s), limit is {limit}"
  | .duplicateLabel label count => s!"label '{label}' is used by {count} nodes"
  | .multipleBoardRoots labels =>
    "graph has more than one board root: " ++ Text.joinWith ", " labels
  | .danglingConnection connection interfaceId =>
    s!"connection {connection}: interface id '{interfaceId}' does not exist"

/-- The message of a validation that found issues. -/
def issuesMessage (issues : List Issue) : String :=
  s!"graph validation failed with {issues.length} issue(s)" ++
    String.join (issues.map fun i => "\n  - " ++ i.message)

end Graph

end BoardDesign
