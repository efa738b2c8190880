import BoardDesign.Json.Fields
import BoardDesign.Text.Basic
/-!
Interfaces that a node type declares: named points at which nodes are connected. The directions and
the tags of two interfaces say whether they may be.

`Direction.pairsWith_comm`: the order of the two ends does not matter; `TypeTags.compatible_comm`:
compatibility has no direction. One tag alone is written as a text, any other number of tags as a
list.
-/

namespace BoardDesign

/-! ## Directions -/

/-- An input is driven, an output drives, a bus or a pin does both. -/
inductive Direction where
  | input
  | output
  | inout
deriving DecidableEq, Repr, Inhabited

namespace Direction

/-- Two outputs never pair, and neither do two inputs. -/
def pairsWith : Direction → Direction → Bool
  | .output, .output => false
  | .input, .input => false
  | _, _ => true

def text : Direction → String
  | .input => "input"
  | .output => "output"
  | .inout => "inout"

def ofText? : String → Option Direction
  | "input" => some .input
  | "output" => some .output
  | "inout" => some .inout
  | _ => none

def toJson (d : Direction) : Json := .str d.text

/-- A direction is its name, or an object with the name as its one field and null as value. -/
def ofJson? : Json → Option Direction
  | .str s => ofText? s
  | .obj [(name, .null)] => ofText? name
  | _ => none

theorem pairsWith_comm (a b : Direction) : a.pairsWith b = b.pairsWith a := by
  cases a <;> cases b <;> rfl

theorem ofText?_text (d : Direction) : ofText? d.text = some d := by
  cases d <;> rfl

end Direction

/-! ## Tags -/

structure TypeTags where
  tags : List String
deriving DecidableEq, Repr, Inhabited

namespace TypeTags

def isEmpty (t : TypeTags) : Bool := t.tags.isEmpty

/-- An interface without tags takes anything, two with tags need one in common. -/
def compatible (t u : TypeTags) : Bool :=
  t.isEmpty || u.isEmpty || t.tags.any fun tag => u.tags.contains tag

def text (t : TypeTags) : String :=
  if t.isEmpty then "<any>" else Text.joinWith "|" t.tags

def toJson (t : TypeTags) : Json :=
  match t.tags with
  | [tag] => .str tag
  | tags => .arr (tags.map .str)

def ofJson? : Json → Option TypeTags
  | .str tag => some ⟨[tag]⟩
  | a => a.strings?.map .mk

theorem compatible_comm (t u : TypeTags) : t.compatible u = u.compatible t := by
  have sub : ∀ a b : List String,
      (a.any fun tag => b.contains tag) = true → (b.any fun tag => a.contains tag) = true := by
    intro a b h
    simp only [List.any_eq_true, List.contains_iff_mem] at h ⊢
    obtain ⟨x, hx, hy⟩ := h
    exact ⟨x, hy, hx⟩
  have e : (t.tags.any fun tag => u.tags.contains tag)
      = (u.tags.any fun tag => t.tags.contains tag) :=
    Bool.eq_iff_iff.2 ⟨sub _ _, sub _ _⟩
  unfold compatible
  rw [e]
  cases t.isEmpty <;> cases u.isEmpty <;> rfl

end TypeTags

/-! ## Interfaces -/

structure Interface where
  name : String
  direction : Direction
  /-- The side of the node on which an editor places the interface. -/
  side : Option String
  tags : TypeTags
  /-- The limit as written; a negative one is no limit. -/
  maxConnections : Option Int
  extra : Table Json
deriving DecidableEq, Repr, Inhabited

namespace Interface

def known : List String := ["name", "direction", "side", "type", "maxConnectionsCount"]

/-- How many connections the interface takes; an input without a limit takes one. -/
def connectionLimit (i : Interface) : Option Nat :=
  match i.maxConnections with
  | some n => if n < 0 then none else some n.toNat
  | none => if i.direction = .input then some 1 else none

/-- Alike in all fields. -/
def same (i j : Interface) : Bool :=
  i.name == j.name && i.direction == j.direction && i.side == j.side && i.tags == j.tags &&
    i.maxConnections == j.maxConnections && i.extra.same j.extra

def toJson (i : Interface) : Json :=
  .obj ([("name", .str i.name), ("direction", i.direction.toJson)] ++
    (i.side.map fun s => ("side", .str s)).toList ++
    (if i.tags.isEmpty then [] else [("type", i.tags.toJson)]) ++
    (i.maxConnections.map fun n => ("maxConnectionsCount", .int n)).toList ++
    i.extra.toList)

def ofJson? (a : Json) : Option Interface := do
  let fields ← Json.Fields.of? known a
  let name ← Json.Fields.required fields "name" Json.str?
  let direction ← Json.Fields.default fields "direction" .inout Direction.ofJson?
  let side ← Json.Fields.optional fields "side" Json.str?
  let tags ← Json.Fields.default fields "type" ⟨[]⟩ TypeTags.ofJson?
  let limit ← Json.Fields.optional fields "maxConnectionsCount" Json.int64?
  some ⟨name, direction, side, tags, limit, Json.Fields.extra known fields⟩

end Interface

end BoardDesign
