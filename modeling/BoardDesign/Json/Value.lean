import BoardDesign.Decimal.Binary
import BoardDesign.Table
/-!
JSON values.

An object keeps its fields in the order in which they were written, a repeated name included.
`Json.normal` is the form in which objects are tables: sorted, with the last value of each name.
-/

namespace BoardDesign

inductive Json where
  | null
  | bool (value : Bool)
  | int (value : Int)
  | float (value : Decimal.Binary)
  | str (value : String)
  | arr (items : List Json)
  | obj (fields : List (String × Json))
deriving Repr, Inhabited

namespace Json

mutual

def decEq (a b : Json) : Decidable (a = b) :=
  match a, b with
  | .null, .null => isTrue rfl
  | .bool x, .bool y => if h : x = y then isTrue (h ▸ rfl) else isFalse (by simp [h])
  | .int x, .int y => if h : x = y then isTrue (h ▸ rfl) else isFalse (by simp [h])
  | .float x, .float y => if h : x = y then isTrue (h ▸ rfl) else isFalse (by simp [h])
  | .str x, .str y => if h : x = y then isTrue (h ▸ rfl) else isFalse (by simp [h])
  | .arr xs, .arr ys =>
    match decEqList xs ys with
    | isTrue h => isTrue (h ▸ rfl)
    | isFalse h => isFalse (by simp [h])
  | .obj xs, .obj ys =>
    match decEqFields xs ys with
    | isTrue h => isTrue (h ▸ rfl)
    | isFalse h => isFalse (by simp [h])
  | .null, .bool _ | .null, .int _ | .null, .float _ | .null, .str _ | .null, .arr _
  | .null, .obj _ => isFalse (by simp)
  | .bool _, .null | .bool _, .int _ | .bool _, .float _ | .bool _, .str _ | .bool _, .arr _
  | .bool _, .obj _ => isFalse (by simp)
  | .int _, .null | .int _, .bool _ | .int _, .float _ | .int _, .str _ | .int _, .arr _
  | .int _, .obj _ => isFalse (by simp)
  | .float _, .null | .float _, .bool _ | .float _, .int _ | .float _, .str _ | .float _, .arr _
  | .float _, .obj _ => isFalse (by simp)
  | .str _, .null | .str _, .bool _ | .str _, .int _ | .str _, .float _ | .str _, .arr _
  | .str _, .obj _ => isFalse (by simp)
  | .arr _, .null | .arr _, .bool _ | .arr _, .int _ | .arr _, .float _ | .arr _, .str _
  | .arr _, .obj _ => isFalse (by simp)
  | .obj _, .null | .obj _, .bool _ | .obj _, .int _ | .obj _, .float _ | .obj _, .str _
  | .obj _, .arr _ => isFalse (by simp)
termination_by structural a

def decEqList (xs ys : List Json) : Decidable (xs = ys) :=
  match xs, ys with
  | [], [] => isTrue rfl
  | x :: xs, y :: ys =>
    match decEq x y, decEqList xs ys with
    | isTrue h, isTrue h' => isTrue (by rw [h, h'])
    | isFalse h, _ => isFalse (by simp [h])
    | _, isFalse h => isFalse (by simp [h])
  | [], _ :: _ => isFalse (by simp)
  | _ :: _, [] => isFalse (by simp)
termination_by structural xs

def decEqFields (xs ys : List (String × Json)) : Decidable (xs = ys) :=
  match xs, ys with
  | [], [] => isTrue rfl
  | (k, x) :: xs, (k', y) :: ys =>
    if hk : k = k' then
      match decEq x y, decEqFields xs ys with
      | isTrue h, isTrue h' => isTrue (by rw [hk, h, h'])
      | isFalse h, _ => isFalse (by simp [h])
      | _, isFalse h => isFalse (by simp [h])
    else isFalse (by simp [hk])
  | [], _ :: _ => isFalse (by simp)
  | _ :: _, [] => isFalse (by simp)
termination_by structural xs

end

instance : DecidableEq Json := decEq

mutual

/-- Values that are alike: the two zeros are, every other two values only if they are equal. -/
def same (a b : Json) : Bool :=
  match a, b with
  | .float x, .float y => x.same y
  | .arr xs, .arr ys => sameList xs ys
  | .obj xs, .obj ys => sameFields xs ys
  | .null, .null => true
  | .bool x, .bool y => x == y
  | .int x, .int y => x == y
  | .str x, .str y => x == y
  | _, _ => false
termination_by structural a

def sameList (xs ys : List Json) : Bool :=
  match xs, ys with
  | [], [] => true
  | x :: xs, y :: ys => same x y && sameList xs ys
  | _, _ => false
termination_by structural xs

def sameFields (xs ys : List (String × Json)) : Bool :=
  match xs, ys with
  | [], [] => true
  | (k, x) :: xs, (k', y) :: ys => k == k' && same x y && sameFields xs ys
  | _, _ => false
termination_by structural xs

end

/-- Both absent, or both there and alike. -/
def sameOption : Option Json → Option Json → Bool
  | none, none => true
  | some x, some y => same x y
  | _, _ => false

mutual

/-- The value with the fields of every object sorted by name, the last of each name kept. -/
def normal (a : Json) : Json :=
  match a with
  | .arr items => .arr (normalList items)
  | .obj fields => .obj (normalFields [] fields)
  | .null => .null
  | .bool b => .bool b
  | .int n => .int n
  | .float x => .float x
  | .str s => .str s
termination_by structural a

def normalList (items : List Json) : List Json :=
  match items with
  | [] => []
  | x :: xs => normal x :: normalList xs
termination_by structural items

def normalFields (done : List (String × Json)) (fields : List (String × Json)) :
    List (String × Json) :=
  match fields with
  | [] => done
  | (k, x) :: rest => normalFields (insertEntry k (normal x) done) rest
termination_by structural fields

end

/-- An object from a table. -/
def ofTable (t : Table Json) : Json := .obj t.toList

def isNull : Json → Bool
  | .null => true
  | _ => false

def str? : Json → Option String
  | .str s => some s
  | _ => none

def bool? : Json → Option Bool
  | .bool b => some b
  | _ => none

def list? : Json → Option (List Json)
  | .arr items => some items
  | _ => none

/-- The value of a field; in an object that is not normal, the first one. -/
def field? (a : Json) (name : String) : Option Json :=
  match a with
  | .obj fields => findEntry name fields
  | _ => none

/-- A list whose every item is of a form. -/
def listOf? {α : Type _} (item : Json → Option α) : Json → Option (List α)
  | .arr items => items.mapM item
  | _ => none

def strings? : Json → Option (List String) := listOf? str?

/-- An object as a table of plain values. -/
def table? : Json → Option (Table Json)
  | .obj fields => some (Table.ofList (fields.map fun f => (f.1, f.2.normal)))
  | _ => none

/-- An object all of whose values are of a form, as a table; the last of each name counts. -/
def tableOf? {α : Type _} (value : Json → Option α) : Json → Option (Table α)
  | .obj fields => (fields.mapM fun f => (value f.2).map (f.1, ·)).map Table.ofList
  | _ => none

/-- A whole number of 64 bits with a sign. -/
def int64? : Json → Option Int
  | .int n => if -(Nat.pow 2 63 : Int) ≤ n && n < Nat.pow 2 63 then some n else none
  | _ => none

/-- A whole number from zero below a bound. -/
def natBelow? (bound : Nat) : Json → Option Nat
  | .int n => if 0 ≤ n && n < bound then some n.toNat else none
  | _ => none

end Json

/-- Tables whose values are alike. -/
def Table.same (t u : Table Json) : Bool := Json.sameFields t.toList u.toList

end BoardDesign
