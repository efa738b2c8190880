/-!
File trees: what lies at each location.

A location is the list of names from the root. `find?_insert`, `find?_erase` and
`find?_eraseBelow` say what each change does to the nodes of a tree.
-/

namespace BoardDesign.File

abbrev Location := List String

inductive Node where
  | file (content : List UInt8) (executable : Bool)
  | dir
deriving DecidableEq, Repr, Inhabited

/-- The nodes below the root, which is always a directory. -/
structure Tree where
  nodes : List (Location × Node)
deriving DecidableEq, Repr, Inhabited

namespace Tree

def empty : Tree := ⟨[]⟩

def lookup (place : Location) : List (Location × Node) → Option Node
  | [] => none
  | (l, n) :: rest => if l = place then some n else lookup place rest

/-- What lies at a location. -/
def find? (t : Tree) (l : Location) : Option Node :=
  if l = [] then some .dir else lookup l t.nodes

/-- Whether a location is another one or lies below it. -/
def isBelow (top l : Location) : Bool := top.isPrefixOf l

def erase (t : Tree) (l : Location) : Tree := ⟨t.nodes.filter fun e => e.1 ≠ l⟩

def insert (t : Tree) (l : Location) (n : Node) : Tree := ⟨(l, n) :: (t.erase l).nodes⟩

/-- A location and all that lies below it removed. -/
def eraseBelow (t : Tree) (l : Location) : Tree := ⟨t.nodes.filter fun e => !isBelow l e.1⟩

/-- All that lies at and below a location, with locations relative to it. -/
def below (t : Tree) (l : Location) : List (Location × Node) :=
  (t.nodes.filter fun e => isBelow l e.1).map fun e => (e.1.drop l.length, e.2)

/-- The order of locations by their names, a location before those below it. -/
def atMost (a b : Location) : Bool := !decide (b < a)

/-- All that lies below a location, in the order of the locations relative to it. -/
def contents (t : Tree) (l : Location) : List (Location × Node) :=
  ((t.below l).filter fun e => !e.1.isEmpty).mergeSort fun a b => atMost a.1 b.1

/-- All that lies at and below one location put at another one, where nothing else is left. -/
def move (t : Tree) (source target : Location) : Tree :=
  let moved := (t.below source).map fun e => (target ++ e.1, e.2)
  ⟨moved ++ ((t.eraseBelow source).eraseBelow target).nodes⟩

/-- The name directly below a location on the way to another one. -/
def childName? (top l : Location) : Option String :=
  if isBelow top l then
    match l.drop top.length with
    | [name] => some name
    | _ => none
  else none

/-- A name put into a sorted list of names. -/
def insertName (name : String) : List String → List String
  | [] => [name]
  | k :: rest =>
    if name = k then k :: rest else if name < k then name :: k :: rest
    else k :: insertName name rest

/-- The names directly below a location, in their order. -/
def children (t : Tree) (l : Location) : List String :=
  (t.nodes.filterMap fun e => childName? l e.1).foldr insertName []

variable {t : Tree} {l m : Location} {n : Node}

theorem lookup_filter (keep : Location → Bool) (nodes : List (Location × Node)) :
    lookup l (nodes.filter fun e => keep e.1) = if keep l then lookup l nodes else none := by
  induction nodes with
  | nil => simp [lookup]
  | cons e rest ih =>
    obtain ⟨k, x⟩ := e
    by_cases hk : keep k <;> by_cases hl : k = l
    · subst hl; simp [lookup, hk]
    · simp [lookup, hk, hl, ih]
    · subst hl; simp [hk, ih]
    · simp [lookup, hk, hl, ih]

@[simp] theorem find?_root : t.find? [] = some .dir := rfl

theorem find?_erase (h : m ≠ []) :
    (t.erase l).find? m = if m = l then none else t.find? m := by
  simp only [find?, h, if_false, erase]
  have := @lookup_filter m (fun k => decide (k ≠ l)) t.nodes
  rw [this]
  by_cases hm : m = l <;> simp [hm]

theorem find?_insert (h : m ≠ []) :
    (t.insert l n).find? m = if m = l then some n else t.find? m := by
  simp only [insert]
  have := @find?_erase t l m h
  simp only [find?, h, if_false, lookup] at this ⊢
  by_cases hm : l = m
  · simp [hm]
  · simp [hm, this, Ne.symm hm]

theorem find?_eraseBelow (h : m ≠ []) :
    (t.eraseBelow l).find? m = if isBelow l m then none else t.find? m := by
  simp only [find?, h, if_false, eraseBelow]
  have := @lookup_filter m (fun k => !isBelow l k) t.nodes
  rw [this]
  by_cases hm : isBelow l m <;> simp [hm]

end Tree

end BoardDesign.File
