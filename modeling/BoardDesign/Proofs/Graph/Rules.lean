import BoardDesign.Graph.Validation
import Mathlib.Data.List.Basic
import Mathlib.Data.List.Count
import Mathlib.Data.List.Nodup

/-!
# The rules for designs

What a design has to satisfy, said without the functions that look for issues.

* `Sound`: all that a design without issues satisfies, each rule for the whole design;
* `Violation`: the instances of the rules, one for each thing that can be wrong;
* `Broken`: an instance that is wrong, with the issue that tells of it;
* `sound_iff_not_broken`: a design is sound when no instance is broken.
-/

namespace BoardDesign.Graph

open Design (Node Endpoint Connection)

variable {d : Design} {c : EffectiveCatalog}

/-- A node whose type nodes may be of, and is a board root. -/
def isRootNode (c : EffectiveCatalog) (n : Node) : Bool := (typeOf? c n).any NodeType.isBoardRoot

/-- Both ends are at nodes. -/
def inRange (d : Design) (e : Connection) : Bool :=
  decide (e.source.node < d.nodes.length) && decide (e.target.node < d.nodes.length)

/-- The ends of some connections; a connection of an interface with itself has two ends there. -/
def endsOf (connections : List (Nat × Connection)) : List Endpoint :=
  connections.flatMap fun e => [e.2.source, e.2.target]

/-- The ends that count for the limits. -/
def countedEnds (d : Design) : List Endpoint :=
  endsOf (d.connections.filter fun e => inRange d e.2)

/-- At an end there is a node, and its type declares the interface. -/
structure Declared (d : Design) (c : EffectiveCatalog) (e : Endpoint) (n : Node) (f : Interface) :
    Prop where
  node : d.nodes[e.node]? = some n
  interface : (typeOf? c n).bind (·.interface? e.interface) = some f

/-- A design without issues. -/
structure Sound (d : Design) (c : EffectiveCatalog) : Prop where
  typed : ∀ n ∈ d.nodes, ∃ t, c.get? n.typeName = some t ∧ t.isAbstract = false
  properties : ∀ n ∈ d.nodes, ∀ t, c.get? n.typeName = some t →
    ∀ name value, n.properties.get? name = some value →
      ∃ p, t.property? name = some p ∧ (value ≠ .null → p.accepts value = true)
  labels : (d.nodes.map (labelOf c)).Nodup
  root : d.nodes.countP (isRootNode c) ≤ 1
  resolved : d.unresolved = []
  placed : ∀ e ∈ d.connections,
    e.2.source.node < d.nodes.length ∧ e.2.target.node < d.nodes.length
  declared : ∀ e ∈ endsOf d.connections, ∃ n f, Declared d c e n f
  tags : ∀ e ∈ d.connections, ∀ n m a b, Declared d c e.2.source n a →
    Declared d c e.2.target m b → a.tags.compatible b.tags = true
  directions : ∀ e ∈ d.connections, ∀ n m a b, Declared d c e.2.source n a →
    Declared d c e.2.target m b → a.direction.pairsWith b.direction = true
  limits : ∀ e n f limit, Declared d c e n f → f.connectionLimit = some limit →
    (endsOf d.connections).count e ≤ limit

/-- The instances of the rules. Nodes, connections and unresolved connections are numbered by
their places in the design. -/
inductive Violation where
  | unknownType (node : Nat)
  | undeclaredProperty (node : Nat) (property : String)
  | unfitProperty (node : Nat) (property : String)
  | sharedLabel (label : String)
  | severalRoots
  | unresolved (place : Nat)
  | outside (place : Nat)
  | unknownInterface (place : Nat) (atSource : Bool)
  | incompatibleTags (place : Nat)
  | conflictingDirections (place : Nat)
  | overLimit (node : Nat) (interface : String)
deriving DecidableEq, Repr

/-- The end of a connection. -/
def endOf (e : Connection) (atSource : Bool) : Endpoint := if atSource then e.source else e.target

/-- The name under which an issue tells of an end. -/
def nameOfEnd (c : EffectiveCatalog) (n : Node) (e : Endpoint) : String :=
  labelOf c n ++ "." ++ e.interface

/-- A broken instance of a rule, and the issue that tells of it. A node of an unknown type has no
other issue of its own, its ends are not asked for interfaces, and a connection that leaves the
design is asked for nothing else. -/
inductive Broken (d : Design) (c : EffectiveCatalog) : Violation → Issue → Prop
  | unknownType {i n} (node : d.nodes[i]? = some n) (untyped : typeOf? c n = none) :
      Broken d c (.unknownType i) (.unknownNodeType (labelOf c n) n.typeName)
  | undeclaredProperty {i n t name value} (node : d.nodes[i]? = some n)
      (typed : typeOf? c n = some t) (given : n.properties.get? name = some value)
      (undeclared : t.property? name = none) :
      Broken d c (.undeclaredProperty i name) (.unknownProperty (labelOf c n) name)
  | unfitProperty {i n t name value p} (node : d.nodes[i]? = some n)
      (typed : typeOf? c n = some t) (given : n.properties.get? name = some value)
      (declared : t.property? name = some p) (set : value ≠ .null)
      (unfit : p.accepts value = false) :
      Broken d c (.unfitProperty i name) (.typeMismatch (labelOf c n) p value)
  | sharedLabel {label} (shared : 1 < (d.nodes.map (labelOf c)).count label) :
      Broken d c (.sharedLabel label)
        (.duplicateLabel label ((d.nodes.map (labelOf c)).count label))
  | severalRoots (several : 1 < d.nodes.countP (isRootNode c)) :
      Broken d c .severalRoots
        (.multipleBoardRoots ((d.nodes.filter (isRootNode c)).map (labelOf c)))
  | unresolved {k u} (connection : d.unresolved[k]? = some u) :
      Broken d c (.unresolved k) (.danglingConnection u.position u.interfaceId)
  | outside {k e s} (connection : d.connections[k]? = some e)
      (left : d.nodes.length ≤ (endOf e.2 s).node)
      (first : s = false → e.2.source.node < d.nodes.length) :
      Broken d c (.outside k) (.danglingConnection e.1
        ("node " ++ Decimal.natText (endOf e.2 s).node ++ "." ++ (endOf e.2 s).interface))
  | unknownInterface {k e s n t} (connection : d.connections[k]? = some e)
      (placed : inRange d e.2 = true) (node : d.nodes[(endOf e.2 s).node]? = some n)
      (typed : typeOf? c n = some t) (undeclared : t.interface? (endOf e.2 s).interface = none) :
      Broken d c (.unknownInterface k s)
        (.unknownInterface e.1 (labelOf c n) (endOf e.2 s).interface)
  | incompatibleTags {k e n m a b} (connection : d.connections[k]? = some e)
      (source : Declared d c e.2.source n a) (target : Declared d c e.2.target m b)
      (unlike : a.tags.compatible b.tags = false) :
      Broken d c (.incompatibleTags k)
        (.incompatibleTypes e.1 (nameOfEnd c n e.2.source) (nameOfEnd c m e.2.target) a.tags b.tags)
  | conflictingDirections {k e n m a b} (connection : d.connections[k]? = some e)
      (source : Declared d c e.2.source n a) (target : Declared d c e.2.target m b)
      (conflict : a.direction.pairsWith b.direction = false) :
      Broken d c (.conflictingDirections k)
        (.directionConflict e.1 (nameOfEnd c n e.2.source) (nameOfEnd c m e.2.target)
          a.direction b.direction)
  | overLimit {e n f limit} (declared : Declared d c e n f)
      (limited : f.connectionLimit = some limit) (exceeds : limit < (countedEnds d).count e) :
      Broken d c (.overLimit e.node e.interface)
        (.limitExceeded (labelOf c n) e.interface limit ((countedEnds d).count e))

theorem typeOf?_eq_some_iff {n : Node} {t : NodeType} :
    typeOf? c n = some t ↔ c.get? n.typeName = some t ∧ t.isAbstract = false := by
  simp [typeOf?, Option.filter_eq_some_iff]

theorem Sound.exists_typeOf? (h : Sound d c) {n : Node} (mem : n ∈ d.nodes) :
    ∃ t, typeOf? c n = some t := by
  obtain ⟨t, known⟩ := h.typed n mem
  exact ⟨t, typeOf?_eq_some_iff.mpr known⟩

theorem Declared.lt_length {e : Endpoint} {n : Node} {f : Interface} (h : Declared d c e n f) :
    e.node < d.nodes.length :=
  (List.getElem?_eq_some_iff.mp h.node).1

theorem Declared.unique {e : Endpoint} {n m : Node} {f g : Interface} (h : Declared d c e n f)
    (h' : Declared d c e m g) : n = m ∧ f = g := by
  have node := h'.node
  rw [h.node] at node
  cases node
  have interface := h'.interface
  rw [h.interface] at interface
  cases interface
  exact ⟨rfl, rfl⟩

theorem Broken.exists_limit {e : Endpoint} {i : Issue}
    (h : Broken d c (.overLimit e.node e.interface) i) :
    ∃ n f limit, Declared d c e n f ∧ f.connectionLimit = some limit ∧
      limit < (countedEnds d).count e ∧
      i = .limitExceeded (labelOf c n) e.interface limit ((countedEnds d).count e) := by
  generalize same : Violation.overLimit e.node e.interface = v at h
  cases h with
  | @overLimit e' n f limit declared limited exceeds =>
    obtain rfl : e = e' := by cases e; cases e'; simpa using same
    exact ⟨n, f, limit, declared, limited, exceeds, rfl⟩
  | _ => cases same

/-- A broken instance is told of by one issue. -/
theorem Broken.unique {v : Violation} {i j : Issue} (h : Broken d c v i) (h' : Broken d c v j) :
    i = j := by
  cases h with
  | unknownType node _ =>
    cases h' with
    | unknownType node' _ => rw [node] at node'; cases node'; rfl
  | undeclaredProperty node _ _ _ =>
    cases h' with
    | undeclaredProperty node' _ _ _ => rw [node] at node'; cases node'; rfl
  | unfitProperty node typed given declared _ _ =>
    cases h' with
    | unfitProperty node' typed' given' declared' _ _ =>
      rw [node] at node'; cases node'
      rw [typed] at typed'; cases typed'
      rw [given] at given'; cases given'
      rw [declared] at declared'; cases declared'
      rfl
  | sharedLabel _ => cases h'; rfl
  | severalRoots _ => cases h'; rfl
  | unresolved connection =>
    cases h' with
    | unresolved connection' => rw [connection] at connection'; cases connection'; rfl
  | @outside k e s connection left first =>
    cases h' with
    | @outside _ _ s' connection' left' first' =>
      rw [connection] at connection'; cases connection'
      -- Of the two ends the one that counts is the first one outside.
      have same : s = s' := by
        cases s with
        | true =>
          cases s' with
          | true => rfl
          | false => exact absurd (first' rfl) (Nat.not_lt.mpr left)
        | false =>
          cases s' with
          | true => exact absurd (first rfl) (Nat.not_lt.mpr left')
          | false => rfl
      rw [same]
  | unknownInterface connection _ node _ _ =>
    cases h' with
    | unknownInterface connection' _ node' _ _ =>
      rw [connection] at connection'; cases connection'
      rw [node] at node'; cases node'
      rfl
  | incompatibleTags connection source target _ =>
    cases h' with
    | incompatibleTags connection' source' target' _ =>
      rw [connection] at connection'; cases connection'
      obtain ⟨rfl, rfl⟩ := source.unique source'
      obtain ⟨rfl, rfl⟩ := target.unique target'
      rfl
  | conflictingDirections connection source target _ =>
    cases h' with
    | conflictingDirections connection' source' target' _ =>
      rw [connection] at connection'; cases connection'
      obtain ⟨rfl, rfl⟩ := source.unique source'
      obtain ⟨rfl, rfl⟩ := target.unique target'
      rfl
  | overLimit declared limited _ =>
    obtain ⟨n, f, limit, declared', limited', _, rfl⟩ := h'.exists_limit
    obtain ⟨rfl, rfl⟩ := declared.unique declared'
    rw [limited] at limited'; cases limited'
    rfl

/-- Where every connection is placed, all ends count. -/
theorem countedEnds_eq
    (placed : ∀ e ∈ d.connections,
      e.2.source.node < d.nodes.length ∧ e.2.target.node < d.nodes.length) :
    countedEnds d = endsOf d.connections := by
  have all : d.connections.filter (fun e => inRange d e.2) = d.connections :=
    List.filter_eq_self.mpr fun e mem => by simp [inRange, placed e mem]
  rw [countedEnds, all]

theorem mem_endsOf_iff {e : Endpoint} {connections : List (Nat × Connection)} :
    e ∈ endsOf connections ↔ ∃ x ∈ connections, ∃ s, e = endOf x.2 s := by
  simp only [endsOf, List.mem_flatMap, List.mem_cons, List.not_mem_nil, or_false]
  constructor
  · rintro ⟨x, mem, rfl | rfl⟩
    · exact ⟨x, mem, true, rfl⟩
    · exact ⟨x, mem, false, rfl⟩
  · rintro ⟨x, mem, s, rfl⟩
    exact ⟨x, mem, by cases s <;> simp [endOf]⟩

theorem Sound.not_broken (h : Sound d c) {v : Violation} {i : Issue} : ¬ Broken d c v i := by
  intro broken
  cases broken with
  | unknownType node untyped =>
    obtain ⟨t, typed⟩ := h.typed _ (List.mem_of_getElem? node)
    rw [typeOf?_eq_some_iff.mpr typed] at untyped
    cases untyped
  | undeclaredProperty node typed given undeclared =>
    obtain ⟨p, declared, _⟩ := h.properties _ (List.mem_of_getElem? node) _
      (typeOf?_eq_some_iff.mp typed).1 _ _ given
    rw [declared] at undeclared
    cases undeclared
  | unfitProperty node typed given declared set unfit =>
    obtain ⟨p, declared', fits⟩ := h.properties _ (List.mem_of_getElem? node) _
      (typeOf?_eq_some_iff.mp typed).1 _ _ given
    rw [declared] at declared'
    cases declared'
    simp [fits set] at unfit
  | sharedLabel shared =>
    have := List.nodup_iff_count_le_one.mp h.labels ‹_›
    omega
  | severalRoots several =>
    have := h.root
    omega
  | unresolved connection => simp [h.resolved] at connection
  | @outside k e s connection left first =>
    have := h.placed e (List.mem_of_getElem? connection)
    cases s <;> simp only [endOf] at left <;> simp at left <;> omega
  | @unknownInterface k e s n t connection placed node typed undeclared =>
    have mem : endOf e.2 s ∈ endsOf d.connections :=
      mem_endsOf_iff.mpr ⟨e, List.mem_of_getElem? connection, s, rfl⟩
    obtain ⟨n', f, declared⟩ := h.declared _ mem
    have same := declared.node
    rw [node] at same
    cases same
    have found := declared.interface
    rw [typed, Option.bind_some, undeclared] at found
    cases found
  | incompatibleTags connection source target unlike =>
    simp [h.tags _ (List.mem_of_getElem? connection) _ _ _ _ source target] at unlike
  | conflictingDirections connection source target conflict =>
    simp [h.directions _ (List.mem_of_getElem? connection) _ _ _ _ source target] at conflict
  | overLimit declared limited exceeds =>
    have := h.limits _ _ _ _ declared limited
    rw [countedEnds_eq h.placed] at exceeds
    omega

section NotBroken

variable (intact : ∀ v i, ¬ Broken d c v i)
include intact

theorem exists_typeOf? {n : Node} (mem : n ∈ d.nodes) : ∃ t, typeOf? c n = some t := by
  obtain ⟨i, node⟩ := List.mem_iff_getElem?.mp mem
  cases untyped : typeOf? c n with
  | some t => exact ⟨t, rfl⟩
  | none => exact absurd (.unknownType node untyped) (intact _ _)

theorem accepts_of_given {n : Node} (mem : n ∈ d.nodes) {t : NodeType}
    (typed : typeOf? c n = some t) {name : String} {value : Json}
    (given : n.properties.get? name = some value) :
    ∃ p, t.property? name = some p ∧ (value ≠ .null → p.accepts value = true) := by
  obtain ⟨i, node⟩ := List.mem_iff_getElem?.mp mem
  cases declared : t.property? name with
  | none => exact absurd (.undeclaredProperty node typed given declared) (intact _ _)
  | some p =>
    refine ⟨p, rfl, fun set => ?_⟩
    cases fits : p.accepts value with
    | true => rfl
    | false => exact absurd (.unfitProperty node typed given declared set fits) (intact _ _)

theorem placed_of_mem {e : Nat × Connection} (mem : e ∈ d.connections) :
    e.2.source.node < d.nodes.length ∧ e.2.target.node < d.nodes.length := by
  obtain ⟨k, connection⟩ := List.mem_iff_getElem?.mp mem
  have source : e.2.source.node < d.nodes.length := by
    by_contra left
    exact intact _ _ (.outside (s := true) connection (Nat.not_lt.mp left) nofun)
  refine ⟨source, ?_⟩
  by_contra left
  exact intact _ _ (.outside (s := false) connection (Nat.not_lt.mp left) fun _ => source)

theorem declared_of_mem {e : Endpoint} (mem : e ∈ endsOf d.connections) :
    ∃ n f, Declared d c e n f := by
  obtain ⟨x, connected, s, rfl⟩ := mem_endsOf_iff.mp mem
  have placed := placed_of_mem intact connected
  have inside : (endOf x.2 s).node < d.nodes.length := by cases s <;> simp [endOf, placed]
  have node := List.getElem?_eq_getElem inside
  obtain ⟨t, typed⟩ := exists_typeOf? intact (List.getElem_mem inside)
  obtain ⟨k, connection⟩ := List.mem_iff_getElem?.mp connected
  cases declared : t.interface? (endOf x.2 s).interface with
  | some f => exact ⟨_, f, node, by simp [typed, declared]⟩
  | none =>
    exact absurd (.unknownInterface connection (by simp [inRange, placed]) node typed declared)
      (intact _ _)

theorem sound_of_not_broken : Sound d c where
  typed n mem := by
    obtain ⟨t, typed⟩ := exists_typeOf? intact mem
    exact ⟨t, typeOf?_eq_some_iff.mp typed⟩
  properties n mem t known name value given := by
    obtain ⟨t', typed⟩ := exists_typeOf? intact mem
    have same := (typeOf?_eq_some_iff.mp typed).1
    rw [known] at same
    cases same
    exact accepts_of_given intact mem typed given
  labels := by
    refine List.nodup_iff_count_le_one.mpr fun label => Nat.not_lt.mp fun shared => ?_
    exact intact _ _ (.sharedLabel shared)
  root := Nat.not_lt.mp fun several => intact _ _ (.severalRoots several)
  resolved := by
    refine List.eq_nil_iff_forall_not_mem.mpr fun u mem => ?_
    obtain ⟨k, connection⟩ := List.mem_iff_getElem?.mp mem
    exact intact _ _ (.unresolved connection)
  placed _ mem := placed_of_mem intact mem
  declared _ mem := declared_of_mem intact mem
  tags e mem n m a b source target := by
    obtain ⟨k, connection⟩ := List.mem_iff_getElem?.mp mem
    by_contra unlike
    exact intact _ _ (.incompatibleTags connection source target (Bool.not_eq_true _ ▸ unlike))
  directions e mem n m a b source target := by
    obtain ⟨k, connection⟩ := List.mem_iff_getElem?.mp mem
    by_contra conflict
    exact intact _ _ (.conflictingDirections connection source target
      (Bool.not_eq_true _ ▸ conflict))
  limits e n f limit declared limited := by
    rw [← countedEnds_eq fun _ mem => placed_of_mem intact mem]
    exact Nat.not_lt.mp fun exceeds => intact _ _ (.overLimit declared limited exceeds)

end NotBroken

theorem sound_iff_not_broken : Sound d c ↔ ∀ v i, ¬ Broken d c v i :=
  ⟨fun h _ _ => h.not_broken, sound_of_not_broken⟩

end BoardDesign.Graph
