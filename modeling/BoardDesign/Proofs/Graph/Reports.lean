import BoardDesign.Proofs.Graph.Rows
import BoardDesign.Proofs.Graph.Rules
import BoardDesign.Proofs.Table
import Mathlib.Data.List.Nodup
import Mathlib.Data.List.Perm.Basic

/-!
# Validation applies every rule

The issues that validation finds are those of the broken instances, each told of once.

* `Tells`: some issues are those of the broken instances that something is about;
* `Tells.append` and `Tells.flatMap`: the issues of different parts of a design, one after
  the other;
* `tells_issues`: all issues together are those of all broken instances;
* `validate_sound_and_complete`: what that says of `validate`.
-/

namespace BoardDesign.Graph

open Design (Node Endpoint Connection)

variable {d : Design} {c : EffectiveCatalog}

/-- The issues are those of the broken instances that something is about, each told of once. -/
def Tells (d : Design) (c : EffectiveCatalog) (about : Violation → Prop) (found : List Issue) :
    Prop :=
  ∃ told : List (Violation × Issue), told.map (·.2) = found ∧ (told.map (·.1)).Nodup ∧
    ∀ v i, (v, i) ∈ told ↔ about v ∧ Broken d c v i

namespace Tells

variable {about about' : Violation → Prop} {found found' : List Issue}

theorem congr (h : Tells d c about found)
    (same : ∀ v i, Broken d c v i → (about v ↔ about' v)) : Tells d c about' found := by
  obtain ⟨told, issues, once, all⟩ := h
  refine ⟨told, issues, once, fun v i => (all v i).trans ?_⟩
  exact ⟨fun h => ⟨(same v i h.2).mp h.1, h.2⟩, fun h => ⟨(same v i h.2).mpr h.1, h.2⟩⟩

theorem nil (intact : ∀ v i, about v → ¬ Broken d c v i) : Tells d c about [] :=
  ⟨[], rfl, .nil, fun v i => by simpa using intact v i⟩

theorem none {v : Violation} (intact : ∀ j, ¬ Broken d c v j) : Tells d c (· = v) [] :=
  nil fun _ j same => same ▸ intact j

theorem one {v : Violation} {i : Issue} (broken : Broken d c v i) : Tells d c (· = v) [i] := by
  refine ⟨[(v, i)], rfl, by simp, fun w j => ?_⟩
  constructor
  · intro mem
    cases List.mem_singleton.mp mem
    exact ⟨rfl, broken⟩
  · rintro ⟨rfl, broken'⟩
    simp [broken.unique broken']

/-- An instance that is broken under a condition. -/
theorem ite {p : Prop} [Decidable p] {v : Violation} {i : Issue} (broken : p → Broken d c v i)
    (intact : ¬ p → ∀ j, ¬ Broken d c v j) : Tells d c (· = v) (if p then [i] else []) := by
  split
  case isTrue h => exact one (broken h)
  case isFalse h => exact none (intact h)

theorem append (h : Tells d c about found) (h' : Tells d c about' found')
    (apart : ∀ v, about v → ¬ about' v) :
    Tells d c (fun v => about v ∨ about' v) (found ++ found') := by
  obtain ⟨told, issues, once, all⟩ := h
  obtain ⟨told', issues', once', all'⟩ := h'
  refine ⟨told ++ told', by simp [issues, issues'], ?_, fun v i => ?_⟩
  · rw [List.map_append]
    refine List.Nodup.append once once' fun v left right => ?_
    obtain ⟨⟨_, i⟩, mem, rfl⟩ := List.mem_map.mp left
    obtain ⟨⟨_, j⟩, mem', rfl⟩ := List.mem_map.mp right
    exact apart _ ((all _ _).mp mem).1 ((all' _ _).mp mem').1
  · rw [List.mem_append, all, all', or_and_right]

theorem flatMap {α : Type} {xs : List α} {f : α → List Issue} (about : α → Violation → Prop)
    (distinct : xs.Nodup) (each : ∀ x ∈ xs, Tells d c (about x) (f x))
    (apart : ∀ x ∈ xs, ∀ y ∈ xs, ∀ v, about x v → about y v → x = y) :
    Tells d c (fun v => ∃ x ∈ xs, about x v) (xs.flatMap f) := by
  induction xs with
  | nil => exact nil (by simp)
  | cons x xs ih =>
    obtain ⟨fresh, distinct⟩ := List.nodup_cons.mp distinct
    have rest := ih distinct (fun y mem => each y (.tail x mem))
      fun y mem z mem' => apart y (.tail x mem) z (.tail x mem')
    have both := (each x (.head xs)).append rest fun v here ⟨y, mem, there⟩ => by
      cases apart x (.head xs) y (.tail x mem) v here there
      exact fresh mem
    exact both.congr fun v i _ => by simp

theorem filterMap {α : Type} {xs : List α} {f : α → Option Issue} (about : α → Violation → Prop)
    (distinct : xs.Nodup) (each : ∀ x ∈ xs, Tells d c (about x) (f x).toList)
    (apart : ∀ x ∈ xs, ∀ y ∈ xs, ∀ v, about x v → about y v → x = y) :
    Tells d c (fun v => ∃ x ∈ xs, about x v) (xs.filterMap f) := by
  rw [List.filterMap_eq_flatMap_toList]
  exact flatMap about distinct each apart

/-- The members of a list are told apart by their places. -/
theorem places {α : Type} {xs : List α} {f : α → List Issue} (about : Nat → Violation → Prop)
    (each : ∀ k x, xs[k]? = some x → Tells d c (about k) (f x))
    (apart : ∀ k l v, about k v → about l v → k = l) :
    Tells d c (fun v => ∃ k < xs.length, about k v) (xs.flatMap f) := by
  have placed : xs.flatMap f = xs.zipIdx.flatMap fun p => f p.1 := by
    rw [← List.flatMap_map (f := Prod.fst), List.zipIdx_map_fst]
  have distinct : xs.zipIdx.Nodup := by
    refine List.Nodup.of_map Prod.snd ?_
    rw [List.zipIdx_map_snd]
    exact List.nodup_range'
  rw [placed]
  refine (flatMap (fun p => about p.2) distinct ?_ ?_).congr fun v i _ => ?_
  · intro p mem
    exact each p.2 p.1 (List.mem_zipIdx_iff_getElem?.mp mem)
  · rintro ⟨x, k⟩ mem ⟨y, l⟩ mem' v here there
    obtain rfl : k = l := apart _ _ v here there
    have at_x := List.mem_zipIdx_iff_getElem?.mp mem
    have at_y := List.mem_zipIdx_iff_getElem?.mp mem'
    simp only [at_x, Option.some.injEq] at at_y
    rw [at_y]
  · constructor
    · rintro ⟨⟨x, k⟩, mem, here⟩
      exact ⟨k, (List.getElem?_eq_some_iff.mp (List.mem_zipIdx_iff_getElem?.mp mem)).1, here⟩
    · rintro ⟨k, inside, here⟩
      exact ⟨(xs[k], k), by simp [List.mem_zipIdx_iff_getElem?], here⟩

end Tells

/-- The parts of validation, in their order. -/
inductive Part where
  | nodes | labels | roots | unresolved | connections | limits
deriving DecidableEq, Repr

/-- The part that looks for an instance. -/
def Violation.part : Violation → Part
  | .unknownType _ | .undeclaredProperty .. | .unfitProperty .. => .nodes
  | .sharedLabel _ => .labels
  | .severalRoots => .roots
  | .unresolved _ => .unresolved
  | .outside _ | .unknownInterface .. | .incompatibleTags _ | .conflictingDirections _ =>
    .connections
  | .overLimit .. => .limits

section Nodes

/-- What is wrong with one given value of a property. -/
def propertyIssue (label : String) (t : NodeType) (name : String) (value : Json) : List Issue :=
  match t.property? name with
  | none => [.unknownProperty label name]
  | some p => if value.isNull || p.accepts value then [] else [.typeMismatch label p value]

theorem propertyIssues_eq_flatMap (label : String) (t : NodeType) (given : List (String × Json)) :
    propertyIssues label t given = given.flatMap fun e => propertyIssue label t e.1 e.2 := by
  induction given with
  | nil => rfl
  | cons e rest ih =>
    obtain ⟨name, value⟩ := e
    rw [propertyIssues, List.flatMap_cons, ih]
    refine congrArg (· ++ _) ?_
    unfold propertyIssue
    cases t.property? name <;> rfl

/-- The instances about a property of a node. -/
inductive AboutProperty (node : Nat) (name : String) : Violation → Prop
  | undeclared : AboutProperty node name (.undeclaredProperty node name)
  | unfit : AboutProperty node name (.unfitProperty node name)

/-- The instances about a node by itself. -/
inductive AboutNode (node : Nat) : Violation → Prop
  | unknownType : AboutNode node (.unknownType node)
  | property {name v} (about : AboutProperty node name v) : AboutNode node v

theorem eq_null_iff_isNull {value : Json} : value = .null ↔ value.isNull = true := by
  cases value <;> simp [Json.isNull]

theorem tells_propertyIssue {i : Nat} {n : Node} {t : NodeType} {name : String} {value : Json}
    (node : d.nodes[i]? = some n) (typed : typeOf? c n = some t)
    (given : n.properties.get? name = some value) :
    Tells d c (AboutProperty i name) (propertyIssue (labelOf c n) t name value) := by
  unfold propertyIssue
  cases declared : t.property? name with
  | none =>
    refine (Tells.one (.undeclaredProperty node typed given declared)).congr fun v j broken => ?_
    constructor
    · rintro rfl
      exact .undeclared
    · rintro (_ | _)
      · rfl
      · cases broken with
        | unfitProperty node' typed' _ declared' _ _ => simp_all
  | some p =>
    have unfit : Tells d c (· = .unfitProperty i name)
        (if value.isNull || p.accepts value then []
          else [.typeMismatch (labelOf c n) p value]) := by
      split
      case isFalse h =>
        rw [Bool.or_eq_true, not_or, Bool.not_eq_true, Bool.not_eq_true] at h
        refine .one (.unfitProperty node typed given declared (fun null => ?_) h.2)
        simp [eq_null_iff_isNull.mp null] at h
      case isTrue h =>
        refine .none fun j broken => ?_
        cases broken with
        | unfitProperty node' typed' given' declared' set unfit =>
          simp_all [eq_null_iff_isNull]
    refine unfit.congr fun v j broken => ?_
    constructor
    · rintro rfl
      exact .unfit
    · rintro (_ | _)
      · cases broken with
        | undeclaredProperty node' typed' _ undeclared => simp_all
      · rfl

theorem tells_nodeIssues {i : Nat} {n : Node} (node : d.nodes[i]? = some n) :
    Tells d c (AboutNode i) (nodeIssues c n) := by
  unfold nodeIssues
  cases typed : typeOf? c n with
  | none =>
    refine (Tells.one (.unknownType node typed)).congr fun v j broken => ?_
    constructor
    · rintro rfl
      exact .unknownType
    · rintro (_ | about)
      · rfl
      · cases broken <;> cases about <;> simp_all
  | some t =>
    simp only [propertyIssues_eq_flatMap]
    refine (Tells.flatMap (fun e => AboutProperty i e.1) n.properties.nodup_toList
      (fun e mem => tells_propertyIssue node typed (Table.mem_toList_iff.mp mem)) ?_).congr
      fun v j broken => ?_
    · rintro ⟨name, value⟩ mem ⟨name', value'⟩ mem' v here there
      obtain rfl : name = name' := by cases here <;> cases there <;> rfl
      have first := Table.mem_toList_iff.mp mem
      rw [Table.mem_toList_iff.mp mem'] at first
      cases first
      rfl
    · constructor
      · rintro ⟨e, _, about⟩
        exact .property about
      · rintro (_ | @⟨name, _, about⟩)
        · cases broken with
          | unknownType node' untyped => simp_all
        · have given : ∃ value, n.properties.get? name = some value := by
            cases broken <;> cases about <;> simp_all
          obtain ⟨value, given⟩ := given
          exact ⟨(name, value), Table.mem_toList_iff.mpr given, about⟩

theorem tells_nodes : Tells d c (·.part = .nodes) (d.nodes.flatMap (nodeIssues c)) := by
  refine (Tells.places AboutNode (fun k n node => tells_nodeIssues node) ?_).congr
    fun v j broken => ?_
  · rintro k l v (_ | ⟨⟨⟩⟩) (_ | ⟨⟨⟩⟩) <;> rfl
  · constructor
    · rintro ⟨k, _, _ | ⟨⟨⟩⟩⟩ <;> rfl
    · intro part
      cases broken with
      | unknownType node _ =>
        exact ⟨_, (List.getElem?_eq_some_iff.mp node).1, .unknownType⟩
      | undeclaredProperty node _ _ _ =>
        exact ⟨_, (List.getElem?_eq_some_iff.mp node).1, .property .undeclared⟩
      | unfitProperty node _ _ _ _ _ =>
        exact ⟨_, (List.getElem?_eq_some_iff.mp node).1, .property .unfit⟩
      | _ => cases part

end Nodes

section Labels

theorem get?_tallyOnto (t : Table Nat) (names : List String) (name : String) :
    (names.foldl (fun t name => t.insert name (((t.get? name).getD 0) + 1)) t).get? name =
      if name ∈ names then some ((t.get? name).getD 0 + names.count name) else t.get? name := by
  induction names generalizing t with
  | nil => simp
  | cons a rest ih =>
    rw [List.foldl_cons, ih, Table.get?_insert]
    by_cases same : name = a
    · subst same
      by_cases again : name ∈ rest
      · simp [again, Nat.add_assoc, Nat.add_comm 1]
      · simp [again, List.count_eq_zero_of_not_mem again]
    · simp [same, List.count_cons_of_ne (Ne.symm same)]

theorem mem_tally_iff {names : List String} {name : String} {n : Nat} :
    (name, n) ∈ (tally names).toList ↔ n = names.count name ∧ name ∈ names := by
  rw [Table.mem_toList_iff, tally, get?_tallyOnto]
  by_cases mem : name ∈ names <;> simp [mem, eq_comm]

theorem tells_labels : Tells d c (·.part = .labels) (labelIssues (d.nodes.map (labelOf c))) := by
  unfold labelIssues
  refine (Tells.filterMap (fun e v => v = .sharedLabel e.1) (Table.nodup_toList _)
    (fun e mem => ?_) ?_).congr fun v j broken => ?_
  · obtain ⟨label, n⟩ := e
    obtain ⟨rfl, _⟩ := mem_tally_iff.mp mem
    split
    case isTrue shared => exact .one (.sharedLabel shared)
    case isFalse single =>
      refine .none fun j broken => ?_
      cases broken with
      | sharedLabel shared => exact single shared
  · rintro ⟨label, n⟩ mem ⟨label', n'⟩ mem' v rfl same
    cases same
    rw [(mem_tally_iff.mp mem).1, (mem_tally_iff.mp mem').1]
  · constructor
    · rintro ⟨e, _, rfl⟩
      rfl
    · intro part
      cases broken with
      | @sharedLabel label shared =>
        have used : label ∈ d.nodes.map (labelOf c) := List.count_pos_iff.mp (by omega)
        exact ⟨(label, _), mem_tally_iff.mpr ⟨rfl, used⟩, rfl⟩
      | _ => cases part

theorem length_rootsOf_go (k : Nat) (nodes : List Node) :
    (rootsOf.go k (nodes.map (typeOf? c))).length = nodes.countP (isRootNode c) := by
  induction nodes generalizing k with
  | nil => rfl
  | cons n rest ih =>
    by_cases root : (typeOf? c n).any NodeType.isBoardRoot
    · simp [rootsOf.go, isRootNode, root, ih]
    · simp [rootsOf.go, isRootNode, root, ih]

theorem labels_rootsOf_go (before nodes : List Node) :
    (rootsOf.go before.length (nodes.map (typeOf? c))).filterMap
        (((before ++ nodes).map (labelOf c))[·]?) =
      (nodes.filter (isRootNode c)).map (labelOf c) := by
  induction nodes generalizing before with
  | nil => rfl
  | cons n rest ih =>
    have next := ih (before ++ [n])
    rw [List.length_append, List.length_singleton, List.append_assoc, List.singleton_append]
      at next
    rw [List.map_cons (f := typeOf? c), rootsOf.go]
    by_cases root : (typeOf? c n).any NodeType.isBoardRoot
    · rw [if_pos root, List.filterMap_cons, next,
        List.filter_cons_of_pos (p := isRootNode c) root]
      simp
    · rw [if_neg root, next, List.filter_cons_of_neg (p := isRootNode c) root]

theorem tells_roots : Tells d c (·.part = .roots)
    (rootIssues (d.nodes.map (labelOf c)) (d.nodes.map (typeOf? c))) := by
  have labels := labels_rootsOf_go (c := c) [] d.nodes
  rw [List.nil_append, List.length_nil] at labels
  simp only [rootIssues, rootsOf, length_rootsOf_go, labels]
  refine (Tells.ite (v := .severalRoots) .severalRoots fun single j broken => ?_).congr
    fun v j broken => ?_
  · cases broken with
    | severalRoots several => exact single several
  · constructor
    · rintro rfl
      rfl
    · intro part
      cases broken with
      | severalRoots _ => rfl
      | _ => cases part

end Labels

section Connections

theorem typeAt?_eq (index : Nat) :
    typeAt? (d.nodes.map (typeOf? c)) index = d.nodes[index]?.bind (typeOf? c) := by
  rw [typeAt?, List.getElem?_map]
  cases d.nodes[index]? <;> rfl

theorem interfaceAt?_eq_some_iff {e : Endpoint} {f : Interface} :
    interfaceAt? (d.nodes.map (typeOf? c)) e = some f ↔ ∃ n, Declared d c e n f := by
  rw [interfaceAt?, typeAt?_eq]
  constructor
  · intro h
    cases node : d.nodes[e.node]? with
    | none => simp [node] at h
    | some n => exact ⟨n, node, by simpa [node] using h⟩
  · rintro ⟨n, node, interface⟩
    simpa [node] using interface

theorem labelAt_eq {index : Nat} {n : Node} (node : d.nodes[index]? = some n) :
    labelAt (d.nodes.map (labelOf c)) index = labelOf c n := by
  simp [labelAt, node]

theorem endpointName_eq {e : Endpoint} {n : Node} (node : d.nodes[e.node]? = some n) :
    endpointName (d.nodes.map (labelOf c)) e = nameOfEnd c n e := by
  simp [endpointName, nameOfEnd, node]

theorem Declared.inRange {e : Connection} {n m : Node} {a b : Interface}
    (source : Declared d c e.source n a) (target : Declared d c e.target m b) :
    inRange d e = true := by
  simp [Graph.inRange, source.lt_length, target.lt_length]

theorem outside?_eq_none_iff {types : List (Option NodeType)} {e : Connection}
    (length : types.length = d.nodes.length) : outside? types e = none ↔ inRange d e = true := by
  simp [outside?, Graph.inRange, length]

theorem outside?_eq_some_iff {types : List (Option NodeType)} {e : Connection} {x : Endpoint}
    (length : types.length = d.nodes.length) :
    outside? types e = some x ↔ ∃ s, x = endOf e s ∧ d.nodes.length ≤ (endOf e s).node ∧
      (s = false → e.source.node < d.nodes.length) := by
  simp only [outside?, length]
  by_cases source : d.nodes.length ≤ e.source.node
  · have absurd : ¬ e.source.node < d.nodes.length := Nat.not_lt.mpr source
    simp [source, endOf, absurd, eq_comm]
  · have inside := Nat.not_le.mp source
    by_cases target : d.nodes.length ≤ e.target.node <;>
      simp [source, target, endOf, inside, eq_comm]

variable {k : Nat} {e : Nat × Connection} (connection : d.connections[k]? = some e)
include connection

theorem tells_endpointIssues (s : Bool) (placed : inRange d e.2 = true) :
    Tells d c (· = .unknownInterface k s)
      (endpointIssues (d.nodes.map (labelOf c)) (d.nodes.map (typeOf? c)) e.1 (endOf e.2 s)) := by
  have inside : (endOf e.2 s).node < d.nodes.length := by
    simp only [inRange, Bool.and_eq_true, decide_eq_true_eq] at placed
    cases s <;> simp [endOf, placed]
  obtain ⟨n, node⟩ : ∃ n, d.nodes[(endOf e.2 s).node]? = some n :=
    ⟨_, List.getElem?_eq_getElem inside⟩
  rw [endpointIssues, typeAt?_eq, node, Option.bind_some, labelAt_eq node]
  cases typed : typeOf? c n with
  | none =>
    refine .none fun j broken => ?_
    cases broken with
    | unknownInterface connection' placed' node' typed' undeclared => simp_all
  | some t =>
    cases declared : t.interface? (endOf e.2 s).interface with
    | none =>
      simp only [NodeType.hasInterface, declared]
      exact .one (.unknownInterface connection placed node typed declared)
    | some f =>
      simp only [NodeType.hasInterface, declared]
      refine .none fun j broken => ?_
      cases broken with
      | unknownInterface connection' placed' node' typed' undeclared => simp_all

theorem tells_pairIssues {n m : Node} {a b : Interface} (source : Declared d c e.2.source n a)
    (target : Declared d c e.2.target m b) :
    Tells d c (fun v => v = .incompatibleTags k ∨ v = .conflictingDirections k)
      (pairIssues (d.nodes.map (labelOf c)) e.1 e.2 a b) := by
  rw [pairIssues, endpointName_eq source.node, endpointName_eq target.node]
  refine .append ?_ ?_ (by rintro v rfl; simp)
  · split
    case isTrue compatible =>
      refine .none fun j broken => ?_
      cases broken with
      | incompatibleTags connection' source' target' unlike =>
        rw [connection] at connection'; cases connection'
        obtain ⟨rfl, rfl⟩ := source.unique source'
        obtain ⟨rfl, rfl⟩ := target.unique target'
        simp [compatible] at unlike
    case isFalse unlike =>
      exact .one (.incompatibleTags connection source target (Bool.not_eq_true _ ▸ unlike))
  · split
    case isTrue pairs =>
      refine .none fun j broken => ?_
      cases broken with
      | conflictingDirections connection' source' target' conflict =>
        rw [connection] at connection'; cases connection'
        obtain ⟨rfl, rfl⟩ := source.unique source'
        obtain ⟨rfl, rfl⟩ := target.unique target'
        simp [pairs] at conflict
    case isFalse conflict =>
      exact .one (.conflictingDirections connection source target
        (Bool.not_eq_true _ ▸ conflict))

/-- The instances about a connection. -/
inductive AboutConnection (k : Nat) : Violation → Prop
  | outside : AboutConnection k (.outside k)
  | unknownInterface (s) : AboutConnection k (.unknownInterface k s)
  | incompatibleTags : AboutConnection k (.incompatibleTags k)
  | conflictingDirections : AboutConnection k (.conflictingDirections k)

/-- A connection that leaves the design breaks no other rule. -/
theorem tells_outside {x : Endpoint} (left : outside? (d.nodes.map (typeOf? c)) e.2 = some x) :
    Tells d c (AboutConnection k)
      [.danglingConnection e.1 ("node " ++ Decimal.natText x.node ++ "." ++ x.interface)] := by
  have notPlaced : inRange d e.2 ≠ true := fun placed => by
    rw [(outside?_eq_none_iff (List.length_map (typeOf? c))).mpr placed] at left
    cases left
  obtain ⟨s, rfl, beyond, first⟩ :=
    (outside?_eq_some_iff (List.length_map (typeOf? c))).mp left
  refine (Tells.one (.outside connection beyond first)).congr fun v j broken => ?_
  constructor
  · rintro rfl
    exact .outside
  · rintro (_ | s' | _ | _)
    · rfl
    · cases broken with
      | unknownInterface connection' placed _ _ _ =>
        rw [connection] at connection'; cases connection'
        exact absurd placed notPlaced
    · cases broken with
      | incompatibleTags connection' source target _ =>
        rw [connection] at connection'; cases connection'
        exact absurd (source.inRange target) notPlaced
    · cases broken with
      | conflictingDirections connection' source target _ =>
        rw [connection] at connection'; cases connection'
        exact absurd (source.inRange target) notPlaced

theorem tells_interfaces : Tells d c
    (fun v => v = .incompatibleTags k ∨ v = .conflictingDirections k)
    (match interfaceAt? (d.nodes.map (typeOf? c)) e.2.source,
        interfaceAt? (d.nodes.map (typeOf? c)) e.2.target with
      | some a, some b => pairIssues (d.nodes.map (labelOf c)) e.1 e.2 a b
      | _, _ => []) := by
  split
  case h_1 a b source target =>
    obtain ⟨n, source⟩ := interfaceAt?_eq_some_iff.mp source
    obtain ⟨m, target⟩ := interfaceAt?_eq_some_iff.mp target
    exact tells_pairIssues connection source target
  case h_2 undeclared =>
    refine .nil fun v j about broken => ?_
    obtain ⟨n, m, a, b, source, target⟩ :
        ∃ n m a b, Declared d c e.2.source n a ∧ Declared d c e.2.target m b := by
      obtain rfl | rfl := about
      · cases broken with
        | incompatibleTags connection' source target _ =>
          rw [connection] at connection'; cases connection'
          exact ⟨_, _, _, _, source, target⟩
      · cases broken with
        | conflictingDirections connection' source target _ =>
          rw [connection] at connection'; cases connection'
          exact ⟨_, _, _, _, source, target⟩
    exact undeclared a b (interfaceAt?_eq_some_iff.mpr ⟨n, source⟩)
      (interfaceAt?_eq_some_iff.mpr ⟨m, target⟩)

theorem tells_connectionIssues : Tells d c (AboutConnection k)
    (connectionIssues (d.nodes.map (labelOf c)) (d.nodes.map (typeOf? c)) e.1 e.2) := by
  unfold connectionIssues
  cases left : outside? (d.nodes.map (typeOf? c)) e.2 with
  | some x => exact tells_outside connection left
  | none =>
    have placed := (outside?_eq_none_iff (List.length_map (typeOf? c))).mp left
    have ends := (tells_endpointIssues (c := c) connection true placed).append
      (tells_endpointIssues connection false placed) (by rintro v rfl; simp)
    have all := ends.append (tells_interfaces connection) (by rintro v (rfl | rfl) <;> simp)
    refine all.congr fun v j broken => ?_
    constructor
    · rintro ((rfl | rfl) | rfl | rfl)
      · exact .unknownInterface true
      · exact .unknownInterface false
      · exact .incompatibleTags
      · exact .conflictingDirections
    · rintro (_ | s | _ | _)
      · cases broken with
        | @outside _ _ s connection' beyond _ =>
          rw [connection] at connection'; cases connection'
          simp only [inRange, Bool.and_eq_true, decide_eq_true_eq] at placed
          cases s <;> simp only [endOf] at beyond <;> simp at beyond <;> omega
      · cases s <;> simp
      · simp
      · simp

end Connections

theorem tells_connections : Tells d c (·.part = .connections) (d.connections.flatMap fun e =>
    connectionIssues (d.nodes.map (labelOf c)) (d.nodes.map (typeOf? c)) e.1 e.2) := by
  refine (Tells.places AboutConnection
    (fun k e connection => tells_connectionIssues connection) ?_).congr
    fun v j broken => ?_
  · rintro k l v (_ | _ | _ | _) (_ | _ | _ | _) <;> rfl
  · constructor
    · rintro ⟨k, _, _ | _ | _ | _⟩ <;> rfl
    · intro part
      cases broken with
      | outside connection _ _ =>
        exact ⟨_, (List.getElem?_eq_some_iff.mp connection).1, .outside⟩
      | unknownInterface connection _ _ _ _ =>
        exact ⟨_, (List.getElem?_eq_some_iff.mp connection).1, .unknownInterface _⟩
      | incompatibleTags connection _ _ _ =>
        exact ⟨_, (List.getElem?_eq_some_iff.mp connection).1, .incompatibleTags⟩
      | conflictingDirections connection _ _ _ =>
        exact ⟨_, (List.getElem?_eq_some_iff.mp connection).1, .conflictingDirections⟩
      | _ => cases part

theorem tells_unresolved : Tells d c (·.part = .unresolved)
    (d.unresolved.map fun u => .danglingConnection u.position u.interfaceId) := by
  rw [List.map_eq_flatMap]
  refine (Tells.places (fun k v => v = .unresolved k)
    (fun k u connection => .one (.unresolved connection)) ?_).congr fun v j broken => ?_
  · rintro k l v rfl same
    cases same
    rfl
  · constructor
    · rintro ⟨k, _, rfl⟩
      rfl
    · intro part
      cases broken with
      | unresolved connection => exact ⟨_, (List.getElem?_eq_some_iff.mp connection).1, rfl⟩
      | _ => cases part

section Limits

theorem ends_eq_countedEnds : ends (d.nodes.map (typeOf? c)) d.connections = countedEnds d := by
  rw [ends, countedEnds, endsOf]
  induction d.connections with
  | nil => rfl
  | cons e rest ih =>
    rw [List.flatMap_cons, ih]
    by_cases placed : inRange d e.2 = true
    · simp [placed, (outside?_eq_none_iff (List.length_map (typeOf? c))).mpr placed]
    · have left : outside? (d.nodes.map (typeOf? c)) e.2 ≠ none := fun none =>
        placed ((outside?_eq_none_iff (List.length_map (typeOf? c))).mp none)
      simp [placed, Option.isSome_iff_ne_none.mpr left]

/-- The ends at an interface of a node, counted among the ends at the node. -/
theorem count_interfaces (all : List Endpoint) (node : Nat) (interface : String) :
    ((all.filter fun e => e.node = node).map (·.interface)).count interface =
      all.count ⟨node, interface⟩ := by
  induction all with
  | nil => rfl
  | cons e rest ih =>
    obtain ⟨m, name⟩ := e
    by_cases same : m = node
    · subst same
      simp [List.count_cons, ih]
    · simp [same, ih]

theorem tells_limit (e : Endpoint) :
    Tells d c (· = .overLimit e.node e.interface)
      (match (interfaceAt? (d.nodes.map (typeOf? c)) e).bind (·.connectionLimit) with
        | some limit =>
          if limit < (countedEnds d).count e then
            some (Issue.limitExceeded (labelAt (d.nodes.map (labelOf c)) e.node) e.interface limit
              ((countedEnds d).count e))
          else none
        | none => none).toList := by
  cases limited : (interfaceAt? (d.nodes.map (typeOf? c)) e).bind (·.connectionLimit) with
  | none =>
    refine .none fun j broken => ?_
    obtain ⟨n, f, limit, declared, limited', _⟩ := broken.exists_limit
    rw [interfaceAt?_eq_some_iff.mpr ⟨n, declared⟩, Option.bind_some, limited'] at limited
    cases limited
  | some limit =>
    obtain ⟨f, declared, limited⟩ := Option.bind_eq_some_iff.mp limited
    obtain ⟨n, declared⟩ := interfaceAt?_eq_some_iff.mp declared
    simp only [labelAt_eq declared.node]
    split
    case isTrue exceeds => exact .one (.overLimit declared limited exceeds)
    case isFalse within =>
      refine .none fun j broken => ?_
      obtain ⟨n', f', limit', declared', limited', exceeds, _⟩ := broken.exists_limit
      obtain ⟨rfl, rfl⟩ := declared.unique declared'
      rw [limited] at limited'
      cases limited'
      exact within exceeds

theorem tells_limitIssues (node : Nat) :
    Tells d c (fun v => ∃ interface, v = .overLimit node interface)
      (limitIssues (d.nodes.map (labelOf c)) (d.nodes.map (typeOf? c)) (countedEnds d) node) := by
  unfold limitIssues
  refine (Tells.filterMap (fun e v => v = .overLimit node e.1) (Table.nodup_toList _)
    (fun e mem => ?_) ?_).congr fun v j broken => ?_
  · obtain ⟨interface, used⟩ := e
    obtain ⟨rfl, _⟩ := mem_tally_iff.mp mem
    rw [count_interfaces]
    exact tells_limit ⟨node, interface⟩
  · rintro ⟨interface, used⟩ mem ⟨interface', used'⟩ mem' v rfl same
    cases same
    rw [(mem_tally_iff.mp mem).1, (mem_tally_iff.mp mem').1]
  · constructor
    · rintro ⟨e, _, rfl⟩
      exact ⟨e.1, rfl⟩
    · rintro ⟨interface, rfl⟩
      refine ⟨(interface, _), mem_tally_iff.mpr ⟨rfl, ?_⟩, rfl⟩
      obtain ⟨n, f, limit, _, _, exceeds, _⟩ := Broken.exists_limit (e := ⟨node, interface⟩) broken
      rw [← List.count_pos_iff, count_interfaces]
      omega

theorem tells_limits : Tells d c (·.part = .limits)
    ((List.range d.nodes.length).flatMap
      (limitIssues (d.nodes.map (labelOf c)) (d.nodes.map (typeOf? c)) (countedEnds d))) := by
  refine (Tells.flatMap _ List.nodup_range (fun node _ => tells_limitIssues node) ?_).congr
    fun v j broken => ?_
  · rintro node _ node' _ v ⟨interface, rfl⟩ ⟨interface', same⟩
    cases same
    rfl
  · constructor
    · rintro ⟨node, _, interface, rfl⟩
      rfl
    · intro part
      cases broken with
      | overLimit declared _ _ => exact ⟨_, List.mem_range.mpr declared.lt_length, _, rfl⟩
      | _ => cases part

end Limits

/-- The issues of another part after those of some parts. -/
theorem Tells.appendPart {parts : List Part} {part : Part} {found found' : List Issue}
    (h : Tells d c (·.part ∈ parts) found) (h' : Tells d c (·.part = part) found')
    (fresh : part ∉ parts) : Tells d c (·.part ∈ part :: parts) (found ++ found') := by
  refine (h.append h' fun v before here => fresh (here ▸ before)).congr fun v _ _ => ?_
  rw [List.mem_cons, or_comm]

/-- All issues are those of all broken instances. -/
theorem tells_issues : Tells d c (fun _ => True) (issues d c) := by
  simp only [issues, ends_eq_countedEnds]
  have nodes : Tells d c (·.part ∈ [.nodes]) (d.nodes.flatMap (nodeIssues c)) :=
    tells_nodes.congr fun v _ _ => List.mem_singleton.symm
  have all := ((((nodes.appendPart tells_labels (by decide)).appendPart tells_roots
    (by decide)).appendPart tells_unresolved (by decide)).appendPart tells_connections
    (by decide)).appendPart tells_limits (by decide)
  exact all.congr fun v _ _ => by cases v <;> simp [Violation.part]

/-- The issues of a validation, none if it succeeds. -/
def reported : Except (List Issue) ValidDesign → List Issue
  | .ok _ => []
  | .error found => found

theorem reported_validate : reported (validate d c) = issues d c := by
  unfold validate
  split <;> simp_all [reported]

theorem issues_eq_nil_iff_sound : issues d c = [] ↔ Sound d c := by
  obtain ⟨told, found, _, all⟩ := tells_issues (d := d) (c := c)
  rw [sound_iff_not_broken, ← found, List.map_eq_nil_iff, List.eq_nil_iff_forall_not_mem]
  constructor
  · intro none v i broken
    exact none (v, i) ((all v i).mpr ⟨trivial, broken⟩)
  · rintro intact ⟨v, i⟩ mem
    exact intact v i ((all v i).mp mem).2

theorem validate_eq_ok_iff {g : ValidDesign} :
    validate d c = .ok g ↔ Sound d c ∧
      g = ⟨d, c, viewsFrom c 0 d.nodes, (rootsOf (d.nodes.map (typeOf? c))).head?⟩ := by
  rw [← issues_eq_nil_iff_sound, validate]
  split
  case h_1 none =>
    have sound : Sound d c := issues_eq_nil_iff_sound.mp none
    have views : (Rows.ofNodes c d.nodes).views d.nodes = viewsFrom c 0 d.nodes :=
      views_ofNodes fun _ mem => sound.exists_typeOf? mem
    simp only [none, views, true_and, Except.ok.injEq]
    exact eq_comm
  case h_2 some => exact ⟨nofun, fun h => (some h.1).elim⟩

/-- Validation succeeds for exactly the sound designs, and otherwise tells of every broken instance
of a rule once and of nothing else. -/
theorem validate_sound_and_complete (d : Design) (c : EffectiveCatalog) :
    ((∃ g, validate d c = .ok g) ↔ Sound d c) ∧
      ∃ told : List (Violation × Issue), told.map (·.2) = reported (validate d c) ∧
        (told.map (·.1)).Nodup ∧ ∀ v i, (v, i) ∈ told ↔ Broken d c v i := by
  obtain ⟨told, found, once, all⟩ := tells_issues (d := d) (c := c)
  simp only [true_and] at all
  refine ⟨?_, told, found.trans reported_validate.symm, once, all⟩
  simp only [validate_eq_ok_iff, exists_and_left, exists_eq, and_true]

end BoardDesign.Graph
