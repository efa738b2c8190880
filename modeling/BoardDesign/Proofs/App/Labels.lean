import BoardDesign.App.LabelMap
import BoardDesign.Proofs.Graph.Neighbours

/-!
# Lists of labels

The lists are collected node by node, and for each node rule by rule.

* `Collected.of`: what has been collected after some nodes;
* `Collected.of_add`: one more node keeps that form, whatever rules pick it;
* `labelMap_eq`: so every list is a filter of the counted nodes, for any rules;
* `labelMap_rulesWith`: with the rules of a template, each label of a node that counts is once in
  every list whose rule picks the node.
-/

namespace BoardDesign.App

open Graph (ValidDesign NodeView validate)

/-! ## One node goes through the rules -/

/-- The labels of the nodes that a rule picks. -/
def labelsOf (nodes : List NodeView) (rule : NodeRule) : List String :=
  (nodes.filter fun v => rule.matchesType v.type).map (·.label)

/-- Some rule picks the node. -/
def pickedBy (rules : Table NodeRule) (v : NodeView) : Bool :=
  rules.values.any fun r => r.matchesType v.type

theorem labelsOf_append (nodes more : List NodeView) (rule : NodeRule) :
    labelsOf (nodes ++ more) rule = labelsOf nodes rule ++ labelsOf more rule := by
  rw [labelsOf, List.filter_append, List.map_append]
  rfl

theorem get?_addLabel (label : String) (lists : Table (List String)) (name other : String) :
    (addLabel label lists name).get? other =
      if other = name then (lists.get? other).map (· ++ [label]) else lists.get? other := by
  unfold addLabel
  by_cases same : other = name
  · subst same
    cases found : lists.get? other with
    | none => simp [found]
    | some labels => simp
  · cases lists.get? name with
    | none => simp [same]
    | some labels => simp [same]

/-- A rule that picks the node adds its label to the list of its own name. -/
theorem get?_tryRule (v : NodeView) (lists : Table (List String)) (picked : Bool)
    (name : String) (rule : NodeRule) (other : String) :
    (tryRule v (lists, picked) (name, rule)).1.get? other =
      if other = name then (lists.get? other).map (· ++ labelsOf [v] rule)
      else lists.get? other := by
  by_cases picks : rule.matchesType v.type = true
  · simp [tryRule, picks, get?_addLabel, labelsOf]
  · simp [tryRule, picks, labelsOf]

theorem tryRule_snd (v : NodeView) (sofar : Table (List String) × Bool) (e : String × NodeRule) :
    (tryRule v sofar e).2 = (sofar.2 || e.2.matchesType v.type) := by
  unfold tryRule
  split <;> simp [*]

/-- After all rules, each list that is named by a rule has the label if that rule picks the node.
No two rules have one name, so no rule adds to the list of another. -/
theorem get?_foldl_tryRule (v : NodeView) {entries : List (String × NodeRule)}
    (distinct : (entries.map (·.1)).Nodup) (sofar : Table (List String) × Bool) (name : String) :
    (entries.foldl (tryRule v) sofar).1.get? name =
      (sofar.1.get? name).map (· ++ (findEntry name entries).elim [] (labelsOf [v])) := by
  induction entries generalizing sofar with
  | nil => simp [findEntry]
  | cons e rest ih =>
    obtain ⟨own, rule⟩ := e
    obtain ⟨lists, picked⟩ := sofar
    obtain ⟨fresh, distinct⟩ := List.nodup_cons.mp distinct
    rw [List.foldl_cons, ih distinct, get?_tryRule, findEntry]
    by_cases same : name = own
    · subst same
      have absent : findEntry name rest = none := findEntry_eq_none_iff.mpr fresh
      simp [absent, Function.comp_def]
    · rw [if_neg same, if_neg same]

theorem foldl_tryRule_snd (v : NodeView) (entries : List (String × NodeRule))
    (sofar : Table (List String) × Bool) :
    (entries.foldl (tryRule v) sofar).2 =
      (sofar.2 || entries.any fun e => e.2.matchesType v.type) := by
  induction entries generalizing sofar with
  | nil => simp
  | cons e rest ih => rw [List.foldl_cons, ih, tryRule_snd, List.any_cons, Bool.or_assoc]

/-- The lists of labels of some nodes, after one node more. -/
theorem foldl_tryRule_map (rules : Table NodeRule) (nodes : List NodeView) (v : NodeView) :
    rules.toList.foldl (tryRule v) (rules.map (labelsOf nodes), false) =
      (rules.map (labelsOf (nodes ++ [v])), pickedBy rules v) := by
  refine Prod.ext (Table.ext fun name => ?_) ?_
  · have collected :
        (rules.toList.foldl (tryRule v) (rules.map (labelsOf nodes), false)).1.get? name =
          ((rules.map (labelsOf nodes)).get? name).map
            (· ++ (rules.get? name).elim [] (labelsOf [v])) :=
      get?_foldl_tryRule v rules.nodup_keys _ name
    rw [collected, Table.get?_map, Table.get?_map]
    cases rules.get? name with
    | none => rfl
    | some rule => simp [labelsOf_append]
  · rw [foldl_tryRule_snd, Bool.false_or, pickedBy, Table.values, List.any_map]
    rfl

/-! ## All nodes -/

/-- What has been collected when some nodes have been seen: each list is a filter of them. -/
def Collected.of (rules : Table NodeRule) (nodes : List NodeView) : Collected :=
  ⟨rules.map (labelsOf nodes), (nodes.filter (pickedBy rules)).map (·.label)⟩

namespace Collected

variable (rules : Table NodeRule)

theorem of_nil : of rules [] = ⟨rules.map fun _ => [], []⟩ := rfl

/-- One more node, which some rules pick, or none. -/
theorem of_add (nodes : List NodeView) (v : NodeView) :
    (of rules nodes).add rules v = of rules (nodes ++ [v]) := by
  rw [add, of, foldl_tryRule_map, of, List.filter_append, List.map_append]
  cases picked : pickedBy rules v with
  | false => simp [picked]
  | true => simp [picked]

/-- All nodes. -/
theorem of_foldl (before after : List NodeView) :
    after.foldl (add rules) (of rules before) = of rules (before ++ after) := by
  induction after generalizing before with
  | nil => rw [List.foldl_nil, List.append_nil]
  | cons v rest ih => rw [List.foldl_cons, of_add, ih, List.append_assoc, List.singleton_append]

end Collected

/-- Every list is a filter of the counted nodes, for any rules. -/
theorem labelMap_eq (g : ValidDesign) (rules : Table NodeRule) :
    labelMap g rules = (rules.map (labelsOf (countedNodes g))).insert allLabels
      (((countedNodes g).filter (pickedBy rules)).map (·.label)) := by
  rw [labelMap, ← Collected.of_nil, Collected.of_foldl]
  rfl

/-! ## Rules of a template -/

theorem get?_rulesWith (lists : Table NodeRule) (name : String) :
    (rulesWith lists).get? name =
      if name = allLabels then none else (lists.get? name <|> builtinRules.get? name) := by
  rw [rulesWith, Table.get?_erase, Table.get?_overlay]

/-- A list of a template cannot take the place of the list of all labels. -/
theorem rulesWith_insert_allLabels (lists : Table NodeRule) (rule : NodeRule) :
    rulesWith (lists.insert allLabels rule) = rulesWith lists := by
  refine Table.ext fun name => ?_
  rw [get?_rulesWith, get?_rulesWith]
  split
  · rfl
  · next other => rw [Table.get?_insert, if_neg other]

/-! ## Nodes that count -/

/-- The node counts for lists of labels: it is a neighbour of the board root, or there is no board
root. -/
def Counted (g : ValidDesign) (v : NodeView) : Prop :=
  g.boardRoot? = none ∨ ∃ l ∈ g.rootNeighbours, l.node = v

instance (g : ValidDesign) : DecidablePred (Counted g) :=
  fun _ => inferInstanceAs (Decidable (_ ∨ _))

/-- The labels of the counted nodes that pass a test, in the order of the design. -/
def countedLabels (g : ValidDesign) (test : NodeView → Bool) : List String :=
  (g.nodes.filter fun v => test v && decide (Counted g v)).map (·.label)

/-- Lists of labels that are right for some rules. -/
structure ListsCounted (g : ValidDesign) (rules : Table NodeRule) (labels : Table (List String)) :
    Prop where
  names : ∀ name, name ∈ labels.keys ↔ name = allLabels ∨ name ∈ rules.keys
  own : ∀ name rule, rules.get? name = some rule →
    labels.get? name = some (countedLabels g fun v => rule.matchesType v.type)
  all : labels.get? allLabels = some (countedLabels g (pickedBy rules))
  once : ∀ name list, labels.get? name = some list → list.Nodup

section Valid

variable {d : Design} {c : EffectiveCatalog} {g : ValidDesign} (valid : validate d c = .ok g)
include valid

/-- A node may be wired to the root by several connections. It is told by its place, and so it
counts once. -/
theorem countedNodes_eq : countedNodes g = g.nodes.filter fun v => decide (Counted g v) := by
  cases root : g.boardRoot? with
  | none => simp [countedNodes, root, Counted]
  | some r =>
    simp only [countedNodes, root]
    refine List.filter_congr fun v mem => Bool.eq_iff_iff.mpr ?_
    simp only [Counted, root, reduceCtorEq, false_or, List.contains_iff_mem, List.mem_map,
      decide_eq_true_eq]
    constructor
    · rintro ⟨l, wired, same⟩
      exact ⟨l, wired, ValidDesign.eq_of_index valid (ValidDesign.mem_nodes_of_link wired) mem same⟩
    · rintro ⟨l, wired, rfl⟩
      exact ⟨l, wired, rfl⟩

theorem map_label_countedNodes (test : NodeView → Bool) :
    ((countedNodes g).filter test).map (·.label) = countedLabels g test := by
  rw [countedNodes_eq valid, List.filter_filter]
  rfl

theorem nodup_countedLabels (test : NodeView → Bool) : (countedLabels g test).Nodup :=
  (ValidDesign.nodup_labels valid).sublist (List.filter_sublist.map _)

/-- With the rules of a template there is a list for each rule and the list of all labels. In each
are the labels of the counted nodes that its rule picks, or some rule. -/
theorem labelMap_rulesWith (lists : Table NodeRule) :
    ListsCounted g (rulesWith lists) (labelMap g (rulesWith lists)) ∧
      ∀ rule, labelMap g (rulesWith (lists.insert allLabels rule)) =
        labelMap g (rulesWith lists) := by
  refine ⟨?_, fun rule => by rw [rulesWith_insert_allLabels]⟩
  have look (name : String) : (labelMap g (rulesWith lists)).get? name =
      if name = allLabels then some (countedLabels g (pickedBy (rulesWith lists)))
      else ((rulesWith lists).get? name).map
        fun rule => countedLabels g fun v => rule.matchesType v.type := by
    have own : labelsOf (countedNodes g) =
        fun rule => countedLabels g fun v => rule.matchesType v.type :=
      funext fun rule => map_label_countedNodes valid _
    simp only [labelMap_eq, Table.get?_insert, Table.get?_map, own, map_label_countedNodes valid]
  constructor
  case names =>
    intro name
    rw [Table.mem_keys_iff, Table.mem_keys_iff, Table.contains, look]
    split <;> simp [Table.contains, *]
  case own =>
    intro name rule found
    have other : name ≠ allLabels := by
      rintro rfl
      rw [get?_rulesWith, if_pos rfl] at found
      cases found
    rw [look, if_neg other, found]
    rfl
  case all => rw [look, if_pos rfl]
  case once =>
    intro name list found
    rw [look] at found
    split at found
    · cases found
      exact nodup_countedLabels valid _
    · obtain ⟨rule, -, rfl⟩ := Option.map_eq_some_iff.mp found
      exact nodup_countedLabels valid _

end Valid

/-- The lamp is wired twice, for the controller writes its pin under two identifiers, and is listed
once. -/
theorem labelMap_rulesWith_lampFile :
    let d := Design.ofBody (Graph.lampFile ["pin", "spare"])
    let rules := rulesWith (Table.ofList [("inputs", ⟨["IO"], []⟩)])
    let labels := labelMap (Graph.lampBoard d) rules
    validate d Graph.lampTypes = .ok (Graph.lampBoard d) ∧
      (Graph.lampBoard d).rootNeighbours.map (·.node.index) = [1, 1] ∧
      ListsCounted (Graph.lampBoard d) rules labels ∧
      labels.toList = [("all_labels", ["led_n2"]), ("inputs", ["led_n2"]), ("leds", ["led_n2"]),
        ("thermometers", [])] := by
  have valid : validate (Design.ofBody (Graph.lampFile ["pin", "spare"])) Graph.lampTypes =
      .ok (Graph.lampBoard (Design.ofBody (Graph.lampFile ["pin", "spare"]))) := by decide
  exact ⟨valid, by decide, (labelMap_rulesWith valid _).1, by decide⟩

end BoardDesign.App
