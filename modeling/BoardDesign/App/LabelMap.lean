import BoardDesign.Board.Rule
/-!
Lists of node labels, which templates repeat lines for.

With a board root only the nodes that are wired to it count, for only they have labels in the
devicetree.
-/

namespace BoardDesign.App

open Graph (ValidDesign NodeView)

/-- The list of every label that is in some other list. -/
def allLabels : String := "all_labels"

def builtinRules : Table NodeRule :=
  Table.ofList [("leds", .leds), ("thermometers", .thermometers)]

/-- The built-in rules with those of a template over them; the list of all labels has no rule. -/
def rulesWith (lists : Table NodeRule) : Table NodeRule :=
  (builtinRules.overlay lists).erase allLabels

/-- The nodes that count for label lists, in the order of the design. -/
def countedNodes (g : ValidDesign) : List NodeView :=
  match g.boardRoot? with
  | none => g.nodes
  | some _ =>
    let wired := g.rootNeighbours.map (·.node.index)
    g.nodes.filter fun v => wired.contains v.index

/-- A label at the end of the list of a name, if there is such a list. -/
def addLabel (label : String) (lists : Table (List String)) (name : String) :
    Table (List String) :=
  match lists.get? name with
  | none => lists
  | some labels => lists.insert name (labels ++ [label])

/-- A node before a rule: the lists so far, and whether some rule has picked the node. -/
def tryRule (v : NodeView) (sofar : Table (List String) × Bool) (e : String × NodeRule) :
    Table (List String) × Bool :=
  if e.2.matchesType v.type then (addLabel v.label sofar.1 e.1, true) else sofar

/-- The lists of the rules and the list of all labels, as far as the nodes have been seen. -/
structure Collected where
  lists : Table (List String)
  all : List String

/-- A node goes through all rules, and into the list of all labels if one of them picks it. -/
def Collected.add (rules : Table NodeRule) (c : Collected) (v : NodeView) : Collected :=
  let (lists, picked) := rules.toList.foldl (tryRule v) (c.lists, false)
  ⟨lists, if picked then c.all ++ [v.label] else c.all⟩

/-- A list for each rule, and the list of all labels. A rule that picks no node has an empty
list. -/
def labelMap (g : ValidDesign) (rules : Table NodeRule) : Table (List String) :=
  let c := (countedNodes g).foldl (Collected.add rules) ⟨rules.map fun _ => [], []⟩
  c.lists.insert allLabels c.all

end BoardDesign.App
