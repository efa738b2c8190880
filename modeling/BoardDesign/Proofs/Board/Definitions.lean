import BoardDesign.Proofs.Board.Labels
import BoardDesign.Proofs.Graph.Neighbours

/-!
# How often the overlay defines a node

The overlay writes a definition for each link of the root, so a node with several links is
defined several times, under one label.

* `timesLinked`: how often a node is met from the root, in terms of connections;
* `count_definedLabels`: a definition for each link of a node that something is written for;
* `definedLabels_nodup_iff`: the labels are distinct exactly if no such node has two links;
* `twice_wired_defined_twice`: a LED at two pins and a sensor at two buses are defined twice.
-/

namespace BoardDesign.Board

open Graph (ValidDesign NodeView RootLink validate ownEnd farEnd walk)
open Design (Connection MadeInOrder)

instance (v : NodeView) : Decidable (Written v) :=
  inferInstanceAs <| Decidable <|
    if NodeRule.leds.matchesType v.type then (v.interfaceAddress "gpio").isSome = true
    else v.type.compats ≠ []

/-- How often a walk over the interfaces of the root meets a connection with the node. -/
def timesLinked (g : ValidDesign) (v : NodeView) : Nat :=
  match g.boardRoot? with
  | none => 0
  | some r =>
    (walk r.index (g.connectionsOf r.index) r.node.interfaces).countP fun e =>
      (farEnd r.index e.2).node = v.index

/-- Each link to a node that something is written for defines the label of the node once. -/
theorem count_definedLabels (links : List RootLink) (label : String) :
    (Overlay.ofLinks links).definedLabels.count label =
      links.countP fun l => Written l.node ∧ l.node.label = label := by
  simp only [Overlay.definedLabels, Overlay.ofLinks, List.count_append]
  induction links with
  | nil => rfl
  | cons l rest ih =>
    rw [List.countP_cons, ← ih]
    by_cases led : NodeRule.leds.matchesType l.node.type
    · cases address : l.node.interfaceAddress "gpio" with
      | none => simp [isLed, isSensor, Written, ledOf?, led, address]
      | some pin =>
        simp [isLed, isSensor, Written, ledOf?, led, address, List.count_cons]
        omega
    · by_cases compats : l.node.type.compats = []
      · simp [isLed, isSensor, Written, led, compats]
      · simp [isLed, isSensor, Written, led, compats, sensorOf, List.count_cons]
        omega

section Valid

variable {d : Design} {c : EffectiveCatalog} {g : ValidDesign} (valid : validate d c = .ok g)
include valid

theorem countP_links_to {v : NodeView} (mem : v ∈ g.nodes) {node : Nat} {links : List RootLink}
    {connections : List (Nat × Connection)}
    (shown : List.Forall₂ (Graph.Shows g node) links connections) :
    (links.countP fun l => l.node = v) =
      connections.countP fun e => (farEnd node e.2).node = v.index := by
  induction shown with
  | nil => rfl
  | @cons l e _ _ first _ ih =>
    have there := Graph.index_eq_of_getElem? valid first.node
    have same : l.node = v ↔ (farEnd node e.2).node = v.index := by
      refine ⟨fun eq => by rw [← eq, there], fun eq => ?_⟩
      exact ValidDesign.eq_of_index valid (List.mem_of_getElem? first.node) mem (there.trans eq)
    simp only [List.countP_cons, ih, same]

theorem countP_rootNeighbours {v : NodeView} (mem : v ∈ g.nodes) :
    (g.rootNeighbours.countP fun l => l.node = v) = timesLinked g v := by
  rw [timesLinked]
  cases root : g.boardRoot? with
  | none => rw [Graph.rootNeighbours_eq_nil valid root, List.countP_nil]
  | some r => exact countP_links_to valid mem (Graph.forall₂_rootNeighbours valid root)

/-- In a design that is made in order every connection of the root and the node counts once. -/
theorem timesLinked_eq_countP (inOrder : MadeInOrder d) {r : NodeView}
    (root : g.boardRoot? = some r) (v : NodeView) :
    timesLinked g v =
      (g.connectionsOf r.index).countP fun e => (farEnd r.index e.2).node = v.index := by
  have once := Graph.perm_walk fun e => Graph.once_of_registered valid root inOrder.registered
  simp only [timesLinked, root]
  exact once.countP_eq _

theorem count_label {v : NodeView} (mem : v ∈ g.nodes) :
    (Overlay.ofLinks g.rootNeighbours).definedLabels.count v.label =
      if Written v then timesLinked g v else 0 := by
  have labelled : ∀ l ∈ g.rootNeighbours, l.node.label = v.label ↔ l.node = v := fun l wired =>
    ⟨ValidDesign.eq_of_label valid (ValidDesign.mem_nodes_of_link wired) mem, fun eq => eq ▸ rfl⟩
  rw [count_definedLabels]
  split
  · rename_i written
    rw [← countP_rootNeighbours valid mem]
    refine List.countP_congr fun l wired => ?_
    simp only [decide_eq_true_eq, labelled l wired]
    exact ⟨And.right, fun eq => ⟨eq ▸ written, eq⟩⟩
  · rename_i unwritten
    refine List.countP_eq_zero.mpr fun l wired both => ?_
    obtain ⟨written, same⟩ := of_decide_eq_true both
    exact unwritten ((labelled l wired).mp same ▸ written)

/-- A node has a definition for each of its links if something is written for it. So the labels
are distinct exactly if no node that something is written for has two links. -/
theorem definedLabels_nodup_iff :
    (∀ v ∈ g.nodes, (Overlay.ofLinks g.rootNeighbours).definedLabels.count v.label =
        if Written v then timesLinked g v else 0) ∧
      ((Overlay.ofLinks g.rootNeighbours).definedLabels.Nodup ↔
        ∀ v ∈ g.nodes, Written v → timesLinked g v ≤ 1) := by
  refine ⟨fun v => count_label valid, ?_⟩
  rw [List.nodup_iff_count_le_one]
  constructor
  · intro distinct v mem written
    have counted := count_label valid mem
    rw [if_pos written] at counted
    exact counted ▸ distinct v.label
  · intro single label
    by_cases defined : label ∈ (Overlay.ofLinks g.rootNeighbours).definedLabels
    · obtain ⟨l, wired, written, rfl⟩ := mem_definedLabels_iff.mp defined
      have mem := ValidDesign.mem_nodes_of_link wired
      rw [count_label valid mem, if_pos written]
      exact single l.node mem written
    · rw [List.count_eq_zero_of_not_mem defined]
      exact Nat.zero_le 1

end Valid

/-- A controller, a LED with a pin of an address and a second pin, and a device for two buses. -/
def twoWayCatalog : Catalog :=
  let type (name category : String) (properties : List Property) (interfaces : List String)
      (data : Option Json) : NodeType :=
    ⟨name, some category, properties, interfaces.map fun i => ⟨i, .inout, none, ⟨[]⟩, none, .empty⟩,
      false, false, [], .empty, data, .empty⟩
  ⟨.empty, [type "MCU" "SoC/MCU" [] ["gpioa", "i2c1", "spi1"] none,
    type "LED" "IO/LED" [⟨"address (gpio)", .text, some (.str "5"), [], .empty⟩]
      ["gpio", "enable"] none,
    type "BME280" "Sensors/Environment" [] ["i2c", "spi"]
      (some (.obj [("compats", .arr [.str "bosch,bme280"])]))], .empty⟩

/-- The types of the catalog; none inherits. -/
def twoWayTypes : EffectiveCatalog :=
  ⟨twoWayCatalog, Table.ofList (twoWayCatalog.nodes.map fun t => (t.name, t))⟩

/-- Both pins of the LED and both buses of the device wired to the controller. -/
def twoWayDesign : Design :=
  let d := ((Design.empty.addNode "MCU" "mcu").1.addNode "LED" "led0").1
  let d := (d.addNode "BME280" "bme0").1
  let d := ((d.connect ⟨1, "gpio"⟩ ⟨0, "gpioa"⟩).1.connect ⟨1, "enable"⟩ ⟨0, "gpioa"⟩).1
  ((d.connect ⟨2, "i2c"⟩ ⟨0, "i2c1"⟩).1.connect ⟨2, "spi"⟩ ⟨0, "spi1"⟩).1

def twoWayBoard : ValidDesign :=
  ⟨twoWayDesign, twoWayTypes, Graph.viewsFrom twoWayTypes 0 twoWayDesign.nodes, some 0⟩

theorem definedLabels_nodup_iff_twoWayBoard :
    validate twoWayDesign twoWayTypes = .ok twoWayBoard ∧
      (∀ v ∈ twoWayBoard.nodes,
        (Overlay.ofLinks twoWayBoard.rootNeighbours).definedLabels.count v.label =
          if Written v then timesLinked twoWayBoard v else 0) ∧
      ((Overlay.ofLinks twoWayBoard.rootNeighbours).definedLabels.Nodup ↔
        ∀ v ∈ twoWayBoard.nodes, Written v → timesLinked twoWayBoard v ≤ 1) :=
  have valid : validate twoWayDesign twoWayTypes = .ok twoWayBoard := by decide
  ⟨valid, definedLabels_nodup_iff valid⟩

/-- A LED with both pins at the controller and a device on two buses: each is defined twice. -/
theorem twice_wired_defined_twice :
    twoWayCatalog.compose [] = .ok twoWayTypes ∧ MadeInOrder twoWayDesign ∧
      validate twoWayDesign twoWayTypes = .ok twoWayBoard ∧
      (Overlay.ofLinks twoWayBoard.rootNeighbours).definedLabels =
        ["led0", "led0", "bme0", "bme0"] ∧
      ¬ (Overlay.ofLinks twoWayBoard.rootNeighbours).definedLabels.Nodup := by
  have inOrder : MadeInOrder twoWayDesign := by
    have nodes := ((MadeInOrder.empty.addNode "MCU" "mcu").addNode "LED" "led0").addNode
      "BME280" "bme0"
    refine .connect (.connect (.connect (.connect nodes ?_ ?_) ?_ ?_) ?_ ?_) ?_ ?_ <;> decide
  exact ⟨by decide, inOrder, by decide, by decide, by decide⟩

end BoardDesign.Board
