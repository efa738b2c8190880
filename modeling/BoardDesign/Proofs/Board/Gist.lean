import BoardDesign.Board.Files
import BoardDesign.Proofs.Graph.Gist

/-!
# What of a design its board depends on

* `matchesType_congr`, `interfaceAddress_congr`: what a rule and an address depend on;
* `rootNeighbours_congr`: designs that are alike have roots with the same links;
* `socName_congr`, `designDevicetree_congr`: so they have the same SoC, and the same nodes in their
  devicetrees.
-/

namespace BoardDesign

open Json (compact told)

theorem NodeRule.matchesType_congr {t u : NodeType} (same : t.gist = u.gist) (r : NodeRule) :
    r.matchesType t = r.matchesType u := by
  have category : t.category = u.category := congrArg NodeType.Gist.category same
  have model : t.modelName = u.modelName := congrArg NodeType.Gist.modelName same
  have inside (path : String) : t.inCategory path = u.inCategory path := by
    rw [NodeType.inCategory, NodeType.inCategory, NodeType.categoryPath, NodeType.categoryPath,
      category]
  rw [matchesType, matchesType, model, funext inside]

namespace Graph

theorem NodeView.interfaceAddress_congr {v w : NodeView} (same : v.gist = w.gist)
    (interface : String) : v.interfaceAddress interface = w.interfaceAddress interface := by
  let isNamed (name : String) : Bool :=
    Text.occurs ("address (" ++ interface ++ ")").toList name.toList
  have whole (v : NodeView) : v.interfaceAddress interface =
      ((v.properties.toList.find? fun e => isNamed e.1).bind (·.2.str?)).bind Address.parse := by
    unfold NodeView.interfaceAddress
    dsimp only
    split
    · rename_i first
      rw [first]
      rfl
    · rename_i other
      cases first : v.properties.toList.find? fun e => isNamed e.1 with
      | none => rfl
      | some e =>
        obtain ⟨name, value⟩ := e
        cases value with
        | str s => exact (other name s first).elim
        | _ => rfl
  have texts : v.properties.toList.map told = w.properties.toList.map told :=
    (Table.map_eq_iff compact).mp (congrArg Gist.properties same)
  have firsts : (v.properties.toList.find? fun e => isNamed e.1).map told =
      (w.properties.toList.find? fun e => isNamed e.1).map told := by
    have onTexts (entries : List (String × Json)) : (entries.find? fun e => isNamed e.1).map told =
        (entries.map told).find? fun e => isNamed e.1 := by
      rw [List.find?_map]
      rfl
    rw [onTexts, onTexts, texts]
  have values := bind_eq_of_map_eq (g := fun e : String × Json => e.2.str?)
    (fun _ _ alike => Json.str?_of_compact (Prod.mk.inj alike).2) firsts
  rw [whole, whole, values]

/-! ## The links of the root -/

/-- What of a link a board depends on. -/
def RootLink.gist (l : RootLink) : String × String × NodeView.Gist :=
  (l.rootInterface, l.nodeInterface, l.node.gist)

namespace ValidDesign

variable {g h : ValidDesign}

theorem Alike.node? (same : g.Alike h) (index : Nat) :
    (g.node? index).map NodeView.gist = (h.node? index).map NodeView.gist := by
  rw [ValidDesign.node?, ValidDesign.node?, ← List.getElem?_map, ← List.getElem?_map, same.nodes]

theorem Alike.boardRoot? (same : g.Alike h) :
    g.boardRoot?.map NodeView.gist = h.boardRoot?.map NodeView.gist := by
  rw [ValidDesign.boardRoot?, ValidDesign.boardRoot?, Option.map_bind, Option.map_bind, same.root]
  exact congrArg _ (funext same.node?)

theorem Alike.linkAt? (same : g.Alike h) (root : Nat) (interface : String) (c : Design.Connection) :
    (g.linkAt? root interface c).map RootLink.gist =
      (h.linkAt? root interface c).map RootLink.gist := by
  unfold ValidDesign.linkAt?
  split
  · rfl
  · split
    · rfl
    · rename_i own other _ _
      have nodes := congrArg (Option.map fun v => (own.interface, other.interface, v))
        (same.node? other.node)
      rwa [Option.map_map, Option.map_map] at nodes ⊢

/-- Designs that are alike have roots with the same links. -/
theorem rootNeighbours_congr (same : g.Alike h) :
    g.rootNeighbours.map RootLink.gist = h.rootNeighbours.map RootLink.gist := by
  have interfaces (root : Nat) : (g.design.node? root).map (·.interfaces) =
      (h.design.node? root).map (·.interfaces) := by
    rw [Design.node?, Design.node?, ← List.getElem?_map, ← List.getElem?_map, same.interfaces]
  have whole (g : ValidDesign) : g.rootNeighbours.map RootLink.gist =
      (g.root.bind fun root => ((g.design.node? root).map (·.interfaces)).map fun interfaces =>
        interfaces.flatMap fun interface => g.design.connections.filterMap fun c =>
          (g.linkAt? root interface c.2).map RootLink.gist).getD [] := by
    unfold rootNeighbours
    cases g.root with
    | none => rfl
    | some root =>
      dsimp only [Option.bind_some]
      cases g.design.node? root with
      | none => rfl
      | some n => simp [List.map_flatMap, List.map_filterMap]
  rw [whole, whole, same.root, same.connections]
  simp only [interfaces, same.linkAt?]

end ValidDesign

end Graph

/-! ## The board -/

namespace Board

open Graph (ValidDesign RootLink NodeView)

variable {k l : RootLink} {g h : ValidDesign}

theorem isLed_congr (same : k.gist = l.gist) : isLed k = isLed l :=
  NodeRule.matchesType_congr (congrArg (·.2.2.type) same) _

theorem isSensor_congr (same : k.gist = l.gist) : isSensor k = isSensor l := by
  have compats : k.node.type.compats = l.node.type.compats := congrArg (·.2.2.type.compats) same
  rw [isSensor, isSensor, isLed_congr same, compats]

theorem ledOf?_congr (same : k.gist = l.gist) : ledOf? k = ledOf? l := by
  have node : k.node.gist = l.node.gist := congrArg (·.2.2) same
  have label : k.node.label = l.node.label := congrArg (·.2.2.label) same
  have typeName : k.node.typeName = l.node.typeName := congrArg (·.2.2.typeName) same
  have interface : k.rootInterface = l.rootInterface := congrArg (·.1) same
  rw [ledOf?, ledOf?, NodeView.interfaceAddress_congr node, label, typeName, interface]

theorem sensorOf_congr (same : k.gist = l.gist) : sensorOf k = sensorOf l := by
  have node : k.node.gist = l.node.gist := congrArg (·.2.2) same
  have label : k.node.label = l.node.label := congrArg (·.2.2.label) same
  have typeName : k.node.typeName = l.node.typeName := congrArg (·.2.2.typeName) same
  have type : k.node.type.gist = l.node.type.gist := congrArg (·.2.2.type) same
  have model : k.node.type.modelName = l.node.type.modelName :=
    congrArg NodeType.Gist.modelName type
  have compats : k.node.type.compats = l.node.type.compats := congrArg NodeType.Gist.compats type
  have interface : k.rootInterface = l.rootInterface := congrArg (·.1) same
  have own : k.nodeInterface = l.nodeInterface := congrArg (·.2.1) same
  rw [sensorOf, sensorOf, NodeView.interfaceAddress_congr node, NodeRule.matchesType_congr type,
    label, typeName, model, compats, interface, own]

/-- Designs that are alike have the same SoC. -/
theorem socName_congr (same : g.Alike h) : socName g = socName h := by
  have whole (g : ValidDesign) : socName g =
      match g.boardRoot?.map NodeView.gist with
      | none => .error .missingBoardRoot
      | some root => .ok (root.type.modelName.getD root.typeName) := by
    unfold socName
    cases g.boardRoot? <;> rfl
  rw [whole, whole, same.boardRoot?]

/-- Designs that are alike have the same nodes in their devicetrees. -/
theorem designDevicetree_congr (same : g.Alike h) (dts : String) :
    designDevicetree g dts = designDevicetree h dts := by
  have links := ValidDesign.rootNeighbours_congr same
  have leds : (Overlay.ofLinks g.rootNeighbours).leds = (Overlay.ofLinks h.rootNeighbours).leds :=
    filterMap_eq_of_map_eq (fun _ _ => ledOf?_congr)
      (map_filter_eq_of_map_eq (fun _ _ => isLed_congr) links)
  have sensors : (Overlay.ofLinks g.rootNeighbours).sensors =
      (Overlay.ofLinks h.rootNeighbours).sensors :=
    map_eq_of_map_eq (fun _ _ _ _ => sensorOf_congr)
      (map_filter_eq_of_map_eq (fun _ _ => isSensor_congr) links)
  simp only [designDevicetree, Overlay.ledsText, Overlay.controllers, Overlay.sensorsText, leds,
    sensors]

end Board

end BoardDesign
