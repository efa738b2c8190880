import BoardDesign.Proofs.Graph.Construction
import BoardDesign.Proofs.Graph.Views
import Mathlib.Data.List.Forall2
import Mathlib.Data.List.Perm.Basic

/-!
# Neighbours of the root

The neighbours of the root come from a walk over the interfaces of the root and, for each, over
the connections. Nothing in the walk itself makes it meet each connection once.

* `ListsConnections`: the neighbours are the connections with one end at the root, each once,
  grouped by the interfaces of the root and in the order of the file;
* `countP_walk`: how often the walk meets the connections of an interface;
* `listsConnections_iff_once`: the neighbours list the connections exactly if the root lists the
  interface of each of them once, which it does in a design made in order;
* `repeated_interface_lists_twice` and `early_connection_not_listed`: a file that names an
  interface of the root twice, and a connection made before its nodes.
-/

namespace BoardDesign.Graph

open Design (Node Endpoint Connection Made MadeInOrder Registered)

/-- Exactly one end of the connection is at the node. -/
def touchesOnce (node : Nat) (e : Connection) : Bool :=
  (e.source.node == node) != (e.target.node == node)

/-- The end at a node that the connection touches. -/
def ownEnd (node : Nat) (e : Connection) : Endpoint :=
  if e.source.node = node then e.source else e.target

/-- The end opposite to it. -/
def farEnd (node : Nat) (e : Connection) : Endpoint :=
  if e.source.node = node then e.target else e.source

/-- The connections with exactly one end at a node. -/
def ValidDesign.connectionsOf (g : ValidDesign) (node : Nat) : List (Nat × Connection) :=
  g.design.connections.filter fun e => touchesOnce node e.2

/-- The link shows the connection as seen from the node. -/
structure Shows (g : ValidDesign) (node : Nat) (l : RootLink) (e : Nat × Connection) : Prop where
  own : l.rootInterface = (ownEnd node e.2).interface
  far : l.nodeInterface = (farEnd node e.2).interface
  node : g.nodes[(farEnd node e.2).node]? = some l.node

/-- One connection of a node comes before another: by the places of their interfaces at the node,
then by their positions. -/
def Before (r : NodeView) (a b : Nat × Connection) : Prop :=
  let place (e : Nat × Connection) := r.node.interfaces.idxOf (ownEnd r.index e.2).interface
  place a < place b ∨ place a = place b ∧ a.1 < b.1

/-- The neighbours of the root are the connections with one end there, each once and in order. -/
def ListsConnections (g : ValidDesign) (r : NodeView) : Prop :=
  ∃ listed : List (Nat × Connection), listed.Perm (g.connectionsOf r.index) ∧
    listed.Pairwise (Before r) ∧ List.Forall₂ (Shows g r.index) g.rootNeighbours listed

/-! ## The walk -/

/-- The connections in the order in which a walk over some interfaces meets them. -/
def walk (node : Nat) (connections : List (Nat × Connection)) (interfaces : List String) :
    List (Nat × Connection) :=
  interfaces.flatMap fun i => connections.filter fun e => (ownEnd node e.2).interface = i

section Walk

variable {node : Nat} {connections : List (Nat × Connection)} {interfaces : List String}

/-- The walk meets the connections of an interface as often as it comes to the interface. -/
theorem countP_walk {p : Nat × Connection → Bool} {name : String}
    (named : ∀ e, p e → (ownEnd node e.2).interface = name) :
    (walk node connections interfaces).countP p =
      interfaces.count name * connections.countP p := by
  induction interfaces with
  | nil => simp [walk]
  | cons i rest ih =>
    have visit : (connections.filter fun e => (ownEnd node e.2).interface = i).countP p =
        if i = name then connections.countP p else 0 := by
      rw [List.countP_filter]
      split
      · subst i
        exact List.countP_congr fun e _ => by
          simpa using fun counted => named e counted
      · rename_i other
        refine List.countP_eq_zero.mpr fun e _ both => ?_
        simp only [Bool.and_eq_true, decide_eq_true_eq] at both
        exact other (both.2.symm.trans (named e both.1))
    rw [walk, List.flatMap_cons, List.countP_append, ← walk, ih, visit, List.count_cons]
    by_cases same : i = name
    · simp [same, Nat.add_mul, Nat.add_comm]
    · simp [same]

theorem perm_walk
    (once : ∀ e ∈ connections, interfaces.count (ownEnd node e.2).interface = 1) :
    (walk node connections interfaces).Perm connections := by
  refine List.perm_iff_count.mpr fun e => ?_
  have counted : (walk node connections interfaces).countP (· == e) = _ :=
    countP_walk fun x same => by rw [eq_of_beq same]
  rw [← List.count_eq_countP, ← List.count_eq_countP] at counted
  rw [counted]
  by_cases mem : e ∈ connections
  · rw [once e mem, Nat.one_mul]
  · rw [List.count_eq_zero_of_not_mem mem, Nat.mul_zero]

/-- A name that occurs once is found at its place. -/
theorem idxOf_eq_of_count {i : Nat} {name : String} (there : interfaces[i]? = some name)
    (once : interfaces.count name = 1) : interfaces.idxOf name = i := by
  induction interfaces generalizing i with
  | nil => cases there
  | cons first rest ih =>
    cases i with
    | zero =>
      cases there
      exact List.idxOf_cons_self
    | succ i =>
      rw [List.getElem?_cons_succ] at there
      have later := List.count_pos_iff.mpr (List.mem_of_getElem? there)
      have other : first ≠ name := by
        rintro rfl
        rw [List.count_cons_self] at once
        omega
      rw [List.count_cons_of_ne other] at once
      rw [List.idxOf_cons_ne rest other, ih there once]

end Walk

section Neighbours

variable {d : Design} {c : EffectiveCatalog} {g : ValidDesign} {r : NodeView}

/-- The walk over the interfaces of the root goes in order. -/
theorem pairwise_walk {connections : List (Nat × Connection)}
    (positions : connections.Pairwise fun a b => a.1 < b.1)
    (once : ∀ e ∈ connections, r.node.interfaces.count (ownEnd r.index e.2).interface = 1) :
    (walk r.index connections r.node.interfaces).Pairwise (Before r) := by
  refine List.pairwise_flatMap.mpr ⟨?_, ?_⟩
  · intro i _
    refine (positions.filter _).imp_of_mem fun {a b} memA memB less => .inr ⟨?_, less⟩
    have ownA := of_decide_eq_true (List.mem_filter.mp memA).2
    have ownB := of_decide_eq_true (List.mem_filter.mp memB).2
    dsimp only
    rw [ownA, ownB]
  · refine List.pairwise_iff_getElem.mpr fun i j hi hj less a memA b memB => .inl ?_
    have place {k : Nat} {h : k < r.node.interfaces.length} {e : Nat × Connection}
        (mem : e ∈ connections.filter fun e =>
          (ownEnd r.index e.2).interface = r.node.interfaces[k]) :
        r.node.interfaces.idxOf (ownEnd r.index e.2).interface = k := by
      obtain ⟨connected, own⟩ := List.mem_filter.mp mem
      have there := List.getElem?_eq_getElem h
      rw [← of_decide_eq_true own] at there
      exact idxOf_eq_of_count there (once e connected)
    dsimp only
    rwa [place memA, place memB]

theorem linkAt?_eq (g : ValidDesign) (node : Nat) (interface : String) (e : Connection) :
    g.linkAt? node interface e =
      if touchesOnce node e ∧ (ownEnd node e).interface = interface then
        g.nodes[(farEnd node e).node]?.map fun v =>
          ⟨(ownEnd node e).interface, (farEnd node e).interface, v⟩
      else none := by
  obtain ⟨source, target⟩ := e
  simp only [ValidDesign.linkAt?, Connection.otherSide, touchesOnce, ownEnd, farEnd,
    ValidDesign.node?]
  by_cases atSource : source.node = node <;> by_cases atTarget : target.node = node <;>
    simp [atSource, atTarget]

/-- The links of one interface of a node show the connections there. -/
theorem forall₂_links {node : Nat} {connections : List (Nat × Connection)} (interface : String)
    (placed : ∀ e ∈ connections, ∃ v, g.nodes[(farEnd node e.2).node]? = some v) :
    List.Forall₂ (Shows g node)
      (connections.filterMap fun e => g.linkAt? node interface e.2)
      ((connections.filter fun e => touchesOnce node e.2).filter
        fun e => (ownEnd node e.2).interface = interface) := by
  induction connections with
  | nil => exact .nil
  | cons e rest ih =>
    obtain ⟨v, found⟩ := placed e (.head rest)
    have later := ih fun e mem => placed e (.tail _ mem)
    rw [List.filterMap_cons, linkAt?_eq, List.filter_cons]
    by_cases touches : touchesOnce node e.2
    · by_cases own : (ownEnd node e.2).interface = interface
      · simp only [touches, own, found, and_self, if_true, Option.map_some, List.filter_cons,
          decide_true]
        exact .cons ⟨own.symm, rfl, found⟩ later
      · simpa [touches, own] using later
    · simpa [touches] using later

theorem countP_rootInterface {node : Nat} {links : List RootLink}
    {connections : List (Nat × Connection)} {name : String}
    (shown : List.Forall₂ (Shows g node) links connections) :
    links.countP (·.rootInterface == name) =
      connections.countP fun e => (ownEnd node e.2).interface == name := by
  induction shown with
  | nil => rfl
  | cons first _ ih => rw [List.countP_cons, List.countP_cons, ih, first.own]

section Valid

variable (valid : validate d c = .ok g) (root : g.boardRoot? = some r)
include valid

theorem design_eq : g.design = d := by
  obtain ⟨-, rfl⟩ := validate_eq_ok_iff.mp valid
  rfl

theorem exists_farNode {e : Nat × Connection} (mem : e ∈ d.connections) (node : Nat) :
    ∃ v, g.nodes[(farEnd node e.2).node]? = some v := by
  have sound := (validate_eq_ok_iff.mp valid).1
  have placed : (farEnd node e.2).node < d.nodes.length := by
    rw [farEnd]
    split
    · exact (sound.placed e mem).2
    · exact (sound.placed e mem).1
  obtain ⟨t, known⟩ := sound.exists_typeOf? (List.getElem_mem placed)
  exact ⟨_, by rw [getElem?_nodes valid, List.getElem?_eq_getElem placed]; simp [known]; rfl⟩

theorem rootNeighbours_eq_nil (rootless : g.boardRoot? = none) : g.rootNeighbours = [] := by
  unfold ValidDesign.rootNeighbours
  split
  · rfl
  · rename_i i isRoot
    rw [ValidDesign.boardRoot?, isRoot, Option.bind_some, ValidDesign.node?,
      getElem?_nodes valid] at rootless
    rw [design_eq valid, Design.node?]
    cases there : d.nodes[i]? with
    | none => rfl
    | some n =>
      obtain ⟨t, known⟩ := (validate_eq_ok_iff.mp valid).1.exists_typeOf?
        (List.mem_of_getElem? there)
      simp [there, known] at rootless

include root

theorem root_eq : g.root = some r.index ∧ g.design.node? r.index = some r.node := by
  obtain ⟨i, isRoot, found⟩ := Option.bind_eq_some_iff.mp root
  have index := index_eq_of_getElem? valid found
  rw [ValidDesign.node?, getElem?_nodes valid, Option.bind_eq_some_iff] at found
  obtain ⟨n, there, typed⟩ := found
  obtain ⟨t, -, rfl⟩ := Option.map_eq_some_iff.mp typed
  exact ⟨index ▸ isRoot, design_eq valid ▸ there⟩

/-- The neighbours of the root show the connections that the walk over its interfaces meets. -/
theorem forall₂_rootNeighbours :
    List.Forall₂ (Shows g r.index) g.rootNeighbours
      (walk r.index (g.connectionsOf r.index) r.node.interfaces) := by
  obtain ⟨isRoot, there⟩ := root_eq valid root
  simp only [ValidDesign.rootNeighbours, isRoot, there]
  refine List.rel_flatMap (R := (· = ·)) (List.forall₂_refl _) ?_
  rintro interface _ rfl
  refine forall₂_links interface fun e mem => exists_farNode valid ?_ _
  rwa [design_eq valid] at mem

theorem once_of_registered (registered : Registered d) {e : Nat × Connection}
    (mem : e ∈ g.connectionsOf r.index) :
    r.node.interfaces.count (ownEnd r.index e.2).interface = 1 := by
  obtain ⟨-, there⟩ := root_eq valid root
  rw [ValidDesign.connectionsOf, design_eq valid] at mem
  rw [design_eq valid] at there
  obtain ⟨connected, touches⟩ := List.mem_filter.mp mem
  have own : (ownEnd r.index e.2).node = r.index := by
    rw [ownEnd]
    split
    · assumption
    · rename_i notSource
      simpa [touchesOnce, notSource] using touches
  have isEnd : ownEnd r.index e.2 ∈ endsOf d.connections := by
    rw [ownEnd]
    split
    · exact mem_endsOf_iff.mpr ⟨e, connected, true, rfl⟩
    · exact mem_endsOf_iff.mpr ⟨e, connected, false, rfl⟩
  obtain ⟨n, found, listed⟩ := registered.listed _ isEnd
  rw [own] at found
  cases there.symm.trans found
  exact List.count_eq_one_of_mem (registered.once _ (List.mem_of_getElem? there)) listed

theorem once_of_listsConnections (lists : ListsConnections g r) {e : Nat × Connection}
    (mem : e ∈ g.connectionsOf r.index) :
    r.node.interfaces.count (ownEnd r.index e.2).interface = 1 := by
  obtain ⟨listed, perm, -, shown⟩ := lists
  let at' (x : Nat × Connection) : Bool :=
    (ownEnd r.index x.2).interface == (ownEnd r.index e.2).interface
  have counted : (walk r.index (g.connectionsOf r.index) r.node.interfaces).countP at' =
      (g.connectionsOf r.index).countP at' := by
    rw [← perm.countP_eq, ← countP_rootInterface shown,
      ← countP_rootInterface (forall₂_rootNeighbours valid root)]
  have some' : 0 < (g.connectionsOf r.index).countP at' :=
    List.countP_pos_iff.mpr ⟨e, mem, by simp [at']⟩
  rw [countP_walk fun x same => eq_of_beq same] at counted
  exact Nat.eq_of_mul_eq_mul_right some' (counted.trans (Nat.one_mul _).symm)

/-- The neighbours of the root list its connections exactly if the root lists the interface of
each of them once; it does so in every design that is made in order. -/
theorem listsConnections_iff_once (made : Made d) :
    (ListsConnections g r ↔ ∀ e ∈ g.connectionsOf r.index,
        r.node.interfaces.count (ownEnd r.index e.2).interface = 1) ∧
      (MadeInOrder d → ListsConnections g r) := by
  have lists (once : ∀ e ∈ g.connectionsOf r.index,
      r.node.interfaces.count (ownEnd r.index e.2).interface = 1) : ListsConnections g r := by
    have positions : (g.connectionsOf r.index).Pairwise fun a b => a.1 < b.1 := by
      rw [ValidDesign.connectionsOf, design_eq valid]
      exact made.numbered.increasing.filter _
    exact ⟨_, perm_walk once, pairwise_walk positions once, forall₂_rootNeighbours valid root⟩
  exact ⟨⟨fun listed e => once_of_listsConnections valid root listed, lists⟩,
    fun inOrder => lists fun e => once_of_registered valid root inOrder.registered⟩

end Valid

end Neighbours

/-! ## Two designs whose neighbours are wrong -/

/-- A controller with a pin, and a lamp. -/
def lampCatalog : Catalog :=
  let type (name category interface : String) : NodeType :=
    ⟨name, some category, [], [⟨interface, .inout, none, ⟨[]⟩, none, .empty⟩],
      false, false, [], .empty, none, .empty⟩
  ⟨.empty, [type "MCU" "SoC/MCU" "gpioa", type "LED" "IO/LED" "gpio"], .empty⟩

/-- The types of the catalog; none inherits. -/
def lampTypes : EffectiveCatalog :=
  ⟨lampCatalog, Table.ofList (lampCatalog.nodes.map fun t => (t.name, t))⟩

/-- A file with one lamp at the pin of the controller, which writes its pins under the given
identifiers. -/
def lampFile (pins : List String) : Graph.Body :=
  { id := "g", name := none, extra := .empty
    nodes := [⟨"n1", "MCU", none, [], pins.map fun id => ⟨id, "gpioa", .empty⟩, .empty⟩,
      ⟨"n2", "LED", none, [], [⟨"lamp", "gpio", .empty⟩], .empty⟩]
    connections := [⟨"lamp", "pin", .empty⟩] }

/-- The design in which the connection is made before its nodes. -/
def earlyDesign : Design :=
  let d := (Design.empty.connect ⟨1, "gpio"⟩ ⟨0, "gpioa"⟩).1
  ((d.addNode "MCU" "mcu").1.addNode "LED" "led0").1

/-- A design with the types of the catalog. -/
def lampBoard (d : Design) : ValidDesign := ⟨d, lampTypes, viewsFrom lampTypes 0 d.nodes, some 0⟩

theorem listsConnections_iff_once_lampFile :
    let d := Design.ofBody (lampFile ["pin"])
    Made d ∧ MadeInOrder d ∧ validate d lampTypes = .ok (lampBoard d) ∧
      ∃ r, (lampBoard d).boardRoot? = some r ∧ ListsConnections (lampBoard d) r := by
  have inOrder : MadeInOrder (Design.ofBody (lampFile ["pin"])) := .file _ (by decide)
  have valid : validate (Design.ofBody (lampFile ["pin"])) lampTypes =
      .ok (lampBoard (Design.ofBody (lampFile ["pin"]))) := by decide
  exact ⟨inOrder.made, inOrder, valid, _, rfl,
    (listsConnections_iff_once valid rfl inOrder.made).2 inOrder⟩

theorem ListsConnections.length_eq {g : ValidDesign} {r : NodeView} (h : ListsConnections g r) :
    g.rootNeighbours.length = (g.connectionsOf r.index).length := by
  obtain ⟨listed, perm, -, shown⟩ := h
  rw [shown.length_eq, perm.length_eq]

theorem not_listsConnections_of_length {d : Design} {c : EffectiveCatalog} {g : ValidDesign}
    {r : NodeView} (valid : validate d c = .ok g) (root : g.boardRoot? = some r) {i : Nat}
    (place : g.root = some i) (other : g.rootNeighbours.length ≠ (g.connectionsOf i).length) :
    ¬ ListsConnections g r := by
  intro lists
  have index := place.symm.trans (root_eq valid root).1
  rw [Option.some.inj index] at other
  exact other lists.length_eq

/-- A file that writes the pin of the controller under two identifiers: the lamp is listed
twice. -/
theorem repeated_interface_lists_twice :
    let d := Design.ofBody (lampFile ["pin", "spare"])
    lampCatalog.compose [] = .ok lampTypes ∧ Made d ∧
      validate d lampTypes = .ok (lampBoard d) ∧ ((lampBoard d).connectionsOf 0).length = 1 ∧
      (lampBoard d).rootNeighbours.map (·.node.index) = [1, 1] ∧
      ∃ r, (lampBoard d).boardRoot? = some r ∧ ¬ ListsConnections (lampBoard d) r := by
  have valid : validate (Design.ofBody (lampFile ["pin", "spare"])) lampTypes =
      .ok (lampBoard (Design.ofBody (lampFile ["pin", "spare"]))) := by decide
  refine ⟨by decide, .file _, valid, by decide, by decide, _, rfl, ?_⟩
  exact not_listsConnections_of_length valid rfl (i := 0) rfl (by decide)

/-- A connection that is made before its nodes: the lamp is not listed. -/
theorem early_connection_not_listed :
    lampCatalog.compose [] = .ok lampTypes ∧ Made earlyDesign ∧
      validate earlyDesign lampTypes = .ok (lampBoard earlyDesign) ∧
      ((lampBoard earlyDesign).connectionsOf 0).length = 1 ∧
      (lampBoard earlyDesign).rootNeighbours = [] ∧
      ∃ r, (lampBoard earlyDesign).boardRoot? = some r ∧
        ¬ ListsConnections (lampBoard earlyDesign) r := by
  have valid : validate earlyDesign lampTypes = .ok (lampBoard earlyDesign) := by decide
  refine ⟨by decide, ((Made.empty.connect _ _).addNode _ _).addNode _ _, valid, by decide,
    by decide, _, rfl, ?_⟩
  exact not_listsConnections_of_length valid rfl (i := 0) rfl (by decide)

end BoardDesign.Graph
