import BoardDesign.Proofs.Graph.Rules

/-!
# How designs are made

A design is read from the graph of a file, or begun empty, and then built on.

* `Made`: the designs that can be made;
* `MadeInOrder`: those whose file names no interface of a node twice, and in whose making a
  connection comes after the nodes that it connects;
* `Positioned`: the connections, resolved or not, have the positions below a bound, each of them
  once; `Made.numbered`: they stand in the order of their positions;
* `MadeInOrder.registered`: a node lists each interface that it is connected at exactly once.
-/

namespace BoardDesign.Design

open Graph (Body PlacedNode PlacedConnection endsOf endOf mem_endsOf_iff)

variable {d : Design} {b : Body}

/-- A design that is read from a file or begun empty, and built on. -/
inductive Made : Design → Prop
  | empty : Made .empty
  | file (b : Body) : Made (ofBody b)
  | addNode {d : Design} (h : Made d) (typeName label : String) :
      Made (d.addNode typeName label).1
  | setProperty {d : Design} (h : Made d) (node : Nat) (name : String) (value : Json) :
      Made (d.setProperty node name value)
  | connect {d : Design} (h : Made d) (source target : Endpoint) :
      Made (d.connect source target).1

/-- The file names no interface of a node twice, and the nodes of a connection are there when it
is made. -/
inductive MadeInOrder : Design → Prop
  | empty : MadeInOrder .empty
  | file (b : Body) (once : ∀ n ∈ b.nodes, (n.interfaces.map (·.name)).Nodup) :
      MadeInOrder (ofBody b)
  | addNode {d : Design} (h : MadeInOrder d) (typeName label : String) :
      MadeInOrder (d.addNode typeName label).1
  | setProperty {d : Design} (h : MadeInOrder d) (node : Nat) (name : String) (value : Json) :
      MadeInOrder (d.setProperty node name value)
  | connect {d : Design} (h : MadeInOrder d) {source target : Endpoint}
      (sourceThere : source.node < d.nodes.length) (targetThere : target.node < d.nodes.length) :
      MadeInOrder (d.connect source target).1

theorem MadeInOrder.made (h : MadeInOrder d) : Made d := by
  induction h with
  | empty => exact .empty
  | file b _ => exact .file b
  | addNode _ typeName label ih => exact ih.addNode typeName label
  | setProperty _ node name value ih => exact ih.setProperty node name value
  | connect _ _ _ ih => exact ih.connect _ _

/-! ## The graph of a file -/

/-- What `ofBody` does to the nodes and connections of a design that is begun. -/
theorem nodes_foldl_push (placed : List PlacedNode) (d : Design) :
    (placed.foldl (fun d n => d.push (nodeOf n)) d).nodes = d.nodes ++ placed.map nodeOf := by
  induction placed generalizing d with
  | nil => simp
  | cons n rest ih =>
    rw [List.foldl_cons, ih]
    simp [push]

theorem connections_foldl_push (placed : List PlacedNode) (d : Design) :
    (placed.foldl (fun d n => d.push (nodeOf n)) d).connections = d.connections ∧
      (placed.foldl (fun d n => d.push (nodeOf n)) d).unresolved = d.unresolved := by
  induction placed generalizing d with
  | nil => exact ⟨rfl, rfl⟩
  | cons n rest ih => exact ih (d.push (nodeOf n))

/-- The design of a graph before its connections are added. -/
def unconnected (b : Body) : Design :=
  b.nodes.foldl (fun d n => d.push (nodeOf n))
    { empty with id := b.id, name := b.name.filter fun s => !Text.allBlank s.toList }

theorem ofBody_eq (b : Body) :
    ofBody b = addAllPlaced (endpoints b.nodes) (unconnected b) 0 b.connections := rfl

theorem connections_unconnected (b : Body) :
    (unconnected b).connections = [] ∧ (unconnected b).unresolved = [] :=
  connections_foldl_push b.nodes _

section Placed

variable {known : List (String × Endpoint)}

theorem nodes_addAllPlaced (position : Nat) (placed : List PlacedConnection) :
    (addAllPlaced known d position placed).nodes = d.nodes := by
  induction placed generalizing d position with
  | nil => rfl
  | cons c rest ih =>
    rw [addAllPlaced, ih, addPlaced]
    split <;> rfl

theorem mem_of_endpoint? {id : String} {e : Endpoint} (found : endpoint? known id = some e) :
    (id, e) ∈ known := by
  have mem : ∀ entries : List (String × Endpoint), findEntry id entries = some e →
      (id, e) ∈ entries := by
    intro entries found
    induction entries with
    | nil => cases found
    | cons entry rest ih =>
      obtain ⟨k, v⟩ := entry
      rw [findEntry] at found
      split at found
      · rename_i same
        cases found
        exact same ▸ .head rest
      · exact .tail _ (ih found)
  exact List.mem_reverse.mp (mem _ found)

theorem mem_connections_addPlaced_iff {position : Nat} {c : PlacedConnection}
    {e : Nat × Connection} :
    e ∈ (addPlaced known d position c).connections ↔ e ∈ d.connections ∨
      e.1 = position ∧ endpoint? known c.source = some e.2.source ∧
        endpoint? known c.target = some e.2.target := by
  obtain ⟨k, source, target⟩ := e
  rw [addPlaced]
  split
  · rename_i source' target' known known'
    simp [known, known', eq_comm]
  · rename_i unknown
    simp [unknown]
  · rename_i unknown
    simp [unknown]

/-- The connections of the file that become those of the design. -/
theorem mem_connections_addAllPlaced_iff {position : Nat} {placed : List PlacedConnection}
    {e : Nat × Connection} :
    e ∈ (addAllPlaced known d position placed).connections ↔ e ∈ d.connections ∨
      ∃ k c, placed[k]? = some c ∧ e.1 = position + k ∧
        endpoint? known c.source = some e.2.source ∧
        endpoint? known c.target = some e.2.target := by
  induction placed generalizing d position with
  | nil => simp [addAllPlaced]
  | cons c rest ih =>
    rw [addAllPlaced, ih, mem_connections_addPlaced_iff, or_assoc]
    refine or_congr_right ⟨?_, ?_⟩
    · rintro (here | ⟨k, c', found, place, ends⟩)
      · exact ⟨0, c, rfl, here.1, here.2⟩
      · exact ⟨k + 1, c', found, by omega, ends⟩
    · rintro ⟨k, c', found, place, ends⟩
      cases k with
      | zero =>
        cases found
        exact .inl ⟨place, ends⟩
      | succ k => exact .inr ⟨k, c', found, by omega, ends⟩

end Placed

theorem nodes_ofBody (b : Body) : (ofBody b).nodes = b.nodes.map nodeOf := by
  rw [ofBody, nodes_addAllPlaced, nodes_foldl_push]
  rfl

theorem mem_connections_ofBody_iff {e : Nat × Connection} :
    e ∈ (ofBody b).connections ↔ ∃ c, b.connections[e.1]? = some c ∧
      endpoint? (endpoints b.nodes) c.source = some e.2.source ∧
      endpoint? (endpoints b.nodes) c.target = some e.2.target := by
  rw [ofBody_eq, mem_connections_addAllPlaced_iff, (connections_unconnected b).1]
  simp

/-- An identifier stands for an interface of the node that it is written at. -/
theorem exists_interface_of_mem_endpoints {nodes : List PlacedNode} {id : String} {e : Endpoint}
    (mem : (id, e) ∈ endpoints nodes) :
    ∃ n, nodes[e.node]? = some n ∧ ∃ i ∈ n.interfaces, i.id = id ∧ i.name = e.interface := by
  have from' : ∀ start, (id, e) ∈ endpoints.go start nodes → start ≤ e.node ∧
      ∃ n, nodes[e.node - start]? = some n ∧
        ∃ i ∈ n.interfaces, i.id = id ∧ i.name = e.interface := by
    clear mem
    induction nodes with
    | nil =>
      intro start mem
      cases mem
    | cons n rest ih =>
      intro start mem
      rcases List.mem_append.mp mem with mem | mem
      · obtain ⟨i, listed, same⟩ := List.mem_map.mp mem
        cases same
        exact ⟨Nat.le_refl _, n, by simp, i, listed, rfl, rfl⟩
      · obtain ⟨later, found⟩ := ih (start + 1) mem
        refine ⟨by omega, ?_⟩
        rwa [show e.node - start = e.node - (start + 1) + 1 by omega, List.getElem?_cons_succ]
  simpa using (from' 0 mem).2

/-- The end is at a node of the graph, at an interface that the node has under the identifier. -/
def StandsFor (b : Body) (e : Endpoint) (id : String) : Prop :=
  ∃ n, b.nodes[e.node]? = some n ∧ ∃ i ∈ n.interfaces, i.id = id ∧ i.name = e.interface

theorem standsFor_of_endpoint? {id : String} {e : Endpoint}
    (found : endpoint? (endpoints b.nodes) id = some e) : StandsFor b e id :=
  exists_interface_of_mem_endpoints (mem_of_endpoint? found)

/-! ## Positions -/

/-- The connections, resolved or not, have the positions below `n`, each of them once and in
their order. -/
structure Positioned (d : Design) (n : Nat) : Prop where
  resolved : (d.connections.map (·.1)).Pairwise (· < ·)
  unresolved : (d.unresolved.map (·.position)).Pairwise (· < ·)
  all : (d.connections.map (·.1) ++ d.unresolved.map (·.position)).Perm (List.range n)

namespace Positioned

variable {d' : Design} {n : Nat}

theorem congr (h : Positioned d n) (same : d'.connections = d.connections)
    (same' : d'.unresolved = d.unresolved) : Positioned d' n :=
  ⟨same ▸ h.resolved, same' ▸ h.unresolved, same ▸ same' ▸ h.all⟩

theorem empty : Positioned Design.empty 0 := ⟨.nil, .nil, .nil⟩

theorem length_eq (h : Positioned d n) : d.connections.length + d.unresolved.length = n := by
  simpa using h.all.length_eq

theorem lt_of_mem (h : Positioned d n) {k : Nat}
    (mem : k ∈ d.connections.map (·.1) ∨ k ∈ d.unresolved.map (·.position)) : k < n :=
  List.mem_range.mp (h.all.mem_iff.mp (List.mem_append.mpr mem))

theorem concat {ks : List Nat} (increasing : ks.Pairwise (· < ·)) (below : ∀ k ∈ ks, k < n) :
    (ks ++ [n]).Pairwise (· < ·) :=
  List.pairwise_append.mpr ⟨increasing, List.pairwise_singleton _ _, fun k mem _ last =>
    List.mem_singleton.mp last ▸ below k mem⟩

/-- A connection at the first position that is free. -/
theorem resolve (h : Positioned d n) {c : Connection}
    (added : d'.connections = d.connections ++ [(n, c)]) (same : d'.unresolved = d.unresolved) :
    Positioned d' (n + 1) := by
  have positions : d'.connections.map (·.1) = d.connections.map (·.1) ++ [n] := by simp [added]
  refine ⟨?_, same ▸ h.unresolved, ?_⟩
  · rw [positions]
    exact concat h.resolved fun k mem => h.lt_of_mem (.inl mem)
  · rw [positions, same, List.range_succ, List.append_assoc]
    refine (List.Perm.append_left _ List.perm_append_comm).trans ?_
    rw [← List.append_assoc]
    exact h.all.append_right [n]

theorem leave (h : Positioned d n) {id : String} (same : d'.connections = d.connections)
    (added : d'.unresolved = d.unresolved ++ [⟨n, id⟩]) : Positioned d' (n + 1) := by
  have positions : d'.unresolved.map (·.position) = d.unresolved.map (·.position) ++ [n] := by
    simp [added]
  refine ⟨same ▸ h.resolved, ?_, ?_⟩
  · rw [positions]
    exact concat h.unresolved fun k mem => h.lt_of_mem (.inr mem)
  · rw [positions, same, List.range_succ, ← List.append_assoc]
    exact h.all.append_right [n]

theorem addAllPlaced (known : List (String × Endpoint)) (h : Positioned d n)
    (placed : List PlacedConnection) :
    Positioned (Design.addAllPlaced known d n placed) (n + placed.length) := by
  induction placed generalizing d n with
  | nil => exact h
  | cons c rest ih =>
    have next : Positioned (addPlaced known d n c) (n + 1) := by
      rw [addPlaced]
      split
      · exact h.resolve rfl rfl
      · exact h.leave rfl rfl
      · exact h.leave rfl rfl
    simpa [Design.addAllPlaced, Nat.add_assoc, Nat.add_comm 1] using ih next

theorem ofBody (b : Body) : Positioned (Design.ofBody b) b.connections.length := by
  obtain ⟨none, none'⟩ := connections_unconnected b
  have begun : Positioned (unconnected b) 0 := empty.congr none none'
  rw [ofBody_eq]
  simpa only [Nat.zero_add] using begun.addAllPlaced (endpoints b.nodes) b.connections

end Positioned

theorem Made.positioned (h : Made d) : ∃ n, Positioned d n := by
  induction h with
  | empty => exact ⟨0, .empty⟩
  | file b => exact ⟨_, .ofBody b⟩
  | addNode _ _ _ ih => exact ih.imp fun _ before => before.congr rfl rfl
  | setProperty _ _ _ _ ih => exact ih.imp fun _ before => before.congr rfl rfl
  | @connect d _ source target ih =>
    obtain ⟨n, before⟩ := ih
    refine ⟨n + 1, before.resolve (c := ⟨source, target⟩) ?_ rfl⟩
    rw [← before.length_eq]
    rfl

/-- The connections stand in the order of their positions, and the next position is free. -/
structure Numbered (d : Design) : Prop where
  increasing : d.connections.Pairwise fun a b => a.1 < b.1
  below : ∀ e ∈ d.connections, e.1 < d.connections.length + d.unresolved.length

theorem Made.numbered (h : Made d) : Numbered d := by
  obtain ⟨n, positioned⟩ := h.positioned
  refine ⟨List.pairwise_map.mp positioned.resolved, fun e mem => ?_⟩
  rw [positioned.length_eq]
  exact positioned.lt_of_mem (.inl (List.mem_map_of_mem mem))

/-! ## Interfaces that are connected -/

/-- The node at an end has the interface of that end among its interfaces. -/
def Lists (nodes : List Node) (e : Endpoint) : Prop :=
  ∃ n, nodes[e.node]? = some n ∧ e.interface ∈ n.interfaces

theorem StandsFor.lists {e : Endpoint} {id : String} (h : StandsFor b e id) :
    Lists (ofBody b).nodes e := by
  obtain ⟨n, found, i, listed, -, named⟩ := h
  refine ⟨nodeOf n, ?_, List.mem_map.mpr ⟨i, listed, named⟩⟩
  rw [nodes_ofBody, List.getElem?_map, found]
  rfl

/-- No node lists an interface twice, and each end of a connection is listed. -/
structure Registered (d : Design) : Prop where
  once : ∀ n ∈ d.nodes, n.interfaces.Nodup
  listed : ∀ e ∈ endsOf d.connections, Lists d.nodes e

section Modify

variable {nodes : List Node} {i : Nat} {change : Node → Node}

theorem once_modify (once : ∀ n ∈ nodes, n.interfaces.Nodup)
    (kept : ∀ n : Node, n.interfaces.Nodup → (change n).interfaces.Nodup) :
    ∀ n ∈ nodes.modify i change, n.interfaces.Nodup := by
  intro n mem
  obtain ⟨j, found⟩ := List.mem_iff_getElem?.mp mem
  rw [List.getElem?_modify] at found
  obtain ⟨m, there, rfl⟩ := Option.map_eq_some_iff.mp found
  have before := once m (List.mem_of_getElem? there)
  split
  · exact kept m before
  · exact before

theorem Lists.modify {e : Endpoint} (h : Lists nodes e)
    (kept : ∀ n : Node, n.interfaces ⊆ (change n).interfaces) :
    Lists (nodes.modify i change) e := by
  obtain ⟨n, there, listed⟩ := h
  refine ⟨_, by rw [List.getElem?_modify, there]; rfl, ?_⟩
  split
  · exact kept n listed
  · exact listed

end Modify

section Register

variable {nodes : List Node} {e : Endpoint}

theorem once_register (once : ∀ n ∈ nodes, n.interfaces.Nodup) :
    ∀ n ∈ register nodes e, n.interfaces.Nodup := by
  refine once_modify once fun n before => ?_
  split
  · exact before
  · rename_i new
    exact List.nodup_append.mpr ⟨before, List.nodup_singleton _, by
      rintro a mem b last rfl
      exact new (List.mem_singleton.mp last ▸ mem)⟩

theorem Lists.register {x : Endpoint} (h : Lists nodes x) : Lists (register nodes e) x := by
  refine h.modify fun n => ?_
  split
  · exact List.Subset.refl _
  · exact List.subset_append_left _ _

theorem lists_register (there : e.node < nodes.length) : Lists (register nodes e) e := by
  refine ⟨_, by rw [register, List.getElem?_modify_eq, List.getElem?_eq_getElem there]; rfl, ?_⟩
  dsimp only
  split
  · assumption
  · exact List.mem_append_right _ (List.mem_singleton_self _)

theorem length_register : (register nodes e).length = nodes.length := List.length_modify _ _ _

end Register

namespace Registered

theorem empty : Registered Design.empty := ⟨nofun, nofun⟩

theorem ofBody {b : Body} (once : ∀ n ∈ b.nodes, (n.interfaces.map (·.name)).Nodup) :
    Registered (Design.ofBody b) := by
  refine ⟨?_, ?_⟩
  · intro n mem
    rw [nodes_ofBody] at mem
    obtain ⟨placed, written, rfl⟩ := List.mem_map.mp mem
    exact once placed written
  · intro e mem
    obtain ⟨x, connected, s, rfl⟩ := mem_endsOf_iff.mp mem
    obtain ⟨c, -, source, target⟩ := mem_connections_ofBody_iff.mp connected
    cases s with
    | true => exact (standsFor_of_endpoint? source).lists
    | false => exact (standsFor_of_endpoint? target).lists

theorem addNode (h : Registered d) (typeName label : String) :
    Registered (d.addNode typeName label).1 := by
  refine ⟨?_, ?_⟩
  · intro n mem
    rcases List.mem_append.mp mem with mem | mem
    · exact h.once n mem
    · rw [List.mem_singleton.mp mem]
      exact .nil
  · intro e mem
    obtain ⟨n, found, listed⟩ := h.listed e mem
    exact ⟨n, List.getElem?_append_left (List.getElem?_eq_some_iff.mp found).1 ▸ found, listed⟩

theorem setProperty (h : Registered d) (node : Nat) (name : String) (value : Json) :
    Registered (d.setProperty node name value) :=
  ⟨once_modify h.once fun _ before => before,
    fun e mem => (h.listed e mem).modify fun _ => List.Subset.refl _⟩

theorem connect (h : Registered d) {source target : Endpoint}
    (sourceThere : source.node < d.nodes.length) (targetThere : target.node < d.nodes.length) :
    Registered (d.connect source target).1 := by
  refine ⟨once_register (once_register h.once), ?_⟩
  intro e mem
  rw [Design.connect, endsOf, List.flatMap_append] at mem
  rcases List.mem_append.mp mem with mem | mem
  · exact (h.listed e mem).register.register
  · simp only [List.flatMap_cons, List.flatMap_nil, List.append_nil, List.mem_cons,
      List.not_mem_nil, or_false] at mem
    rcases mem with rfl | rfl
    · exact (lists_register sourceThere).register
    · exact lists_register (length_register.symm ▸ targetThere)

end Registered

theorem MadeInOrder.registered (h : MadeInOrder d) : Registered d := by
  induction h with
  | empty => exact .empty
  | file _ once => exact .ofBody once
  | addNode _ typeName label ih => exact ih.addNode typeName label
  | setProperty _ node name value ih => exact ih.setProperty node name value
  | connect _ sourceThere targetThere ih => exact ih.connect sourceThere targetThere

end BoardDesign.Design
