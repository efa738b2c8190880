import BoardDesign.Proofs.Graph.Construction
import BoardDesign.Proofs.Graph.Rows

/-!
# Designs that are read and then changed

A design is read from a graph, and then nodes are added, properties set and interfaces connected,
in any order.

* `Change`: one of these changes; `changed`: a design after some of them;
* `Indexed`: the table of labels tells the first node of each label;
* `Carried`: what has become of a connection of the graph;
* `Arena.change`: what a change keeps of all that, and `arena_of_document`: what changes leave.
-/

namespace BoardDesign.Design

open Graph (Body Document PlacedNode PlacedConnection)

variable {d d' : Design} {b : Body} {made : List Connection}

/-- A change of a design that is there. -/
inductive Change where
  | addNode (typeName label : String)
  | setProperty (node : Nat) (name : String) (value : Json)
  | connect (source target : Endpoint)
deriving Repr

def Change.apply (d : Design) : Change → Design
  | .addNode typeName label => (d.addNode typeName label).1
  | .setProperty node name value => d.setProperty node name value
  | .connect source target => (d.connect source target).1

/-- The connection that a change makes. -/
def Change.connection? : Change → Option Connection
  | .connect source target => some ⟨source, target⟩
  | _ => none

/-- A design after changes, the first of them first. -/
def changed (d : Design) (changes : List Change) : Design := changes.foldl Change.apply d

/-! ## Labels -/

/-- The table of labels tells the first node of each label. -/
def Indexed (d : Design) : Prop := d.labels = Graph.firstPlaces (d.nodes.map (·.label))

namespace Indexed

theorem congr (h : Indexed d) (labels : d'.labels = d.labels)
    (same : d'.nodes.map (·.label) = d.nodes.map (·.label)) : Indexed d' := by
  rw [Indexed, labels, same]
  exact h

/-- A label that is taken stays with the node that has it. -/
theorem push (h : Indexed d) (n : Node) : Indexed (d.push n) := by
  have before : d.labels = Graph.firstPlaces (d.nodes.map (·.label)) := h
  rw [Indexed, Design.push, List.map_append, List.map_singleton, Graph.firstPlaces_concat,
    List.length_map, before]

theorem foldl_push (h : Indexed d) (placed : List PlacedNode) :
    Indexed (placed.foldl (fun d n => d.push (nodeOf n)) d) := by
  induction placed generalizing d with
  | nil => exact h
  | cons n rest ih => exact ih (h.push (nodeOf n))

theorem nodeByLabel? (h : Indexed d) (label : String) :
    d.nodeByLabel? label = d.nodes.findIdx? fun n => n.label == label := by
  have labels : d.labels = Graph.firstPlaces (d.nodes.map (·.label)) := h
  rw [Design.nodeByLabel?, labels, Graph.get?_firstPlaces, List.findIdx?_map]
  rfl

end Indexed

theorem map_modify_of_same {α β : Type} {f : α → β} {change : α → α}
    (same : ∀ x, f (change x) = f x) (xs : List α) (i : Nat) :
    (xs.modify i change).map f = xs.map f := by
  refine List.ext_getElem? fun j => ?_
  rw [List.getElem?_map, List.getElem?_map, List.getElem?_modify]
  cases xs[j]? with
  | none => rfl
  | some x =>
    by_cases here : i = j
    · simp [here, same]
    · simp [here]

theorem map_label_register (nodes : List Node) (e : Endpoint) :
    (register nodes e).map (·.label) = nodes.map (·.label) :=
  map_modify_of_same (fun _ => by split <;> rfl) nodes e.node

/-! ## Connections of the graph -/

/-- Some node of the graph has an interface with the identifier. -/
def Occurs (b : Body) (id : String) : Prop := ∃ n ∈ b.nodes, ∃ i ∈ n.interfaces, i.id = id

theorem mem_keys_endpoints_iff {nodes : List PlacedNode} {id : String} :
    id ∈ (endpoints nodes).map (·.1) ↔ ∃ n ∈ nodes, ∃ i ∈ n.interfaces, i.id = id := by
  have from' : ∀ start, id ∈ (endpoints.go start nodes).map (·.1) ↔
      ∃ n ∈ nodes, ∃ i ∈ n.interfaces, i.id = id := by
    induction nodes with
    | nil => simp [endpoints.go]
    | cons n rest ih =>
      intro start
      rw [endpoints.go, List.map_append, List.mem_append, ih]
      simp
  exact from' 0

theorem endpoint?_isSome_iff {id : String} :
    (endpoint? (endpoints b.nodes) id).isSome ↔ Occurs b id := by
  rw [endpoint?, findEntry_isSome_iff, List.map_reverse, List.mem_reverse, mem_keys_endpoints_iff]
  rfl

theorem endpoint?_eq_none_iff {id : String} :
    endpoint? (endpoints b.nodes) id = none ↔ ¬ Occurs b id := by
  rw [← endpoint?_isSome_iff, Option.not_isSome_iff_eq_none]

section Placed

variable {known : List (String × Endpoint)} {position : Nat} {placed : List PlacedConnection}

theorem mem_unresolved_addPlaced_iff {c : PlacedConnection} {u : Unresolved} :
    u ∈ (addPlaced known d position c).unresolved ↔ u ∈ d.unresolved ∨
      (endpoint? known c.source = none ∧ u = ⟨position, c.source⟩) ∨
      ((endpoint? known c.source).isSome ∧ endpoint? known c.target = none ∧
        u = ⟨position, c.target⟩) := by
  rw [addPlaced]
  split
  · rename_i known known'
    simp [known, known']
  · rename_i unknown
    simp [unknown]
  · rename_i known unknown
    simp [known, unknown]

theorem mem_unresolved_addAllPlaced {k : Nat} {c : PlacedConnection} {u : Unresolved}
    (found : placed[k]? = some c)
    (left : (endpoint? known c.source = none ∧ u = ⟨position + k, c.source⟩) ∨
      ((endpoint? known c.source).isSome ∧ endpoint? known c.target = none ∧
        u = ⟨position + k, c.target⟩)) :
    u ∈ (addAllPlaced known d position placed).unresolved := by
  have stays : ∀ (placed : List PlacedConnection) (d : Design) (position : Nat),
      u ∈ d.unresolved → u ∈ (addAllPlaced known d position placed).unresolved := by
    intro placed
    induction placed with
    | nil => exact fun _ _ mem => mem
    | cons c rest ih =>
      exact fun d position mem => ih _ _ (mem_unresolved_addPlaced_iff.mpr (.inl mem))
  induction placed generalizing d position k with
  | nil => cases found
  | cons first rest ih =>
    cases k with
    | zero =>
      cases found
      exact stays rest _ _ (mem_unresolved_addPlaced_iff.mpr (.inr left))
    | succ k =>
      rw [show position + (k + 1) = position + 1 + k by omega] at left
      exact ih found left

end Placed

theorem labels_addAllPlaced {known : List (String × Endpoint)} (position : Nat)
    (placed : List PlacedConnection) :
    (addAllPlaced known d position placed).labels = d.labels := by
  induction placed generalizing d position with
  | nil => rfl
  | cons c rest ih =>
    rw [addAllPlaced, ih, addPlaced]
    split <;> rfl

theorem indexed_ofBody (b : Body) : Indexed (ofBody b) := by
  have begun : Indexed (unconnected b) := by
    apply Indexed.foldl_push
    rfl
  exact begun.congr (labels_addAllPlaced 0 _) (by rw [ofBody_eq, nodes_addAllPlaced])

/-- What has become of the connection of the graph at a position: it is resolved if some nodes
have its identifiers, and else told of by the first identifier that no node has. -/
structure Carried (b : Body) (d : Design) (k : Nat) (c : PlacedConnection) : Prop where
  resolved : (∃ x, (k, x) ∈ d.connections) ↔ Occurs b c.source ∧ Occurs b c.target
  ends : ∀ x, (k, x) ∈ d.connections →
    (StandsFor b x.source c.source ∧ Lists d.nodes x.source) ∧
      StandsFor b x.target c.target ∧ Lists d.nodes x.target
  source : ¬ Occurs b c.source → ⟨k, c.source⟩ ∈ d.unresolved
  target : Occurs b c.source → ¬ Occurs b c.target → ⟨k, c.target⟩ ∈ d.unresolved

theorem carried_ofBody {k : Nat} {c : PlacedConnection} (found : b.connections[k]? = some c) :
    Carried b (ofBody b) k c := by
  have resolved_iff (x : Connection) : (k, x) ∈ (ofBody b).connections ↔
      endpoint? (endpoints b.nodes) c.source = some x.source ∧
      endpoint? (endpoints b.nodes) c.target = some x.target := by
    simp [mem_connections_ofBody_iff, found]
  refine ⟨?_, ?_, ?_, ?_⟩
  · simp only [resolved_iff, ← endpoint?_isSome_iff, Option.isSome_iff_exists]
    exact ⟨fun ⟨x, source, target⟩ => ⟨⟨_, source⟩, _, target⟩,
      fun ⟨⟨source, known⟩, target, known'⟩ => ⟨⟨source, target⟩, known, known'⟩⟩
  · intro x mem
    obtain ⟨source, target⟩ := (resolved_iff x).mp mem
    have source := standsFor_of_endpoint? source
    have target := standsFor_of_endpoint? target
    exact ⟨⟨source, source.lists⟩, target, target.lists⟩
  · intro missing
    exact mem_unresolved_addAllPlaced found
      (.inl ⟨endpoint?_eq_none_iff.mpr missing, by rw [Nat.zero_add]⟩)
  · intro there missing
    rw [← endpoint?_isSome_iff] at there
    exact mem_unresolved_addAllPlaced found
      (.inr ⟨there, endpoint?_eq_none_iff.mpr missing, by rw [Nat.zero_add]⟩)

/-- A later change leaves the connections of the graph. -/
theorem Carried.congr {k : Nat} {c : PlacedConnection} (h : Carried b d k c)
    (same : ∀ x, (k, x) ∈ d'.connections ↔ (k, x) ∈ d.connections)
    (lists : ∀ e, Lists d.nodes e → Lists d'.nodes e) (same' : d'.unresolved = d.unresolved) :
    Carried b d' k c := by
  refine ⟨?_, fun x mem => ?_, same' ▸ h.source, same' ▸ h.target⟩
  · simp only [same]
    exact h.resolved
  · obtain ⟨⟨source, listed⟩, target, listed'⟩ := h.ends x ((same x).mp mem)
    exact ⟨⟨source, lists _ listed⟩, target, lists _ listed'⟩

/-! ## Changes -/

/-- A design that was read from a graph and changed since; `made` are the connections that were
made meanwhile. -/
structure Arena (b : Body) (made : List Connection) (d : Design) : Prop where
  indexed : Indexed d
  labels : ∀ label, d.nodeByLabel? label = d.nodes.findIdx? fun n => n.label == label
  /-- No connection is lost or doubled: those of the graph and those made have a position each. -/
  positions : Positioned d (b.connections.length + made.length)
  made : ∀ k x, made[k]? = some x → (b.connections.length + k, x) ∈ d.connections
  placed : ∀ k c, b.connections[k]? = some c → Carried b d k c

theorem arena_ofBody (b : Body) : Arena b [] (ofBody b) :=
  ⟨indexed_ofBody b, (indexed_ofBody b).nodeByLabel?, .ofBody b, by simp, fun _ _ => carried_ofBody⟩

namespace Arena

variable (h : Arena b made d)
include h

theorem addNode (typeName label : String) : Arena b made (d.addNode typeName label).1 := by
  have indexed : Indexed (d.addNode typeName label).1 := h.indexed.push _
  refine ⟨indexed, indexed.nodeByLabel?, h.positions.congr rfl rfl, h.made, ?_⟩
  intro k c found
  refine (h.placed k c found).congr (fun _ => Iff.rfl) (fun e listed => ?_) rfl
  obtain ⟨n, there, mem⟩ := listed
  exact ⟨n, List.getElem?_append_left (List.getElem?_eq_some_iff.mp there).1 ▸ there, mem⟩

theorem setProperty (node : Nat) (name : String) (value : Json) :
    Arena b made (d.setProperty node name value) := by
  have same : (d.setProperty node name value).nodes.map (·.label) = d.nodes.map (·.label) := by
    apply map_modify_of_same
    intro n
    rfl
  have indexed : Indexed (d.setProperty node name value) := h.indexed.congr rfl same
  refine ⟨indexed, indexed.nodeByLabel?, h.positions.congr rfl rfl, h.made, ?_⟩
  intro k c found
  exact (h.placed k c found).congr (fun _ => Iff.rfl)
    (fun e listed => listed.modify fun _ => List.Subset.refl _) rfl

theorem connect (source target : Endpoint) :
    Arena b (made ++ [⟨source, target⟩]) (d.connect source target).1 := by
  have position : d.connections.length + d.unresolved.length =
      b.connections.length + made.length := h.positions.length_eq
  have added : (d.connect source target).1.connections =
      d.connections ++ [(b.connections.length + made.length, ⟨source, target⟩)] := by
    rw [← position]
    rfl
  have same : (d.connect source target).1.nodes.map (·.label) = d.nodes.map (·.label) := by
    rw [Design.connect, map_label_register, map_label_register]
  have indexed : Indexed (d.connect source target).1 := h.indexed.congr rfl same
  refine ⟨indexed, indexed.nodeByLabel?, ?_, ?_, fun k c found => ?_⟩
  · rw [List.length_append, List.length_singleton, ← Nat.add_assoc]
    exact h.positions.resolve added rfl
  · intro k x found
    rw [added, List.mem_append, List.mem_singleton]
    by_cases before : k < made.length
    · rw [List.getElem?_append_left before] at found
      exact .inl (h.made k x found)
    · rw [List.getElem?_append_right (Nat.not_lt.mp before), List.getElem?_singleton] at found
      obtain ⟨last, rfl⟩ : k - made.length = 0 ∧ ⟨source, target⟩ = x := by simpa using found
      obtain rfl : k = made.length := by omega
      exact .inr rfl
  · have early : k < b.connections.length := (List.getElem?_eq_some_iff.mp found).1
    refine (h.placed k c found).congr (fun x => ?_) (fun e listed => listed.register.register) rfl
    rw [added, List.mem_append, List.mem_singleton]
    refine or_iff_left fun same => ?_
    have := congrArg Prod.fst same
    dsimp only at this
    omega

theorem change (change : Change) :
    Arena b (made ++ change.connection?.toList) (change.apply d) := by
  cases change with
  | addNode typeName label =>
    simpa [Change.connection?, Change.apply] using h.addNode typeName label
  | setProperty node name value =>
    simpa [Change.connection?, Change.apply] using h.setProperty node name value
  | connect source target => exact h.connect source target

theorem changed (changes : List Change) :
    Arena b (made ++ changes.filterMap Change.connection?) (d.changed changes) := by
  induction changes generalizing d made with
  | nil => simpa [Design.changed] using h
  | cons change rest ih =>
    have next := ih (h.change change)
    have whole : (change :: rest).filterMap Change.connection? =
        change.connection?.toList ++ rest.filterMap Change.connection? := by
      cases made : change.connection? <;> simp [made]
    rw [whole, ← List.append_assoc]
    exact next

end Arena

/-- What changes leave of a design that is read from a document. -/
theorem arena_of_document {doc : Document} (main : doc.main = .ok b) (changes : List Change) :
    ∃ read, ofDocument doc = .ok read ∧
      Arena b (changes.filterMap Change.connection?) (read.changed changes) :=
  ⟨ofBody b, by rw [ofDocument, main]; rfl, by simpa using (arena_ofBody b).changed changes⟩

/-- A controller and a lamp that write the identifier `pin` both. One connection has its
identifiers, one lacks the second and one lacks both. -/
def pinFile : Body :=
  { id := "g", name := none, extra := .empty
    nodes := [⟨"n1", "MCU", some "Board", [], [⟨"pin", "gpioa", .empty⟩], .empty⟩,
      ⟨"n2", "LED", none, [], [⟨"pin", "gpio", .empty⟩, ⟨"lamp", "power", .empty⟩], .empty⟩]
    connections := [⟨"lamp", "pin", .empty⟩, ⟨"pin", "missing", .empty⟩,
      ⟨"gone", "missing", .empty⟩] }

/-- A node with a label that is taken, and a connection to it. -/
def pinChanges : List Change :=
  [.addNode "LED" "board", .connect ⟨0, "gpiob"⟩ ⟨2, "gpio"⟩, .setProperty 2 "color" (.str "red")]

theorem arena_of_pinFile :
    Document.main ⟨some pinFile, [], none, .empty⟩ = .ok pinFile ∧
      ∃ read, ofDocument ⟨some pinFile, [], none, .empty⟩ = .ok read ∧
        Arena pinFile [⟨⟨0, "gpiob"⟩, ⟨2, "gpio"⟩⟩] (read.changed pinChanges) ∧
        (read.changed pinChanges).nodeByLabel? "board" = some 0 ∧
        (read.changed pinChanges).connections.map (·.1) = [0, 3] ∧
        (read.changed pinChanges).unresolved = [⟨1, "missing"⟩, ⟨2, "gone"⟩] := by
  have main : Document.main ⟨some pinFile, [], none, .empty⟩ = .ok pinFile := rfl
  obtain ⟨read, begun, arena⟩ := arena_of_document main pinChanges
  have same : read = ofBody pinFile := (Except.ok.inj begun).symm
  subst same
  exact ⟨main, _, begun, arena, by decide, by decide, by decide⟩

end BoardDesign.Design
