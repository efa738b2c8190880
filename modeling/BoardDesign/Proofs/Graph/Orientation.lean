import BoardDesign.App.LabelMap
import BoardDesign.Board.Devicetree
import BoardDesign.Proofs.Graph.Reports
import Mathlib.Data.List.Forall2
import Mathlib.Data.List.Perm.Basic

/-!
# Connections have no direction

A design some of whose connections are told from their other ends is judged as the design is, and
its board is made the same.

* `Design.turn`: the connections at some places of a design, told from their other ends;
* `kinds_connectionIssues`: a connection breaks the same rules from either end;
* `tally_perm`: how often interfaces are used does not depend on the order of the ends;
* `linkAt?_swap`: a connection shows the same neighbour from either end;
* `sameVerdict_turn`: what this makes of `validate`, the overlay and the label lists.
-/

namespace BoardDesign

namespace Design

/-- The connection told from its other end. -/
def Connection.swap (e : Connection) : Connection := ⟨e.target, e.source⟩

/-- The connections at some places of the row told from their other ends. -/
def turn (d : Design) (turned : Nat → Bool) : Design :=
  { d with
    connections := d.connections.mapIdx fun place e =>
      (e.1, if turned place then e.2.swap else e.2) }

/-- One connection at one position, told from either end. -/
inductive Told : Nat × Connection → Nat × Connection → Prop
  | same (e : Nat × Connection) : Told e e
  | swapped (position : Nat) (e : Connection) : Told (position, e) (position, e.swap)

theorem told_mapIdx (connections : List (Nat × Connection)) (turned : Nat → Bool) :
    List.Forall₂ Told connections
      (connections.mapIdx fun place e => (e.1, if turned place then e.2.swap else e.2)) := by
  induction connections generalizing turned with
  | nil => exact .nil
  | cons e rest ih =>
    rw [List.mapIdx_cons]
    refine .cons ?_ (ih fun place => turned (place + 1))
    split
    · exact .swapped e.1 e.2
    · exact .same e

theorem told_turn (d : Design) (turned : Nat → Bool) :
    List.Forall₂ Told d.connections (d.turn turned).connections :=
  told_mapIdx d.connections turned

end Design

namespace Graph

open Design (Node Endpoint Connection Told)

variable {labels : List String} {types : List (Option NodeType)}

/-! ## One connection -/

theorem outside?_swap (types : List (Option NodeType)) (e : Connection) :
    (outside? types e.swap).isSome = (outside? types e).isSome := by
  by_cases source : types.length ≤ e.source.node <;>
    by_cases target : types.length ≤ e.target.node <;>
      simp [outside?, Connection.swap, source, target]

theorem kinds_pairIssues (labels : List String) (position : Nat) (e : Connection)
    (a b : Interface) :
    (pairIssues labels position e.swap b a).map Issue.kind =
      (pairIssues labels position e a b).map Issue.kind := by
  unfold pairIssues
  rw [TypeTags.compatible_comm b.tags, Direction.pairsWith_comm b.direction]
  cases a.tags.compatible b.tags <;> cases a.direction.pairsWith b.direction <;> rfl

/-- From either end a connection breaks the same rules. -/
theorem kinds_connectionIssues (labels : List String) (types : List (Option NodeType))
    (position : Nat) (e : Connection) :
    ((connectionIssues labels types position e.swap).map Issue.kind).Perm
      ((connectionIssues labels types position e).map Issue.kind) := by
  have outside := outside?_swap types e
  unfold connectionIssues
  cases out : outside? types e with
  | some x =>
    rw [out, Option.isSome_some, Option.isSome_iff_exists] at outside
    obtain ⟨y, out'⟩ := outside
    rw [out']
    exact .refl _
  | none =>
    rw [out, Option.isSome_none, Option.isSome_eq_false_iff, Option.isNone_iff_eq_none] at outside
    rw [outside]
    simp only [List.map_append, Connection.swap]
    refine List.perm_append_comm.append (.of_eq ?_)
    cases interfaceAt? types e.source with
    | none => cases interfaceAt? types e.target <;> rfl
    | some a =>
      cases interfaceAt? types e.target with
      | none => rfl
      | some b => exact kinds_pairIssues labels position e a b

theorem linkAt?_swap (g : ValidDesign) (root : Nat) (interface : String) (e : Connection) :
    g.linkAt? root interface e.swap = g.linkAt? root interface e := by
  simp only [ValidDesign.linkAt?, Connection.otherSide, Connection.swap]
  by_cases source : e.source.node = root <;> by_cases target : e.target.node = root <;>
    simp [source, target]

/-! ## All connections -/

section Rows

variable {α : Type} {connections connections' : List (Nat × Connection)}

theorem perm_flatMap_told {f : Nat × Connection → List α}
    (told : List.Forall₂ Told connections connections')
    (either : ∀ position e, (f (position, e.swap)).Perm (f (position, e))) :
    (connections'.flatMap f).Perm (connections.flatMap f) := by
  induction told with
  | nil => exact .refl _
  | cons first _ ih =>
    rw [List.flatMap_cons, List.flatMap_cons]
    refine .append ?_ ih
    cases first with
    | same e => exact .refl _
    | swapped position e => exact either position e

theorem filterMap_told {f : Nat × Connection → Option α}
    (told : List.Forall₂ Told connections connections')
    (either : ∀ position e, f (position, e.swap) = f (position, e)) :
    connections'.filterMap f = connections.filterMap f := by
  induction told with
  | nil => rfl
  | cons first _ ih =>
    rw [List.filterMap_cons, List.filterMap_cons, ih]
    cases first with
    | same e => rfl
    | swapped position e => rw [either]

/-- The ends are the same ones, in another order. -/
theorem perm_ends (types : List (Option NodeType))
    (told : List.Forall₂ Told connections connections') :
    (ends types connections').Perm (ends types connections) := by
  refine perm_flatMap_told told fun position e => ?_
  rw [outside?_swap types e]
  split
  · exact .refl _
  · exact .swap _ _ _

end Rows

theorem tally_perm {names names' : List String} (perm : names.Perm names') :
    tally names = tally names' := by
  apply Table.ext
  intro name
  rw [tally, tally, get?_tallyOnto, get?_tallyOnto, perm.count_eq]
  simp only [perm.mem_iff]

theorem limitIssues_perm {all all' : List Endpoint} (perm : all.Perm all')
    (labels : List String) (types : List (Option NodeType)) (node : Nat) :
    limitIssues labels types all node = limitIssues labels types all' node := by
  unfold limitIssues
  rw [tally_perm ((perm.filter _).map (·.interface))]

/-- The issues of a turned design are of the same kinds, as many of each. -/
theorem kinds_issues_turn (d : Design) (c : EffectiveCatalog) (turned : Nat → Bool) :
    ((issues (d.turn turned) c).map Issue.kind).Perm ((issues d c).map Issue.kind) := by
  have told := d.told_turn turned
  have limits (node : Nat) : limitIssues (d.nodes.map (labelOf c)) (d.nodes.map (typeOf? c))
      (ends (d.nodes.map (typeOf? c)) (d.turn turned).connections) node =
        limitIssues (d.nodes.map (labelOf c)) (d.nodes.map (typeOf? c))
          (ends (d.nodes.map (typeOf? c)) d.connections) node :=
    limitIssues_perm (perm_ends _ told) _ _ node
  have nodes : (d.turn turned).nodes = d.nodes := rfl
  have unresolved : (d.turn turned).unresolved = d.unresolved := rfl
  simp only [issues, nodes, unresolved, List.map_append, List.map_flatMap, limits]
  refine .append (.append (.refl _) ?_) (.refl _)
  exact perm_flatMap_told told fun position e => kinds_connectionIssues _ _ position e

/-! ## The verdict -/

/-- Two designs are both accepted, and the same is made of them, or both refused, for as many
reasons of each kind. -/
inductive SameVerdict : Except (List Issue) ValidDesign → Except (List Issue) ValidDesign → Prop
  | accepted {g g' : ValidDesign} (nodes : g'.nodes = g.nodes) (root : g'.root = g.root)
      (neighbours : g'.rootNeighbours = g.rootNeighbours)
      (overlay : Board.Overlay.ofLinks g'.rootNeighbours = Board.Overlay.ofLinks g.rootNeighbours)
      (lists : ∀ rules, App.labelMap g' rules = App.labelMap g rules) :
      SameVerdict (.ok g) (.ok g')
  | refused {found found' : List Issue}
      (kinds : ∀ kind, (found'.map Issue.kind).count kind = (found.map Issue.kind).count kind) :
      SameVerdict (.error found) (.error found')

theorem rootNeighbours_turn (g : ValidDesign) (turned : Nat → Bool) :
    { g with design := g.design.turn turned }.rootNeighbours = g.rootNeighbours := by
  unfold ValidDesign.rootNeighbours
  cases g.root with
  | none => rfl
  | some root =>
    have sameNode : (g.design.turn turned).node? root = g.design.node? root := rfl
    simp only [sameNode]
    cases g.design.node? root with
    | none => rfl
    | some n =>
      refine congrArg (List.flatMap · n.interfaces) (funext fun interface => ?_)
      exact filterMap_told (g.design.told_turn turned) fun _ e => linkAt?_swap g root interface e

theorem labelMap_turn (g : ValidDesign) (turned : Nat → Bool) (rules : Table NodeRule) :
    App.labelMap { g with design := g.design.turn turned } rules = App.labelMap g rules := by
  have counted : App.countedNodes { g with design := g.design.turn turned } =
      App.countedNodes g := by
    simp only [App.countedNodes, rootNeighbours_turn]
    rfl
  simp only [App.labelMap, counted]

/-- It does not matter from which of their ends the connections of a design are told. -/
theorem sameVerdict_turn (d : Design) (c : EffectiveCatalog) (turned : Nat → Bool) :
    SameVerdict (validate d c) (validate (d.turn turned) c) := by
  have kinds := kinds_issues_turn d c turned
  unfold validate
  cases found : issues d c with
  | nil =>
    rw [found, List.map_nil, List.perm_nil, List.map_eq_nil_iff] at kinds
    rw [kinds]
    let g : ValidDesign :=
      ⟨d, c, (Rows.ofNodes c d.nodes).views d.nodes, (rootsOf (d.nodes.map (typeOf? c))).head?⟩
    have neighbours := rootNeighbours_turn g turned
    exact .accepted rfl rfl neighbours (congrArg _ neighbours) (labelMap_turn g turned)
  | cons first rest =>
    cases found' : issues (d.turn turned) c with
    | nil =>
      rw [found, found', List.map_nil, List.nil_perm] at kinds
      cases kinds
    | cons first' rest' =>
      rw [found, found'] at kinds
      exact .refused fun kind => kinds.count_eq kind

end Graph

end BoardDesign
