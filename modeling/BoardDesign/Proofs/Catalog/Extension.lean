import BoardDesign.Proofs.Catalog.Inheritance
import Mathlib.Data.List.Chain
import Mathlib.Data.List.Perm.Subperm

/-!
# Walks along extensions

A type is resolved by following the types that it extends, each followed as far as it goes before
the next one.

* `Walk`: the types met on the way, those that the catalog lacks passed over and those met again
  listed again; what is walked once is walked the same way each time (`Walk.unique`), and nothing
  that is walked extends itself (`Walk.acc`);
* `resolve_ok`: resolution that succeeds folds `inherit` over the walk, whatever was resolved
  before;
* `resolve_fuel`: a chain of open types has no repetition, so no more types are open than the
  catalog has, and the bound on their number is never met;
* `resolve_error`: resolution fails with a chain that comes back to itself and with nothing else;
* `flatten_cyclicExtends_iff`: so it fails exactly if some type extends itself, however far round.
-/

namespace BoardDesign.Catalog

variable {c : Catalog} {fuel : Nat} {chain names : List String} {name : String}
  {done done' : Table NodeType}

/-- The type of one name names the other one among those that it extends. -/
def Lists (c : Catalog) (name parent : String) : Prop :=
  ∃ own, c.node? name = some own ∧ parent ∈ own.extending

/-- The type of one name extends that of the other one, and the catalog has both. -/
def Extends (c : Catalog) (name parent : String) : Prop :=
  c.Lists name parent ∧ c.contains parent = true

/-- Some type extends itself, directly or through others. -/
def Cyclic (c : Catalog) : Prop := ∃ name, Relation.TransGen c.Extends name name

/-- Each name lists the next one, and the last one occurred before. -/
def Closes (c : Catalog) (chain : List String) : Prop :=
  chain.IsChain c.Extends ∧ ∃ front last, chain = front ++ [last] ∧ last ∈ front

/-- The types met from some names on: each type of the catalog, then those met from what it
extends, then those met from the names after it. -/
inductive Walk (c : Catalog) : List String → List NodeType → Prop
  | nil : Walk c [] []
  | missing {name rest after} (absent : c.node? name = none) (next : Walk c rest after) :
      Walk c (name :: rest) after
  | node {name rest above after own} (found : c.node? name = some own)
      (up : Walk c own.extending above) (next : Walk c rest after) :
      Walk c (name :: rest) (own :: above ++ after)

theorem contains_of_node? {own : NodeType} (found : c.node? name = some own) :
    c.contains name = true := by
  simp [contains, found]

theorem Walk.unique {ts us : List NodeType} (h : c.Walk names ts) (h' : c.Walk names us) :
    ts = us := by
  induction h generalizing us with
  | nil => cases h'; rfl
  | missing absent _ ih =>
    cases h' with
    | missing _ next => exact ih next
    | node found _ _ => cases absent.symm.trans found
  | node found _ _ up next =>
    cases h' with
    | missing absent _ => cases absent.symm.trans found
    | node found' up' next' =>
      cases found.symm.trans found'
      rw [up up', next next']

theorem Walk.append {more : List String} {ts us : List NodeType} (h : c.Walk names ts)
    (h' : c.Walk more us) : c.Walk (names ++ more) (ts ++ us) := by
  induction h with
  | nil => exact h'
  | missing absent _ ih => exact .missing absent ih
  | node found up _ _ ih =>
    rw [List.cons_append, List.append_assoc]
    exact .node found up ih

/-- No chain of extensions goes on for ever from a type that is walked. -/
theorem Walk.acc {ts : List NodeType} (h : c.Walk names ts) :
    ∀ name ∈ names, Acc (fun parent name => c.Extends name parent) name := by
  induction h with
  | nil => simp
  | missing absent _ ih =>
    refine List.forall_mem_cons.mpr ⟨⟨_, ?_⟩, ih⟩
    rintro parent ⟨⟨own, found, _⟩, _⟩
    cases absent.symm.trans found
  | node found _ _ up next =>
    refine List.forall_mem_cons.mpr ⟨⟨_, ?_⟩, next⟩
    rintro parent ⟨⟨own, found', mem⟩, _⟩
    cases found.symm.trans found'
    exact up parent mem

theorem not_transGen_of_acc {α : Type _} {r : α → α → Prop} {x : α}
    (h : Acc (fun b a => r a b) x) : ¬ Relation.TransGen r x x := by
  intro round
  have back : Relation.TransGen (fun b a => r a b) x x := Relation.transGen_swap.mpr round
  induction h.transGen with
  | intro x _ ih => exact ih x back (h.inv_of_transGen back) round back

/-! ## One step of resolution -/

/-- What a type inherits from some others, one after the other. -/
def inheritAll (c : Catalog) (fuel : Nat) (chain names : List String)
    (state : NodeType × Table NodeType) : Except Error (NodeType × Table NodeType) :=
  names.foldlM
    (fun (state : NodeType × Table NodeType) parentName => do
      let (parent, done) ← c.resolve fuel chain parentName state.2
      .ok ((parent.map state.1.inherit).getD state.1, done))
    state

theorem inheritAll_cons (c : Catalog) (fuel : Nat) (chain names : List String) (name : String)
    (state : NodeType × Table NodeType) :
    c.inheritAll fuel chain (name :: names) state
      = (c.resolve fuel chain name state.2).bind fun r =>
          c.inheritAll fuel chain names ((r.1.map state.1.inherit).getD state.1, r.2) := by
  simp only [inheritAll, List.foldlM_cons]
  cases c.resolve fuel chain name state.2 <;> rfl

theorem resolve_of_done {t : NodeType} (found : done.get? name = some t) :
    c.resolve (fuel + 1) chain name done = .ok (some t, done) := by
  simp only [resolve, found]

theorem resolve_of_open (new : done.get? name = none) (isOpen : name ∈ chain) :
    c.resolve (fuel + 1) chain name done = .error (.cyclicExtends (chain ++ [name])) := by
  simp only [resolve, new, isOpen, if_true]

theorem resolve_of_missing (new : done.get? name = none) (fresh : name ∉ chain)
    (absent : c.node? name = none) : c.resolve (fuel + 1) chain name done = .ok (none, done) := by
  simp only [resolve, new, fresh, if_false, absent]

theorem resolve_of_node {own : NodeType} (new : done.get? name = none) (fresh : name ∉ chain)
    (found : c.node? name = some own) :
    c.resolve (fuel + 1) chain name done
      = (c.inheritAll fuel (chain ++ [name]) own.extending (own, done)).map fun r =>
          (some r.1, r.2.insert name r.1) := by
  have step : c.resolve (fuel + 1) chain name done
      = c.inheritAll fuel (chain ++ [name]) own.extending (own, done) >>= fun r =>
          .ok (some r.1, r.2.insert name r.1) := by
    simp only [resolve, new, fresh, if_false, found]
    rfl
  rw [step]
  cases c.inheritAll fuel (chain ++ [name]) own.extending (own, done) <;> rfl

/-- All that a step of resolution can find. -/
theorem resolve_cases (c : Catalog) (chain : List String) (name : String)
    (done : Table NodeType) :
    (∃ t, done.get? name = some t) ∨ (done.get? name = none ∧ name ∈ chain) ∨
      (done.get? name = none ∧ name ∉ chain ∧ c.node? name = none) ∨
      ∃ own, done.get? name = none ∧ name ∉ chain ∧ c.node? name = some own := by
  cases done.get? name with
  | some t => exact .inl ⟨t, rfl⟩
  | none =>
    by_cases isOpen : name ∈ chain
    · exact .inr (.inl ⟨rfl, isOpen⟩)
    · cases c.node? name with
      | none => exact .inr (.inr (.inl ⟨rfl, isOpen, rfl⟩))
      | some own => exact .inr (.inr (.inr ⟨own, rfl, isOpen, rfl⟩))

/-! ## What is resolved is what the walk gives -/

/-- Every resolved type is the type of its name with what is met above it inherited in turn. -/
def Sound (c : Catalog) (done : Table NodeType) : Prop :=
  ∀ name t, done.get? name = some t → ∃ own above,
    c.node? name = some own ∧ c.Walk own.extending above ∧ t = above.foldl NodeType.inherit own

theorem sound_empty (c : Catalog) : c.Sound .empty := by
  intro name t found
  cases found

/-- Nothing that was resolved is forgotten or changed. -/
def Keeps (done done' : Table NodeType) : Prop :=
  ∀ name t, done.get? name = some t → done'.get? name = some t

theorem Keeps.trans {between : Table NodeType} (h : Keeps done between)
    (h' : Keeps between done') : Keeps done done' :=
  fun name t found => h' name t (h name t found)

theorem keeps_insert {t : NodeType} (new : done.get? name = none) (h : Keeps done done') :
    Keeps done (done'.insert name t) := by
  intro other u found
  have ne : other ≠ name := by
    rintro rfl
    cases new.symm.trans found
  simpa [ne] using h other u found

/-- What resolution of a name comes to: the table that it leaves, and what others inherit from its
result. -/
structure Resolves (c : Catalog) (done : Table NodeType) (name : String) (r : Option NodeType)
    (done' : Table NodeType) : Prop where
  sound : c.Sound done'
  keeps : Keeps done done'
  recorded : done'.get? name = r
  known : r = none → c.node? name = none
  walked : ∃ ts, c.Walk [name] ts ∧
    ∀ s : NodeType, (r.map s.inherit).getD s = ts.foldl NodeType.inherit s

theorem inheritAll_ok
    (step : ∀ {name r done done'}, c.Sound done →
      c.resolve fuel chain name done = .ok (r, done') → c.Resolves done name r done')
    {s t : NodeType} (sound : c.Sound done)
    (h : c.inheritAll fuel chain names (s, done) = .ok (t, done')) :
    c.Sound done' ∧ Keeps done done' ∧
      ∃ ts, c.Walk names ts ∧ t = ts.foldl NodeType.inherit s := by
  induction names generalizing s done with
  | nil =>
    cases h
    exact ⟨sound, fun _ _ found => found, [], .nil, rfl⟩
  | cons name rest ih =>
    rw [inheritAll_cons] at h
    obtain ⟨⟨r, between⟩, first, h⟩ := bind_eq_ok h
    have resolved := step sound first
    obtain ⟨ts, walk, inherits⟩ := resolved.walked
    obtain ⟨sound', keeps', us, walk', rfl⟩ := ih resolved.sound h
    refine ⟨sound', resolved.keeps.trans keeps', ts ++ us, walk.append walk', ?_⟩
    rw [List.foldl_append, ← inherits]

/-- A type that stands in a sound table is walked from its name, and to inherit from it is to
inherit from all that is walked. -/
theorem walked_of_entry {own : NodeType} {above : List NodeType} (found : c.node? name = some own)
    (walk : c.Walk own.extending above) : ∃ ts, c.Walk [name] ts ∧ ∀ s : NodeType,
      ((some (above.foldl NodeType.inherit own)).map s.inherit).getD s
        = ts.foldl NodeType.inherit s := by
  refine ⟨own :: above ++ [], .node found walk .nil, fun s => ?_⟩
  rw [List.append_nil, ← NodeType.inherit_foldl]
  rfl

theorem resolve_ok {r : Option NodeType} (sound : c.Sound done)
    (h : c.resolve fuel chain name done = .ok (r, done')) : c.Resolves done name r done' := by
  induction fuel generalizing chain name done done' r with
  | zero => cases h
  | succ fuel ih =>
    rcases c.resolve_cases chain name done with
      ⟨t, found⟩ | ⟨new, isOpen⟩ | ⟨new, fresh, absent⟩ | ⟨own, new, fresh, found⟩
    · rw [resolve_of_done found] at h
      cases h
      obtain ⟨own, above, entry, walk, rfl⟩ := sound name t found
      exact ⟨sound, fun _ _ found => found, found, nofun, walked_of_entry entry walk⟩
    · rw [resolve_of_open new isOpen] at h
      cases h
    · rw [resolve_of_missing new fresh absent] at h
      cases h
      exact ⟨sound, fun _ _ found => found, new, fun _ => absent, [], .missing absent .nil,
        fun s => rfl⟩
    · rw [resolve_of_node new fresh found] at h
      cases up : c.inheritAll fuel (chain ++ [name]) own.extending (own, done) with
      | error e => rw [up] at h; cases h
      | ok result =>
        obtain ⟨t, between⟩ := result
        rw [up] at h
        cases h
        obtain ⟨sound', keeps, above, walk, rfl⟩ := inheritAll_ok ih sound up
        refine ⟨?_, keeps_insert new keeps, by simp, nofun, walked_of_entry found walk⟩
        intro other u entry
        rw [Table.get?_insert] at entry
        split at entry
        · rename_i same
          cases entry
          exact ⟨own, above, same ▸ found, walk, rfl⟩
        · exact sound' other u entry

/-! ## Open types -/

/-- The types whose resolution is going on, each one extending the next, and a name that the last
of them lists. -/
structure Trail (c : Catalog) (chain : List String) (name : String) : Prop where
  distinct : chain.Nodup
  known : ∀ name ∈ chain, c.contains name = true
  steps : chain.IsChain c.Extends
  lists : ∀ last ∈ chain.getLast?, c.Lists last name

theorem Trail.start (c : Catalog) (name : String) : c.Trail [] name :=
  ⟨.nil, by simp, .nil, by simp⟩

theorem Trail.length_le (h : c.Trail chain name) : chain.length ≤ c.nodes.length := by
  have sub : chain ⊆ c.nodes.map (·.name) := by
    intro name mem
    obtain ⟨t, found⟩ := Option.isSome_iff_exists.mp (h.known name mem)
    have same : t.name = name := by simpa using List.find?_some found
    exact same ▸ List.mem_map_of_mem (List.mem_of_find?_eq_some found)
  simpa using (List.subperm_of_subset h.distinct sub).length_le

/-- One more step in the chain, if it ends in a type of the catalog. -/
theorem Trail.walk (h : c.Trail chain name) (has : c.contains name = true) :
    (chain ++ [name]).IsChain c.Extends := by
  refine List.isChain_append.mpr ⟨h.steps, .singleton name, fun last mem next head => ?_⟩
  have e : name = next := by simpa using head
  exact e ▸ ⟨h.lists last mem, has⟩

theorem Trail.next {own : NodeType} {parent : String} (h : c.Trail chain name)
    (fresh : name ∉ chain) (found : c.node? name = some own) (mem : parent ∈ own.extending) :
    c.Trail (chain ++ [name]) parent where
  distinct := by
    refine List.nodup_append.mpr ⟨h.distinct, by simp, ?_⟩
    rintro a ha b hb rfl
    exact fresh ((List.mem_singleton.mp hb) ▸ ha)
  known := by
    intro other hm
    rcases List.mem_append.mp hm with hm | hm
    · exact h.known other hm
    · exact (List.mem_singleton.mp hm) ▸ contains_of_node? found
  steps := h.walk (contains_of_node? found)
  lists := by
    intro last hm
    have e : name = last := by simpa using hm
    exact e ▸ ⟨own, found, mem⟩

theorem Trail.closes (h : c.Trail chain name) (isOpen : name ∈ chain) :
    c.Closes (chain ++ [name]) :=
  ⟨h.walk (h.known name isOpen), chain, name, rfl, isOpen⟩

theorem inheritAll_congr {fuel fuel' : Nat} {state : NodeType × Table NodeType}
    (same : ∀ name ∈ names, ∀ done, c.resolve fuel chain name done = c.resolve fuel' chain name done) :
    c.inheritAll fuel chain names state = c.inheritAll fuel' chain names state := by
  induction names generalizing state with
  | nil => rfl
  | cons name rest ih =>
    rw [inheritAll_cons, inheritAll_cons, same name List.mem_cons_self]
    congr 1
    funext r
    exact ih fun other mem => same other (List.mem_cons_of_mem _ mem)

/-- With as many steps in hand as there are types that are not open, one more makes no
difference. -/
theorem resolve_fuel (trail : c.Trail chain name) (enough : c.nodes.length < fuel + chain.length) :
    c.resolve (fuel + 1) chain name done = c.resolve fuel chain name done := by
  induction fuel generalizing chain name done with
  | zero =>
    have := trail.length_le
    omega
  | succ fuel ih =>
    rcases c.resolve_cases chain name done with
      ⟨t, found⟩ | ⟨new, isOpen⟩ | ⟨new, fresh, absent⟩ | ⟨own, new, fresh, found⟩
    · rw [resolve_of_done found, resolve_of_done found]
    · rw [resolve_of_open new isOpen, resolve_of_open new isOpen]
    · rw [resolve_of_missing new fresh absent, resolve_of_missing new fresh absent]
    · rw [resolve_of_node new fresh found, resolve_of_node new fresh found]
      congr 1
      refine inheritAll_congr fun parent mem done => ih (trail.next fresh found mem) ?_
      simp only [List.length_append, List.length_singleton]
      omega

theorem resolve_bound (c : Catalog) (name : String) (done : Table NodeType)
    (enough : c.nodes.length < fuel) :
    c.resolve fuel [] name done = c.resolve (c.nodes.length + 1) [] name done := by
  induction fuel, enough using Nat.le_induction with
  | base => rfl
  | succ fuel enough ih =>
    rw [← ih]
    exact resolve_fuel (.start c name) (Nat.lt_iff_add_one_le.mpr enough)

theorem inheritAll_error {state : NodeType × Table NodeType} {e : Error}
    (step : ∀ name ∈ names, ∀ {done}, c.resolve fuel chain name done = .error e →
      ∃ round, e = .cyclicExtends round ∧ c.Closes round)
    (h : c.inheritAll fuel chain names state = .error e) :
    ∃ round, e = .cyclicExtends round ∧ c.Closes round := by
  induction names generalizing state with
  | nil => cases h
  | cons name rest ih =>
    rw [inheritAll_cons] at h
    cases first : c.resolve fuel chain name state.2 with
    | error e' =>
      rw [first] at h
      cases h
      exact step name List.mem_cons_self first
    | ok r =>
      rw [first] at h
      exact ih (fun other mem => step other (List.mem_cons_of_mem _ mem)) h

/-- The only fault of resolution is a chain that comes back to itself. -/
theorem resolve_error {e : Error} (trail : c.Trail chain name)
    (enough : c.nodes.length < fuel + chain.length)
    (h : c.resolve fuel chain name done = .error e) :
    ∃ round, e = .cyclicExtends round ∧ c.Closes round := by
  induction fuel generalizing chain name done with
  | zero =>
    have := trail.length_le
    omega
  | succ fuel ih =>
    rcases c.resolve_cases chain name done with
      ⟨t, found⟩ | ⟨new, isOpen⟩ | ⟨new, fresh, absent⟩ | ⟨own, new, fresh, found⟩
    · rw [resolve_of_done found] at h
      cases h
    · rw [resolve_of_open new isOpen] at h
      cases h
      exact ⟨_, rfl, trail.closes isOpen⟩
    · rw [resolve_of_missing new fresh absent] at h
      cases h
    · rw [resolve_of_node new fresh found] at h
      cases up : c.inheritAll fuel (chain ++ [name]) own.extending (own, done) with
      | ok result => rw [up] at h; cases h
      | error e' =>
        rw [up] at h
        cases h
        refine inheritAll_error (fun parent mem {done} => ih (trail.next fresh found mem) ?_) up
        simp only [List.length_append, List.length_singleton]
        omega

/-! ## Flattening -/

/-- Some types resolved one after the other. -/
def resolveAll (c : Catalog) (done : Table NodeType) (ts : List NodeType) :
    Except Error (Table NodeType) :=
  ts.foldlM (fun done t => (c.resolve (c.nodes.length + 1) [] t.name done).map (·.2)) done

theorem resolveAll_cons (c : Catalog) (done : Table NodeType) (t : NodeType)
    (ts : List NodeType) :
    c.resolveAll done (t :: ts)
      = (c.resolve (c.nodes.length + 1) [] t.name done).bind fun r => c.resolveAll r.2 ts := by
  simp only [resolveAll, List.foldlM_cons]
  cases c.resolve (c.nodes.length + 1) [] t.name done <;> rfl

theorem resolveAll_ok {ts : List NodeType} (sound : c.Sound done)
    (h : c.resolveAll done ts = .ok done') :
    c.Sound done' ∧ Keeps done done' ∧
      ∀ t ∈ ts, c.contains t.name = true → done'.contains t.name = true := by
  induction ts generalizing done with
  | nil =>
    cases h
    exact ⟨sound, fun _ _ found => found, by simp⟩
  | cons t rest ih =>
    rw [resolveAll_cons] at h
    obtain ⟨⟨r, between⟩, first, h⟩ := bind_eq_ok h
    have resolved := resolve_ok sound first
    obtain ⟨sound', keeps, others⟩ := ih resolved.sound h
    refine ⟨sound', resolved.keeps.trans keeps, List.forall_mem_cons.mpr ⟨fun has => ?_, others⟩⟩
    cases r with
    | none => simp [contains, resolved.known rfl] at has
    | some u => simp [Table.contains, keeps t.name u resolved.recorded]

theorem resolveAll_error {ts : List NodeType} {e : Error} (h : c.resolveAll done ts = .error e) :
    ∃ round, e = .cyclicExtends round ∧ c.Closes round := by
  induction ts generalizing done with
  | nil => cases h
  | cons t rest ih =>
    rw [resolveAll_cons] at h
    cases first : c.resolve (c.nodes.length + 1) [] t.name done with
    | error e' =>
      rw [first] at h
      cases h
      exact resolve_error (.start c t.name) (by simp) first
    | ok r =>
      rw [first] at h
      exact ih h

/-- A flattened catalog has each type of the catalog, completed by what the walk from it meets. -/
theorem flatten_ok {table : Table NodeType} (h : c.flatten = .ok table) :
    c.Sound table ∧ ∀ name, table.contains name = c.contains name := by
  obtain ⟨sound, _, all⟩ := resolveAll_ok (sound_empty c) h
  refine ⟨sound, fun name => Bool.eq_iff_iff.mpr ⟨fun has => ?_, fun has => ?_⟩⟩
  · obtain ⟨t, found⟩ := Option.isSome_iff_exists.mp has
    obtain ⟨own, _, entry, _⟩ := sound name t found
    exact contains_of_node? entry
  · obtain ⟨t, found⟩ := Option.isSome_iff_exists.mp has
    have same : t.name = name := by simpa using List.find?_some found
    exact same ▸ all t (List.mem_of_find?_eq_some found) (same ▸ has)

theorem not_cyclic_of_flatten_ok {table : Table NodeType} (h : c.flatten = .ok table) :
    ¬ c.Cyclic := by
  rintro ⟨name, round⟩
  obtain ⟨parent, ⟨⟨own, found, _⟩, _⟩, _⟩ := Relation.TransGen.head'_iff.mp round
  obtain ⟨sound, all⟩ := flatten_ok h
  obtain ⟨t, entry⟩ := Option.isSome_iff_exists.mp ((all name).trans (contains_of_node? found))
  obtain ⟨own, above, found, walk, _⟩ := sound name t entry
  have whole : c.Walk [name] (own :: above ++ []) := .node found walk .nil
  exact not_transGen_of_acc (whole.acc name List.mem_cons_self) round

theorem transGen_of_isChain {α : Type _} {r : α → α → Prop} {x y : α} {between : List α}
    (h : (x :: between ++ [y]).IsChain r) : Relation.TransGen r x y := by
  induction between generalizing x with
  | nil => exact .single (List.isChain_pair.mp h)
  | cons z rest ih =>
    obtain ⟨first, h⟩ := List.isChain_cons_cons.mp h
    exact .head first (ih h)

theorem cyclic_of_closes (h : c.Closes chain) : c.Cyclic := by
  obtain ⟨steps, front, last, rfl, mem⟩ := h
  obtain ⟨before, between, rfl⟩ := List.append_of_mem mem
  rw [List.append_assoc] at steps
  exact ⟨last, transGen_of_isChain (List.isChain_append.mp steps).2.1⟩

/-- Resolution ends from every name: beyond the number of types no bound on its depth makes a
difference. Flattening fails exactly if a type extends itself, however far round, and then tells a
chain of extensions that comes back to itself. -/
theorem flatten_cyclicExtends_iff (c : Catalog) :
    (∀ name done, ∃ outcome, (∀ fuel, c.nodes.length < fuel →
        c.resolve fuel [] name done = outcome) ∧
      ∀ e, outcome = .error e → ∃ round, e = .cyclicExtends round ∧ c.Closes round) ∧
    ((∃ round, c.flatten = .error (.cyclicExtends round)) ↔ c.Cyclic) ∧
    ∀ round, c.flatten = .error (.cyclicExtends round) → c.Closes round := by
  have closes {e : Error} (h : c.flatten = .error e) :
      ∃ round, e = .cyclicExtends round ∧ c.Closes round := resolveAll_error h
  refine ⟨fun name done => ?_, ⟨?_, fun cyclic => ?_⟩, fun round failed => ?_⟩
  · exact ⟨_, fun fuel => c.resolve_bound name done, fun e failed =>
      resolve_error (.start c name) (by simp) failed⟩
  · rintro ⟨round, failed⟩
    obtain ⟨_, _, back⟩ := closes failed
    exact cyclic_of_closes back
  · cases result : c.flatten with
    | ok table => exact absurd cyclic (not_cyclic_of_flatten_ok result)
    | error e =>
      obtain ⟨round, rfl, _⟩ := closes result
      exact ⟨round, rfl⟩
  · obtain ⟨_, e, back⟩ := closes failed
    cases e
    exact back

end BoardDesign.Catalog
