import BoardDesign.Proofs.File.Way

/-!
# Down into a directory

* `mem_children_iff`, `nodup_children`: a directory lists what is in it, each name once;
* `World.Opens`: a path leads to a directory, which can be listed (`isDir_iff`, `entriesAt_eq_ok`);
* `Usual`: the names that the system takes; under such a name a path goes one step further down
  (`Opens.leads`);
* `Walkable`: a directory that can be gone through to its end, and `Walkable.Entry`: an entry of
  one;
* `pathBelow`: the path of a place below that of another path; with nothing before them, such paths
  are made of the names alone (`components_pathBelow`) and are sorted as their places are
  (`sorted_pathsBelow`).
-/

namespace BoardDesign

open File File.Path

namespace File.Tree

variable {t : Tree} {l : Location} {name other : String} {names : List String}

theorem mem_insertName_iff : name ∈ insertName other names ↔ name = other ∨ name ∈ names := by
  refine ⟨World.mem_insertName, fun mem => ?_⟩
  induction names with
  | nil => simpa [insertName] using mem
  | cons k rest ih =>
    rw [insertName]
    split
    · rename_i same
      rcases mem with rfl | mem
      · exact same ▸ .head _
      · exact mem
    · split
      · exact List.mem_cons.mpr mem
      · rcases mem with rfl | mem
        · exact .tail _ (ih (.inl rfl))
        · rcases List.mem_cons.mp mem with rfl | mem
          · exact .head _
          · exact .tail _ (ih (.inr mem))

theorem pairwise_insertName (sorted : names.Pairwise (· < ·)) :
    (insertName name names).Pairwise (· < ·) := by
  induction names with
  | nil => simp [insertName]
  | cons k rest ih =>
    obtain ⟨first, others⟩ := List.pairwise_cons.mp sorted
    rw [insertName]
    split
    · exact sorted
    · rename_i apart
      split
      · rename_i before
        exact List.pairwise_cons.mpr ⟨List.forall_mem_cons.mpr
          ⟨before, fun m mem => String.lt_trans before (first m mem)⟩, sorted⟩
      · rename_i notBefore
        refine List.pairwise_cons.mpr ⟨fun m mem => ?_, ih others⟩
        rcases mem_insertName_iff.mp mem with rfl | mem
        · by_contra notAfter
          exact apart (String.le_antisymm (String.not_lt.mp notAfter) (String.not_lt.mp notBefore))
        · exact first m mem

/-- A directory lists what lies in it. -/
theorem mem_children_iff : name ∈ t.children l ↔ (t.find? (l ++ [name])).isSome := by
  refine ⟨World.find?_of_mem_children, fun found => ?_⟩
  obtain ⟨n, found⟩ := Option.isSome_iff_exists.mp found
  rw [find?_of_ne (by simp)] at found
  have child : childName? l (l ++ [name]) = some name := by
    rw [childName?, if_pos (isBelow_iff.mpr ⟨[name], rfl⟩), List.drop_left]
  have listed : name ∈ t.nodes.filterMap fun e => childName? l e.1 :=
    List.mem_filterMap.mpr ⟨_, mem_of_lookup found, child⟩
  unfold children
  generalize t.nodes.filterMap (fun e => childName? l e.1) = names at listed ⊢
  induction names with
  | nil => cases listed
  | cons k rest ih =>
    exact mem_insertName_iff.mpr ((List.mem_cons.mp listed).imp_right ih)

/-- Nothing lies under a name that is not listed. -/
theorem find?_of_not_mem_children (closed : t.Closed) (notListed : name ∉ t.children l)
    (rest : Location) : t.find? (l ++ name :: rest) = none := by
  have absent : t.find? (l ++ [name]) = none :=
    Option.not_isSome_iff_eq_none.mp (mem_children_iff.not.mp notListed)
  by_cases last : rest = []
  · rw [last, absent]
  · have gone := closed.find?_below (l := l ++ [name]) (by simp [absent]) last
    rwa [List.append_assoc] at gone

/-- What lies in a directory has a name. -/
theorem Proper.isName_of_mem_children (proper : t.Proper) (listed : name ∈ t.children l) :
    IsName name := proper.named _ _ (mem_children_iff.mp listed)

/-- What lies below a place lies there under names. -/
theorem Proper.isName_of_found {rest : Location} (proper : t.Proper)
    (found : (t.find? (l ++ rest)).isSome) (mem : name ∈ rest) : IsName name := by
  obtain ⟨front, back, rfl⟩ := List.append_of_mem mem
  refine proper.named (l ++ front) name ?_
  by_cases last : back = []
  · simpa [last] using found
  · rw [proper.closed.dir_above last (by simpa using found)]
    rfl

theorem isSome_view (t : Tree) (l rest : Location) :
    (t.view l rest).isSome = (t.find? (l ++ rest)).isSome := by
  rw [view, Option.isSome_map]

theorem view_eq_dir_iff {rest : Location} :
    t.view l rest = some none ↔ t.find? (l ++ rest) = some .dir := by
  rw [view]
  rcases t.find? (l ++ rest) with _ | _ | _ <;> simp [Node.content?]

theorem view_of_not_mem_children (closed : t.Closed) (notListed : name ∉ t.children l)
    (rest : Location) : t.view l (name :: rest) = none := by
  rw [view, find?_of_not_mem_children closed notListed, Option.map_none]

/-- A file in a directory lies at or below an entry of it. -/
theorem exists_child_of_view {place : Location} {content : List UInt8} (closed : t.Closed)
    (dir : t.find? l = some .dir) (found : t.view l place = some (some content)) :
    ∃ name ∈ t.children l, ∃ rest, place = name :: rest := by
  cases place with
  | nil => simp [view, dir, Node.content?] at found
  | cons name rest =>
    refine ⟨name, ?_, rest, rfl⟩
    by_contra notListed
    rw [view_of_not_mem_children closed notListed] at found
    cases found

theorem nodup_children (t : Tree) (l : Location) : (t.children l).Nodup := by
  have sorted : (t.children l).Pairwise (· < ·) := by
    unfold children
    induction t.nodes.filterMap fun e => childName? l e.1 with
    | nil => exact .nil
    | cons name rest ih => exact pairwise_insertName ih
  exact sorted.imp fun {a b} (before : a < b) (same : a = b) => String.lt_irrefl b (same ▸ before)

end File.Tree

namespace IsName

variable {name : String} (isName : IsName name)
include isName

theorem endsWithSlash_join (base : String) : World.endsWithSlash (join base name) = false := by
  obtain ⟨_, parts⟩ := pieces_join base isName.noSlash
  exact World.endsWithSlash_of_pieces parts isName.toList_ne_nil

theorem names_join (base : String) : World.names (join base name) = World.names base ++ [name] := by
  rw [World.names_join isName.relative, isName.names]

end IsName

/-- The system takes the name for a file. -/
structure Usual (name : String) : Prop where
  short : name.utf8ByteSize ≤ World.longestName
  noNul : '\x00' ∉ name.toList

namespace World

variable {w w' : World} {l m : Location} {path dir name : String} {names : List String}

/-! ## Paths to what is there -/

theorem found_of_step (closed : w.files.Closed) (h : w.step l name = .ok m) :
    (w.files.find? m).isSome := by
  have dir := isDirAt_iff.mp (step_eq_ok h).1
  by_cases here : name = "."
  · simp [(step_eq_ok h).2, enter, here, dir]
  by_cases up : name = ".."
  · have place : m = l.dropLast := by simp [(step_eq_ok h).2, enter, up]
    obtain rfl | ⟨above, last, rfl⟩ := l.eq_nil_or_concat
    · simp [place]
    · rw [List.concat_eq_append] at place dir
      rw [place, List.dropLast_concat, closed above last (by simp [dir])]
      rfl
  · obtain ⟨-, -, rfl, found⟩ := step_name_eq_ok ⟨here, up⟩ h
    exact found

theorem found_of_walk (closed : w.files.Closed) (some : names ≠ [])
    (h : w.walk l names = .ok m) : (w.files.find? m).isSome := by
  induction names generalizing l with
  | nil => exact absurd rfl some
  | cons name rest ih =>
    rw [walk] at h
    cases first : w.step l name with
    | error e =>
      rw [first] at h
      cases h
    | ok k =>
      rw [first] at h
      by_cases last : rest = []
      · subst last
        cases h
        exact found_of_step closed first
      · exact ih last h

theorem names_ne_nil (filled : path ≠ "") (relative : isAbsolute path = false) :
    World.names path ≠ [] := by
  obtain ⟨c, cs, whole⟩ := List.exists_cons_of_ne_nil fun none =>
    filled (String.toList_eq_nil_iff.mp none)
  have notSlash : c ≠ '/' := by
    rintro rfl
    simp [isAbsolute, whole] at relative
  obtain ⟨piece, isPiece, inside⟩ :=
    (Text.mem_pieces_iff notSlash).mpr (whole ▸ .head _ : c ∈ path.toList)
  have kept : piece ∈ (Text.pieces '/' path.toList).filter fun p => !p.isEmpty :=
    List.mem_filter.mpr ⟨isPiece, by simpa using List.ne_nil_of_mem inside⟩
  exact List.ne_nil_of_mem (List.mem_map.mpr ⟨piece, kept, rfl⟩)

/-- What is located is there. -/
theorem found_of_locate (closed : w.files.Closed) (h : w.locate path = .ok l) :
    (w.files.find? l).isSome := by
  unfold locate at h
  cases begins : w.origin path with
  | error e => simp [begins, bind, Except.bind] at h
  | ok begin =>
    obtain ⟨-, filled, rfl⟩ := origin_eq_ok_iff.mp begins
    cases walked : w.walk (start w.here path) (World.names path) with
    | error e => simp [begins, walked, bind, Except.bind] at h
    | ok m =>
      simp only [begins, walked, bind, Except.bind] at h
      have found : (w.files.find? m).isSome := by
        by_cases none : World.names path = []
        · have absolute : isAbsolute path = true := by
            by_contra relative
            exact names_ne_nil filled (Bool.not_eq_true _ ▸ relative) none
          rw [none] at walked
          cases walked
          simp [start, absolute]
        · exact found_of_walk closed none walked
      split at h <;> cases h
      exact found

theorem doesExist_iff : w.doesExist path = true ↔ w.locate path = .ok (w.placeOf path) := by
  rw [doesExist]
  cases located : w.locate path with
  | error e => simp [Except.toOption]
  | ok l => simp [Except.toOption, locate_eq_ok located]

/-- The path leads to a directory. -/
structure Opens (w : World) (path : String) : Prop where
  located : w.locate path = .ok (w.placeOf path)
  dir : w.files.find? (w.placeOf path) = some .dir

theorem isDir_iff (closed : w.files.Closed) : w.isDir path = true ↔ w.Opens path := by
  rw [isDir, nodeAt]
  cases located : w.locate path with
  | error e =>
    refine ⟨fun h => by simp [Except.map, Except.toOption] at h, fun h => ?_⟩
    cases located.symm.trans h.located
  | ok l =>
    obtain ⟨n, found⟩ := Option.isSome_iff_exists.mp (found_of_locate closed located)
    obtain rfl := locate_eq_ok located
    have same : w.Opens path ↔ n = .dir :=
      ⟨fun h => Option.some.inj (found.symm.trans h.dir), fun h => ⟨located, h ▸ found⟩⟩
    simp [Except.map, Except.toOption, found, same]

theorem entriesAt_eq_ok (h : w.entriesAt path = .ok names) :
    w.Opens path ∧ names = w.files.children (w.placeOf path) := by
  unfold entriesAt at h
  cases located : w.locate path with
  | error e => simp [located, bind, Except.bind] at h
  | ok l =>
    obtain rfl := locate_eq_ok located
    simp only [located, bind, Except.bind] at h
    split at h
    · rename_i dir
      cases h
      exact ⟨⟨located, isDirAt_iff.mp dir⟩, rfl⟩
    · cases h

/-- A path leads to a directory if its names do, one after the other. -/
theorem opens_iff_walk : w.Opens path ↔ w.origin path = .ok (start w.here path) ∧
    w.walk (start w.here path) (World.names path) = .ok (w.placeOf path) ∧
    w.files.find? (w.placeOf path) = some .dir := by
  constructor
  · rintro ⟨located, dir⟩
    unfold locate at located
    cases begins : w.origin path with
    | error e => simp [begins, bind, Except.bind] at located
    | ok begin =>
      obtain rfl : begin = start w.here path := (origin_eq_ok_iff.mp begins).2.2
      cases walked : w.walk (start w.here path) (World.names path) with
      | error e => simp [begins, walked, bind, Except.bind] at located
      | ok l =>
        simp only [begins, walked, bind, Except.bind] at located
        split at located <;> cases located
        exact ⟨rfl, rfl, dir⟩
  · rintro ⟨begins, walked, dir⟩
    refine ⟨?_, dir⟩
    simp [locate, begins, walked, bind, Except.bind, isDirAt_iff.mpr dir]

namespace Opens

variable (h : w.Opens dir)
include h

theorem entriesAt : w.entriesAt dir = .ok (w.files.children (w.placeOf dir)) := by
  simp [World.entriesAt, h.located, bind, Except.bind, isDirAt_iff.mpr h.dir]

theorem isDir : w.isDir dir = true := by
  simp [World.isDir, World.nodeAt, h.located, h.dir, Except.map, Except.toOption]

theorem keeps (kept : w.Keeps w') : w'.Opens dir := by
  have dir' := kept.dirs _ h.dir
  rw [← kept.placeOf] at dir'
  refine ⟨?_, dir'⟩
  rw [kept.placeOf]
  exact kept.locate h.located (by rw [h.dir, ← kept.placeOf, dir'])

/-- A path that takes no step up leads to a directory for as long as there are directories above
it. -/
theorem of_above (closed : w.files.Closed) (noUp : ".." ∉ World.names dir) (here : w'.here = w.here)
    (above : ∀ front rest, w.placeOf dir = front ++ rest → w.files.find? front = some .dir →
      w'.files.find? front = some .dir) : w'.Opens dir := by
  obtain ⟨begins, walked, found⟩ := opens_iff_walk.mp h
  have same : w'.placeOf dir = w.placeOf dir := placeOf_congr here dir
  have along (front rest : List String) (split : World.names dir = front ++ rest) :
      w'.files.find? (front.foldl enter (start w.here dir)) =
        w.files.find? (front.foldl enter (start w.here dir)) := by
    rw [split] at noUp
    have place : w.placeOf dir = front.foldl enter (start w.here dir) ++ rest.filter (· ≠ ".") := by
      rw [walk_eq_ok walked, split, List.foldl_append,
        foldl_enter_of_noUp fun up => noUp (List.mem_append_right _ up)]
    have there : w.files.find? (front.foldl enter (start w.here dir)) = some .dir := by
      by_cases last : rest.filter (· ≠ ".") = []
      · rwa [place, last, List.append_nil] at found
      · exact closed.dir_above last (by rw [← place, found]; rfl)
    rw [above _ _ place there, there]
  refine opens_iff_walk.mpr ⟨?_, ?_, ?_⟩
  · rw [origin, here]
    exact begins
  · rw [here, same]
    exact (walk_congr along).trans walked
  · exact same ▸ above (w.placeOf dir) [] (List.append_nil _).symm found

variable (isName : IsName name) (usual : Usual name)
include isName usual

/-- One step further down. -/
theorem leads : w.Leads (join dir name) (w.placeOf dir) name := by
  obtain ⟨begins, walked, found⟩ := opens_iff_walk.mp h
  obtain ⟨noNul, filled, -⟩ := origin_eq_ok_iff.mp begins
  refine ⟨⟨start w.here dir, World.names dir, origin_eq_ok_iff.mpr ⟨?_, ?_, ?_⟩,
    isName.names_join dir, walked⟩, isName.noDots, isDirAt_iff.mpr found, usual.short⟩
  · rw [File.Path.join, isName.relative, Bool.false_or]
    split
    · exact usual.noNul
    · split <;> simp [noNul, usual.noNul]
  · intro none
    have named := isName.names_join dir
    rw [none] at named
    simp [World.names, Text.pieces] at named
  · rw [start, start, isAbsolute_join isName.relative]

theorem nodeAt {n : Node} (found : w.files.find? (w.placeOf dir ++ [name]) = some n) :
    w.nodeAt (join dir name) = .ok n :=
  (h.leads isName usual).nodeAt (isName.endsWithSlash_join dir) found

theorem join (found : w.files.find? (w.placeOf dir ++ [name]) = some .dir) :
    w.Opens (File.Path.join dir name) := by
  have leads := h.leads isName usual
  refine ⟨?_, leads.placeOf ▸ found⟩
  rw [leads.placeOf]
  exact leads.locate_of_found (isName.endsWithSlash_join dir) (by simp [found])

end Opens

/-! ## What succeeds at the end of a path -/

theorem Leads.makeDir (leads : w.Leads path l name) (free : w.files.find? (l ++ [name]) = none) :
    w.makeDir path = .ok { w with files := w.files.insert (l ++ [name]) .dir } := by
  simp [World.makeDir, leads.locateNew, free, bind, Except.bind]

/-- A file is written where there is no directory. -/
theorem Leads.write (leads : w.Leads path l name) (noSlash : endsWithSlash path = false)
    (noDir : w.files.find? (l ++ [name]) ≠ some .dir) (content : List UInt8) :
    ∃ executable, w.write path content =
      .ok { w with files := w.files.insert (l ++ [name]) (.file content executable) } := by
  unfold World.write
  cases found : w.files.find? (l ++ [name]) with
  | none => exact ⟨false, by simp [leads.locateNew, found, noSlash, bind, Except.bind]⟩
  | some n =>
    cases n with
    | dir => exact absurd found noDir
    | file old executable =>
      exact ⟨executable, by simp [leads.locateNew, found, noSlash, bind, Except.bind]⟩

/-- Where a path could be written once it can be written again wherever it is still a file. -/
theorem write_of_isFile {w₁ : World} {content : List UInt8} (wrote : w.write path content = .ok w₁)
    (file : w'.isFile path = true) (content' : List UInt8) :
    ∃ w'', w'.write path content' = .ok w'' := by
  obtain ⟨-, name, -, ⟨⟨-, before, -, whole, -⟩, proper, -, -⟩, -, -⟩ := write_eq_ok wrote
  unfold isFile at file
  split at file
  · rename_i there
    obtain ⟨m, located, node⟩ := nodeAt_eq_ok there
    obtain ⟨l, leads, rfl, found⟩ := leads_of_locate located whole proper
    have noDir : w'.files.find? (l ++ [name]) ≠ some .dir := by
      intro dir
      rw [dir] at node
      cases node
    obtain ⟨executable, written⟩ := leads.write (endsWithSlash_of_write wrote) noDir content'
    exact ⟨_, written⟩
  · cases file

/-- A file is copied to a free place. -/
theorem Leads.copy {source : String} {content : List UInt8} {executable : Bool}
    (leads : w.Leads path l name) (noSlash : endsWithSlash path = false)
    (free : w.files.find? (l ++ [name]) = none)
    (file : w.nodeAt source = .ok (.file content executable)) : ∃ w', w.copy source path = .ok w' := by
  obtain ⟨x, written⟩ := leads.write noSlash (by simp [free]) []
  have kept : w.Keeps { w with files := w.files.insert (l ++ [name]) (.file [] x) } :=
    keeps_insert (by simp [free])
  have apart : w.placeOf source ≠ l ++ [name] := by
    intro same
    have found := find?_of_nodeAt file
    rw [same, free] at found
    cases found
  have located : World.locate { w with files := w.files.insert (l ++ [name]) (.file [] x) } path =
      .ok (l ++ [name]) :=
    (kept.leads leads).locate_of_found noSlash (by simp [find?_insert'])
  have again := kept.nodeAt file ((find?_insert' (by simp) _).trans (if_neg apart))
  have read : World.bytesAt { w with files := w.files.insert (l ++ [name]) (.file [] x) } source =
      .ok content := by
    simp [World.bytesAt, again, bind, Except.bind]
  unfold World.copy
  simp only [file, written, located, read, bind, Except.bind]
  exact ⟨_, rfl⟩

/-! ## All that is in a directory -/

/-- What is in the directory has usual names, and directories in it are nested less deep than
`depth`. -/
structure Walkable (w : World) (dir : String) (depth : Nat) : Prop where
  opens : w.Opens dir
  usual : ∀ rest name, (w.files.find? (w.placeOf dir ++ rest ++ [name])).isSome → Usual name
  shallow : ∀ rest, w.files.find? (w.placeOf dir ++ rest) = some .dir → rest.length < depth

namespace Walkable

variable {depth : Nat}

theorem usual_child (h : w.Walkable dir depth)
    (found : (w.files.find? (w.placeOf dir ++ [name])).isSome) : Usual name :=
  h.usual [] name (by simpa using found)

theorem pos (h : w.Walkable dir depth) : 0 < depth :=
  h.shallow [] (by simpa using h.opens.dir)

theorem join (h : w.Walkable dir (depth + 1)) (isName : IsName name)
    (found : w.files.find? (w.placeOf dir ++ [name]) = some .dir) :
    w.Walkable (File.Path.join dir name) depth := by
  have usual : Usual name := h.usual_child (by simp [found])
  have place : w.placeOf (File.Path.join dir name) = w.placeOf dir ++ [name] :=
    (h.opens.leads isName usual).placeOf
  refine ⟨h.opens.join isName usual found, fun rest last there => ?_, fun rest there => ?_⟩
  · rw [place] at there
    exact h.usual (name :: rest) last (by simpa using there)
  · rw [place] at there
    have := h.shallow (name :: rest) (by simpa using there)
    simpa using this

/-- An entry that can be gone through: it lies in a directory that is open and has a usual name,
and directories at and below it are nested less deep than `depth`. -/
structure Entry (w : World) (dir name : String) (depth : Nat) : Prop where
  opens : w.Opens dir
  usual : Usual name
  there : (w.files.find? (w.placeOf dir ++ [name])).isSome
  below : w.files.find? (w.placeOf dir ++ [name]) = some .dir →
    w.Walkable (File.Path.join dir name) depth

theorem entry (h : w.Walkable dir (depth + 1)) (isName : IsName name)
    (there : (w.files.find? (w.placeOf dir ++ [name])).isSome) : Entry w dir name depth :=
  ⟨h.opens, h.usual_child there, there, h.join isName⟩

/-- All directories can be gone through if every name is usual and no place is deep. -/
theorem of_nodes (opens : w.Opens dir) (usual : ∀ e ∈ w.files.nodes, ∀ name ∈ e.1, Usual name)
    (shallow : ∀ e ∈ w.files.nodes, e.1.length < depth) (pos : 0 < depth) :
    w.Walkable dir depth := by
  have listed {l : Location} {n : Node} (some : l ≠ []) (found : w.files.find? l = .some n) :
      (l, n) ∈ w.files.nodes := Tree.mem_of_lookup (Tree.find?_of_ne some ▸ found)
  refine ⟨opens, fun rest name there => ?_, fun rest found => ?_⟩
  · obtain ⟨n, found⟩ := Option.isSome_iff_exists.mp there
    exact usual _ (listed (by simp) found) name (by simp)
  · by_cases root : w.placeOf dir ++ rest = []
    · simpa [(List.append_eq_nil_iff.mp root).2] using pos
    · have := shallow _ (listed root found)
      simp only [List.length_append] at this
      omega

/-- What is there, and which of it are directories, matters alone. -/
theorem congr (h : w.Walkable dir depth) (kept : w.Keeps w')
    (same : ∀ rest, (w'.files.find? (w.placeOf dir ++ rest)).isSome =
      (w.files.find? (w.placeOf dir ++ rest)).isSome)
    (dirs : ∀ rest, w'.files.find? (w.placeOf dir ++ rest) = some .dir →
      w.files.find? (w.placeOf dir ++ rest) = some .dir) : w'.Walkable dir depth := by
  refine ⟨h.opens.keeps kept, fun rest name there => ?_, fun rest there => ?_⟩
  · rw [kept.placeOf, List.append_assoc, same] at there
    exact h.usual rest name (by simpa using there)
  · rw [kept.placeOf] at there
    exact h.shallow rest (dirs rest there)

/-- Other entries do not matter. -/
theorem Entry.congr (h : Entry w dir name depth) (isName : IsName name) (kept : w.Keeps w')
    (same : ∀ rest, w'.files.find? (w.placeOf dir ++ [name] ++ rest) =
      w.files.find? (w.placeOf dir ++ [name] ++ rest)) : Entry w' dir name depth := by
  have self : w'.files.find? (w.placeOf dir ++ [name]) = w.files.find? (w.placeOf dir ++ [name]) := by
    simpa using same []
  have place : w.placeOf (File.Path.join dir name) = w.placeOf dir ++ [name] :=
    isName.placeFrom_join w.here dir
  refine ⟨h.opens.keeps kept, h.usual, ?_, fun dir' => ?_⟩
  · rw [kept.placeOf, self]
    exact h.there
  · rw [kept.placeOf, self] at dir'
    refine (h.below dir').congr kept (fun rest => ?_) fun rest found => ?_
    · rw [place, same]
    · rwa [place, ← same, ← place]

/-- A file can be read and written. -/
theorem Entry.usable (h : Entry w dir name depth) (isName : IsName name)
    (notDir : ¬ w.isDir (File.Path.join dir name) = true) :
    ∃ content executable, w.nodeAt (File.Path.join dir name) = .ok (.file content executable) ∧
      ∀ output, ∃ w', w.write (File.Path.join dir name) output = .ok w' := by
  obtain ⟨n, found⟩ := Option.isSome_iff_exists.mp h.there
  cases n with
  | dir => exact absurd (h.opens.join isName h.usual found).isDir notDir
  | file content executable =>
    refine ⟨content, executable, h.opens.nodeAt isName h.usual found, fun output => ?_⟩
    obtain ⟨x, written⟩ := (h.opens.leads isName h.usual).write (isName.endsWithSlash_join dir)
      (by simp [found]) output
    exact ⟨_, written⟩

end Walkable

end World

end BoardDesign

/-! ## Paths of what is in a directory -/

namespace BoardDesign.File.Path

open World

variable {name base : String} {l m : Location}

/-- The path of a place below another one, from the path of that. -/
def pathBelow (relative : String) (rest : Location) : String := rest.foldl join relative

theorem toList_pathBelow (filled : base ≠ "") (noSlash : endsWithSlash base = false)
    (named : ∀ name ∈ l, IsName name) :
    (pathBelow base l).toList = base.toList ++ l.flatMap fun name => '/' :: name.toList := by
  induction l generalizing base with
  | nil => simp [pathBelow]
  | cons next rest ih =>
    have isName := named next (.head _)
    have joined : join base next = base ++ "/" ++ next := by
      have empty : base.isEmpty = false := by simpa [Bool.eq_false_iff, String.isEmpty_iff] using filled
      have ends : base.toList.getLast? ≠ some '/' := by simpa [endsWithSlash] using noSlash
      rw [join, isName.relative, empty, Bool.or_self, if_neg Bool.false_ne_true, if_neg ends]
    have filled' : join base next ≠ "" := by
      rw [joined, ← String.toList_inj.ne]
      simp
    have noSlash' : endsWithSlash (join base next) = false := by
      obtain ⟨_, pieces⟩ := pieces_join base isName.noSlash
      exact endsWithSlash_of_pieces pieces isName.toList_ne_nil
    change (pathBelow (join base next) rest).toList = _
    rw [ih filled' noSlash' fun name mem => named name (.tail _ mem), joined]
    simp

theorem names_pathBelow (named : ∀ name ∈ l, IsName name) (base : String) :
    names (pathBelow base l) = names base ++ l := by
  induction l generalizing base with
  | nil => simp [pathBelow]
  | cons next rest ih =>
    have isName := named next (.head _)
    change names (pathBelow (join base next) rest) = _
    rw [ih (fun name mem => named name (.tail _ mem)), names_join isName.relative, isName.names]
    simp

/-- A path that begins with a name does not begin with a slash or a dot. -/
theorem parts_of_name {rest : List Char} (isName : IsName name) {path : String}
    (whole : path.toList = name.toList ++ rest) :
    (parts path).start = [] := by
  obtain ⟨c, cs, first⟩ := List.exists_cons_of_ne_nil isName.toList_ne_nil
  have noSlash := isName.noSlash
  rw [first] at noSlash
  rw [parts, whole, first]
  split
  · rename_i same
    exact absurd ((List.cons.inj same).1 ▸ .head _) noSlash
  · rename_i same
    obtain ⟨rfl, gone⟩ := List.cons.inj same
    have dot : name = "." := by
      rw [← String.toList_inj, first, (List.append_eq_nil_iff.mp gone).1]
      rfl
    exact absurd dot isName.noDots.1
  · rename_i same
    obtain ⟨rfl, after⟩ := List.cons.inj same
    cases cs with
    | nil =>
      have dot : name = "." := by
        rw [← String.toList_inj, first]
        rfl
      exact absurd dot isName.noDots.1
    | cons d ds => exact absurd ((List.cons.inj after).1 ▸ .tail _ (.head _)) noSlash
  · rfl

/-- With nothing before them the names are the components. -/
theorem components_pathBelow (named : ∀ name ∈ l, IsName name) (some : l ≠ []) :
    components (pathBelow "" l) = l.map .name := by
  obtain ⟨name, rest, rfl⟩ := List.exists_cons_of_ne_nil some
  have isName := named name (.head _)
  have others : ∀ name ∈ rest, IsName name := fun name mem => named name (.tail _ mem)
  have begins : pathBelow "" (name :: rest) = pathBelow name rest := by
    change pathBelow (join "" name) rest = _
    rw [join, isName.relative]
    rfl
  have noSlash : endsWithSlash name = false := by
    rw [endsWithSlash, Bool.eq_false_iff, ne_eq, beq_iff_eq]
    exact fun last => isName.noSlash (List.mem_of_getLast? last)
  have start : (parts (pathBelow "" (name :: rest))).start = [] :=
    parts_of_name isName (begins ▸ toList_pathBelow isName.filled noSlash others)
  have body : pieceNames (parts (pathBelow "" (name :: rest))).body = name :: rest := by
    rw [← steps_eq_body, steps, names_pathBelow named]
    exact List.filter_eq_self.mpr fun n mem => by simpa using (named n mem).noDots.1
  have pieces : (parts (pathBelow "" (name :: rest))).body.filter (fun p => !isNothing p) =
      (name :: rest).map String.toList := by
    conv_rhs => rw [← body]
    simp [pieceNames]
  rw [components, start]
  dsimp only
  rw [List.nil_append, pieces, List.map_map]
  refine List.map_congr_left fun n mem => ?_
  have up : n.toList ≠ ['.', '.'] := fun same =>
    (named n mem).noDots.2 (String.toList_inj.mp same)
  simp [component, up]

theorem before_map_name_iff (l m : Location) :
    before (l.map .name) (m.map .name) = true ↔ l < m := by
  induction l generalizing m with
  | nil => cases m <;> simp [before]
  | cons a as ih =>
    cases m with
    | nil => simp [before]
    | cons b bs =>
      have first : (Component.name a).before (.name b) = true ↔ a < b := by
        change (decide (3 < 3) || (3 == 3 && decide (a < b))) = true ↔ a < b
        simp
      rw [List.map_cons, List.map_cons, before, Bool.or_eq_true, Bool.and_eq_true, ih, first,
        List.cons_lt_cons_iff]
      simp

/-- Places that are named are sorted as their paths are. -/
theorem sorted_pathsBelow {places : List Location}
    (named : ∀ l ∈ places, l ≠ [] ∧ ∀ name ∈ l, IsName name) :
    sorted (places.map (pathBelow "")) =
      (places.mergeSort Tree.atMost).map (pathBelow "") := by
  refine (List.map_mergeSort fun l mem m mem' => ?_).symm
  rw [components_pathBelow (named l mem).2 (named l mem).1,
    components_pathBelow (named m mem').2 (named m mem').1, Tree.atMost, Bool.eq_iff_iff]
  simp [← before_map_name_iff]

end BoardDesign.File.Path
