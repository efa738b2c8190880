import BoardDesign.Proofs.File.Descent

/-!
# Files in a directory that may be missing

What is read at a path depends on the way to it. If the way steps up only through directories that
are there, it is enough to know what lies at the place of the path.

* `World.Steady`: the path of a directory is such a way; it stays one while directories are kept
  (`Steady.keeps`), and a path without steps up always is one (`Steady.of_noUp`);
* `Taken`: the paths that the system takes for the path of a file;
* `Steady.bytesAt_eq_ok_iff`: what is read is what lies at the place;
* `fileAt?_makeDirs`: making directories leaves every file.
-/

namespace BoardDesign.World

open File File.Path

variable {w w' : World} {l m : Location} {dir name path : String} {names : List String}
  {content : List UInt8}

/-! ## Ways -/

/-- The names that a walk takes are no longer than names may be. -/
theorem short_of_walk (walked : w.walk l names = .ok m) :
    ∀ name ∈ names, name.utf8ByteSize ≤ longestName := by
  induction names generalizing l with
  | nil =>
    intro name mem
    cases mem
  | cons next rest ih =>
    rw [walk] at walked
    cases first : w.step l next with
    | error e => simp [first, Except.bind] at walked
    | ok k =>
      rw [first] at walked
      refine List.forall_mem_cons.mpr ⟨?_, ih walked⟩
      by_cases dots : next = "." ∨ next = ".."
      · obtain rfl | rfl := dots <;> decide
      · exact (step_name_eq_ok (not_or.mp dots) first).2.1

/-- A way down to a directory begins at a directory. -/
theorem dir_of_way (closed : w.files.Closed) (noUp : ".." ∉ names)
    (found : w.files.find? (names.foldl enter l) = some .dir) : w.files.find? l = some .dir := by
  rw [foldl_enter_of_noUp noUp] at found
  by_cases last : names.filter (· ≠ ".") = []
  · rwa [last, List.append_nil] at found
  · exact closed.dir_above last (by rw [found]; rfl)

/-- A way down to a directory can be walked. -/
theorem walk_of_dir (closed : w.files.Closed) (noUp : ".." ∉ names)
    (short : ∀ name ∈ names, name.utf8ByteSize ≤ longestName)
    (found : w.files.find? (names.foldl enter l) = some .dir) :
    w.walk l names = .ok (names.foldl enter l) := by
  induction names generalizing l with
  | nil => rfl
  | cons next rest ih =>
    have here : w.isDirAt l = true := isDirAt_iff.mpr (dir_of_way closed noUp found)
    obtain ⟨notUp, noUp⟩ := not_or.mp (List.mem_cons.not.mp noUp)
    obtain ⟨fits, short⟩ := List.forall_mem_cons.mp short
    have there : w.files.find? (enter l next) = some .dir := dir_of_way closed noUp found
    have first : w.step l next = .ok (enter l next) := by
      by_cases dot : next = "."
      · simp [step, enter, here, dot]
      · have place : enter l next = l ++ [next] := by simp [enter, dot, Ne.symm notUp]
        rw [place] at there ⊢
        simp [step, here, dot, Ne.symm notUp, Nat.not_lt.mpr fits, there]
    rw [walk, first]
    exact ih noUp short found

/-- The path steps up only through directories that are there. -/
def Steady (w : World) (path : String) : Prop :=
  ∃ before after m, World.names path = before ++ after ∧ ".." ∉ after ∧
    w.walk (start w.here path) before = .ok m ∧ w.files.find? m = some .dir

/-- The system takes the path for that of a file. -/
structure Taken (path : String) : Prop where
  noNul : '\x00' ∉ path.toList
  filled : path ≠ ""
  short : ∀ name ∈ World.names path, name.utf8ByteSize ≤ longestName

theorem taken_of_locate (located : w.locate path = .ok l) : Taken path := by
  unfold locate at located
  cases begins : w.origin path with
  | error e => simp [begins, bind, Except.bind] at located
  | ok begin =>
    obtain ⟨noNul, filled, -⟩ := origin_eq_ok_iff.mp begins
    cases walked : w.walk begin (World.names path) with
    | error e => simp [begins, walked, bind, Except.bind] at located
    | ok m => exact ⟨noNul, filled, short_of_walk walked⟩

namespace Steady

theorem of_noUp (noUp : ".." ∉ World.names path)
    (begins : w.files.find? (start w.here path) = some .dir) : w.Steady path :=
  ⟨[], World.names path, start w.here path, rfl, noUp, rfl, begins⟩

theorem keeps (h : w.Steady path) (kept : w.Keeps w') : w'.Steady path := by
  obtain ⟨before, after, m, whole, noUp, walked, found⟩ := h
  have found' := kept.dirs m found
  refine ⟨before, after, m, whole, noUp, ?_, found'⟩
  rw [kept.here]
  exact kept.walk walked fun _ => by rw [found']; rfl

variable (h : w.Steady dir) (closed : w.files.Closed) (isName : IsName name)
include h closed isName

/-- What lies at the place of a path is led to. -/
theorem leads (taken : Taken (join dir name)) (found : w.files.find? (w.placeOf dir) = some .dir) :
    w.Leads (join dir name) (w.placeOf dir) name := by
  obtain ⟨before, after, m, whole, noUp, walked, found'⟩ := h
  have named := isName.names_join dir
  have short : ∀ name ∈ after, name.utf8ByteSize ≤ longestName := by
    intro name mem
    refine taken.short name ?_
    rw [named, whole]
    exact List.mem_append_left _ (List.mem_append_right _ mem)
  have place : w.placeOf dir = after.foldl enter m := by
    rw [walk_eq_ok walked, ← List.foldl_append, ← whole]
    rfl
  refine ⟨⟨start w.here dir, World.names dir, ?_, named, ?_⟩, isName.noDots, isDirAt_iff.mpr found,
    taken.short name (named ▸ List.mem_append_right _ (List.mem_singleton_self name))⟩
  · refine origin_eq_ok_iff.mpr ⟨taken.noNul, taken.filled, ?_⟩
    rw [start, start, isAbsolute_join isName.relative]
  · rw [whole, walk_append, walked, place]
    rw [place] at found
    exact walk_of_dir closed noUp short found

theorem bytesAt_eq_ok_iff : w.bytesAt (join dir name) = .ok content ↔
    Taken (join dir name) ∧ w.fileAt? (join dir name) = some content := by
  constructor
  · intro read
    obtain ⟨executable, node⟩ := bytesAt_eq_ok read
    obtain ⟨l, located, -⟩ := nodeAt_eq_ok node
    exact ⟨taken_of_locate located, fileAt?_of_bytesAt read⟩
  · rintro ⟨taken, there⟩
    have place : w.placeOf (join dir name) = w.placeOf dir ++ [name] := by
      rw [placeOf_eq, placeOf_eq]
      exact isName.placeFrom_join w.here dir
    obtain ⟨n, found, isFile⟩ := Option.bind_eq_some_iff.mp there
    rw [place] at found
    have dirFound := closed _ _ (by rw [found]; rfl)
    cases n with
    | dir => cases isFile
    | file content' executable =>
      cases isFile
      exact (h.leads closed isName taken dirFound).bytesAt (isName.endsWithSlash_join dir) found

end Steady

/-! ## Directories that are made -/

theorem Leads.isDir (leads : w.Leads path l name)
    (found : w.files.find? (l ++ [name]) = some .dir) : w.isDir path = true := by
  obtain ⟨⟨begin, before, begins, whole, walked⟩, proper, dir, short⟩ := leads
  have last : w.step l name = .ok (l ++ [name]) := by
    simp [step, dir, proper, Nat.not_lt.mpr short, found]
  have located : w.locate path = .ok (l ++ [name]) := by
    simp [World.locate, begins, whole, walk_append, walked, walk, last, bind, Except.bind,
      isDirAt_iff.mpr found]
  simp [World.isDir, World.nodeAt, located, found, Except.map, Except.toOption]

theorem isDir_of_makeDir (made : w.makeDir path = .ok w') : w'.isDir path = true := by
  obtain ⟨l, name, leads, free, rfl⟩ := makeDir_eq_ok made
  have kept : w.Keeps { w with files := w.files.insert (l ++ [name]) .dir } :=
    keeps_insert (by simp [free])
  exact (kept.leads leads).isDir ((find?_insert' (by simp) _).trans (if_pos rfl))

/-- A directory that has been made is there. -/
theorem isDir_of_makeDirs (filled : path ≠ "") (made : w.makeDirs path = (.ok (), w')) :
    w'.isDir path = true := by
  rw [makeDirs, makeDirsFrom, if_neg (by simpa using filled)] at made
  split at made
  · rename_i alone
    cases made
    exact isDir_of_makeDir alone
  · split at made
    · split at made
      · rename_i last
        cases made
        exact isDir_of_makeDir last
      · split at made <;> cases made
        assumption
    · cases made
    · cases made
  · split at made <;> cases made
    assumption

theorem Steady.dir_of_names_nil (h : w.Steady path) (none : World.names path = []) :
    w.files.find? (w.placeOf path) = some .dir := by
  obtain ⟨before, after, m, whole, -, walked, found⟩ := h
  rw [none] at whole
  obtain ⟨rfl, rfl⟩ := List.append_eq_nil_iff.mp whole.symm
  cases walked
  rw [placeOf, none]
  exact found

/-- A directory that has been made leads to what lies in it, also the one without a name. -/
theorem Steady.leads_of_made (h : (w.makeDirs dir).2.Steady dir)
    (closed : (w.makeDirs dir).2.files.Closed) (isName : IsName name) (usual : Usual name)
    (made : (w.makeDirs dir).1 = .ok ()) :
    (w.makeDirs dir).2.Leads (join dir name) ((w.makeDirs dir).2.placeOf dir) name := by
  by_cases filled : dir = ""
  · have none : World.names dir = [] := by
      rw [filled]
      rfl
    have alone : join dir name = name := by simp [File.Path.join, filled]
    have taken : Taken (join dir name) := by
      rw [alone]
      refine ⟨usual.noNul, isName.filled, ?_⟩
      rw [isName.names]
      exact List.forall_mem_singleton.mpr usual.short
    exact h.leads closed isName taken (h.dir_of_names_nil none)
  · have opens := (isDir_iff closed).mp (isDir_of_makeDirs filled (Prod.ext made rfl))
    exact opens.leads isName usual

/-! ## Changes of single files -/

theorem fileAt?_makeDir (made : w.makeDir path = .ok w') (other : String) :
    w'.fileAt? other = w.fileAt? other := by
  obtain ⟨l, name, -, free, rfl⟩ := makeDir_eq_ok made
  change ((w.files.insert _ _).find? (w.placeOf other)).bind _ = _
  rw [find?_insert' (by simp), fileAt?]
  split
  · rename_i here
    rw [here, free]
    rfl
  · rfl

/-- Making directories leaves every file. -/
theorem fileAt?_makeDirs (w : World) (path other : String) :
    (w.makeDirs path).2.fileAt? other = w.fileAt? other :=
  makeDirsFrom_maintains (fun _ _ _ same made => (fileAt?_makeDir made other).trans same) _ rfl

theorem closed_write (closed : w.files.Closed) (wrote : w.write path content = .ok w') :
    w'.files.Closed := by
  obtain ⟨l, name, executable, leads, noDir, rfl⟩ := write_eq_ok wrote
  exact closed.insert leads.dir_find? fun dir => absurd dir noDir

theorem fileAt?_of_removeFile (removed : w.removeFile path = .ok w') : w'.fileAt? path = none := by
  obtain ⟨l, located, noDir, rfl⟩ := removeFile_eq_ok removed
  have named : l ≠ [] := by
    rintro rfl
    exact noDir rfl
  change ((w.files.erase l).find? (w.placeOf path)).bind _ = none
  rw [← locate_eq_ok located, Tree.find?_erase named, if_pos rfl]
  rfl

theorem removeFile_eq_notFound_iff :
    w.removeFile path = .error .notFound ↔ w.locate path = .error .notFound := by
  unfold removeFile
  cases w.locate path with
  | error e => simp [bind, Except.bind]
  | ok l =>
    simp only [bind, Except.bind]
    split <;> simp

/-- A file can be removed, and nothing else can be. -/
theorem isFile_iff_removes (closed : w.files.Closed) :
    w.isFile path = true ↔ ∃ w', w.removeFile path = .ok w' := by
  unfold isFile nodeAt removeFile
  cases located : w.locate path with
  | error e => simp [Except.map, bind, Except.bind]
  | ok l =>
    obtain ⟨n, found⟩ := Option.isSome_iff_exists.mp (found_of_locate closed located)
    cases n <;> simp [Except.map, bind, Except.bind, isDirAt, found]

theorem keeps_write (wrote : w.write path content = .ok w') : w.Keeps w' := by
  obtain ⟨l, name, executable, leads, noDir, rfl⟩ := write_eq_ok wrote
  exact keeps_insert noDir

end BoardDesign.World
