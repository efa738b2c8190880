import BoardDesign.Proofs.File.Careful
import BoardDesign.Proofs.File.Contents

/-!
# Files at the places of paths

* `fileAt?`: the bytes of the file at the place that a path stands for, which are the bytes that
  are read there;
* `placeOf_canonical`: a path without dots and needless slashes stands for the same place;
* `fileAt?_write` and its like: what an operation that succeeds makes of the files;
* `bytesAt_of_write`: what has been written is read back.
-/

namespace BoardDesign.World

open File File.Path

variable {w w' : World} {here l m : Location} {path other dir base base' name : String}
  {content : List UInt8}

/-- The bytes of the file at the place that a path stands for. -/
def fileAt? (w : World) (path : String) : Option (List UInt8) :=
  (w.files.find? (w.placeOf path)).bind Node.content?

theorem find?_of_nodeAt {executable : Bool} (h : w.nodeAt path = .ok (.file content executable)) :
    w.files.find? (w.placeOf path) = some (.file content executable) := by
  obtain ⟨l, located, there⟩ := nodeAt_eq_ok h
  obtain rfl := locate_eq_ok located
  cases found : w.files.find? (w.placeOf path) with
  | none =>
    rw [found] at there
    cases there
  | some n =>
    rw [found] at there
    exact congrArg some there.symm

theorem bytesAt_eq_ok (h : w.bytesAt path = .ok content) :
    ∃ executable, w.nodeAt path = .ok (.file content executable) := by
  unfold bytesAt at h
  cases node : w.nodeAt path with
  | error e => simp [node, bind, Except.bind] at h
  | ok n =>
    cases n with
    | dir => simp [node, bind, Except.bind] at h
    | file content' executable =>
      simp only [node, bind, Except.bind, Except.ok.injEq] at h
      exact ⟨executable, by rw [h]⟩

theorem textAt_eq_ok {text : String} (h : w.textAt path = .ok text) :
    ∃ content, w.bytesAt path = .ok content ∧ Text.Utf8.text? content = some text := by
  unfold textAt at h
  cases read : w.bytesAt path with
  | error e => simp [read, bind, Except.bind] at h
  | ok content =>
    simp only [read, bind, Except.bind] at h
    split at h
    · rename_i text' decoded
      cases h
      exact ⟨content, rfl, decoded⟩
    · cases h

theorem textAt_of_bytesAt {text : String} (h : w.bytesAt path = .ok content)
    (decoded : Text.Utf8.text? content = some text) : w.textAt path = .ok text := by
  simp only [textAt, h, bind, Except.bind, decoded]

theorem fileAt?_of_bytesAt (h : w.bytesAt path = .ok content) : w.fileAt? path = some content := by
  obtain ⟨executable, node⟩ := bytesAt_eq_ok h
  rw [fileAt?, find?_of_nodeAt node]
  rfl

theorem fileAt?_of_textAt {text : String} (h : w.textAt path = .ok text) :
    (w.fileAt? path).bind Text.Utf8.text? = some text := by
  obtain ⟨content, read, decoded⟩ := textAt_eq_ok h
  rw [fileAt?_of_bytesAt read, Option.bind_some, decoded]

/-! ## What is read -/

/-- The text of the file at the place that a path stands for. -/
def fileText? (w : World) (path : String) : Option String :=
  (w.fileAt? path).bind Text.Utf8.text?

theorem toOption_bytesAt (w : World) (path : String) :
    (w.bytesAt path).toOption = (w.nodeAt path).toOption.bind Node.content? := by
  unfold bytesAt
  cases w.nodeAt path with
  | error e => rfl
  | ok n => cases n <;> rfl

section Keeps

variable (h : w.Keeps w')
include h

theorem Keeps.locate (located : w.locate path = .ok m)
    (same : w'.files.find? m = w.files.find? m) : w'.locate path = .ok m := by
  unfold World.locate at located ⊢
  rw [h.origin]
  cases begins : w.origin path with
  | error e => simp [begins, bind, Except.bind] at located
  | ok start =>
    cases walked : w.walk start (names path) with
    | error e => simp [begins, walked, bind, Except.bind] at located
    | ok k =>
      simp only [begins, walked, bind, Except.bind] at located ⊢
      have dir : w'.isDirAt k = w.isDirAt k := by
        split at located <;> cases located
        rw [isDirAt, isDirAt, same]
      have there : (w.files.find? k).isSome → (w'.files.find? k).isSome := by
        split at located <;> cases located
        rw [same]
        exact id
      rw [h.walk walked there]
      simpa only [dir] using located

theorem Keeps.nodeAt {n : Node} (there : w.nodeAt path = .ok n)
    (same : w'.files.find? (w.placeOf path) = w.files.find? (w.placeOf path)) :
    w'.nodeAt path = .ok n := by
  obtain ⟨l, located, rfl⟩ := nodeAt_eq_ok there
  rw [← locate_eq_ok located] at same
  rw [World.nodeAt, h.locate located same, Except.map, same]

theorem Keeps.bytesAt (there : w.bytesAt path = .ok content)
    (same : w'.files.find? (w.placeOf path) = w.files.find? (w.placeOf path)) :
    w'.bytesAt path = .ok content := by
  obtain ⟨executable, node⟩ := bytesAt_eq_ok there
  simp only [World.bytesAt, h.nodeAt node same, bind, Except.bind]

/-- Where the same directories are there a path leads to the same, if that lies there. -/
theorem Keeps.toOption_nodeAt (h' : w'.Keeps w)
    (same : w'.files.find? (w.placeOf path) = w.files.find? (w.placeOf path)) :
    (w'.nodeAt path).toOption = (w.nodeAt path).toOption := by
  cases there : w.nodeAt path with
  | ok n => rw [h.nodeAt there same]
  | error e =>
    cases there' : w'.nodeAt path with
    | error e' => rfl
    | ok n =>
      rw [← h.placeOf] at same
      rw [h'.nodeAt there' same.symm] at there
      cases there

theorem Keeps.toOption_bytesAt (h' : w'.Keeps w)
    (same : w'.files.find? (w.placeOf path) = w.files.find? (w.placeOf path)) :
    (w'.bytesAt path).toOption = (w.bytesAt path).toOption := by
  rw [World.toOption_bytesAt, World.toOption_bytesAt, h.toOption_nodeAt h' same]

end Keeps

/-! ## Canonical paths -/

theorem foldl_enter_named {names : List String} (named : ∀ name ∈ names, name ≠ "" ∧ '/' ∉ name.toList)
    (start : ∀ name ∈ l, IsName name) : ∀ name ∈ names.foldl enter l, IsName name := by
  induction names generalizing l with
  | nil => exact start
  | cons next rest ih =>
    refine ih (fun name mem => named name (.tail _ mem)) fun name mem => ?_
    rw [enter] at mem
    split at mem
    · exact start name mem
    split at mem
    · exact start name (List.dropLast_subset l mem)
    · rename_i notHere notUp
      rcases List.mem_append.mp mem with old | new
      · exact start name old
      · rw [List.mem_singleton.mp new]
        exact ⟨(named next (.head _)).1, (named next (.head _)).2, notHere, notUp⟩

/-- An absolute path stands for a place that is reached by names alone. -/
theorem isName_of_mem_placeFrom (absolute : isAbsolute path = true) :
    ∀ name ∈ placeFrom here path, IsName name := by
  rw [placeFrom, if_pos absolute]
  exact foldl_enter_named (fun _ => filled_of_mem_names) (by simp)

theorem foldl_enter_of_named {names : List String} (named : ∀ name ∈ names, IsName name) :
    names.foldl enter l = l ++ names := by
  induction names generalizing l with
  | nil => simp
  | cons name rest ih =>
    rw [List.foldl_cons, (named name (.head _)).enter, ih fun name mem => named name (.tail _ mem)]
    simp

theorem namesOf_append_slashed (named : ∀ name ∈ l, IsName name) (front : List Char) :
    namesOf (front ++ l.flatMap fun name => '/' :: name.toList) = namesOf front ++ l := by
  induction l generalizing front with
  | nil => simp
  | cons name rest ih =>
    have one : namesOf name.toList = [name] := (named name (.head _)).names
    rw [List.flatMap_cons, List.cons_append, namesOf_slash,
      ih (fun name mem => named name (.tail _ mem)), one]
    simp

theorem isAbsolute_locationText (l : Location) : isAbsolute (locationText l) = true := by
  rw [locationText]
  split
  · rfl
  · rename_i filled
    cases l with
    | nil => exact absurd rfl filled
    | cons name rest => simp [isAbsolute]

theorem placeFrom_locationText (named : ∀ name ∈ l, IsName name) :
    placeFrom here (locationText l) = l := by
  have whole : names (locationText l) = l := by
    change namesOf (locationText l).toList = l
    rw [locationText]
    split
    · rename_i empty
      rw [List.isEmpty_iff.mp empty]
      rfl
    · have slashed : (String.join (l.map fun name => "/" ++ name)).toList =
          [] ++ l.flatMap fun name => '/' :: name.toList := by
        simp [List.flatMap_map]
      rw [slashed, namesOf_append_slashed named]
      rfl
  rw [placeFrom, if_pos (isAbsolute_locationText l), whole, foldl_enter_of_named named,
    List.nil_append]

theorem canonical_eq_ok (h : w.canonical path = .ok dir) : dir = locationText (w.placeOf path) := by
  unfold canonical at h
  cases located : w.locate path with
  | error e => simp [located, Except.map] at h
  | ok l =>
    rw [located] at h
    cases h
    rw [locate_eq_ok located]

/-- A canonical path stands for the place of the path that it is made from. -/
theorem placeFrom_canonical (absolute : isAbsolute path = true) (h : w.canonical path = .ok dir)
    (here : Location) : placeFrom here dir = w.placeOf path := by
  rw [canonical_eq_ok h]
  exact placeFrom_locationText (isName_of_mem_placeFrom absolute)

theorem placeFrom_join_congr (same : placeFrom here base = placeFrom here base') (path : String) :
    placeFrom here (join base path) = placeFrom here (join base' path) := by
  cases relative : isAbsolute path with
  | true => simp [File.Path.join, relative]
  | false => rw [placeFrom_join relative, placeFrom_join relative, same]

/-! ## What becomes of files -/

theorem find?_insert' {t : Tree} {n : Node} (named : l ≠ []) (m : Location) :
    (t.insert l n).find? m = if m = l then some n else t.find? m := by
  by_cases root : m = []
  · subst root
    simp [Ne.symm named]
  · exact Tree.find?_insert root

theorem fileAt?_write (h : w.write path content = .ok w') (other : String) :
    w'.fileAt? other =
      if w.placeOf other = w.placeOf path then some content else w.fileAt? other := by
  obtain ⟨l, name, executable, leads, -, rfl⟩ := write_eq_ok h
  change ((w.files.insert _ _).find? (w.placeOf other)).bind _ = _
  rw [find?_insert' (by simp), leads.placeOf]
  split
  · rfl
  · rfl

theorem here_write (h : w.write path content = .ok w') : w'.here = w.here := by
  obtain ⟨l, name, executable, -, -, rfl⟩ := write_eq_ok h
  rfl

theorem endsWithSlash_of_write (h : w.write path content = .ok w') : endsWithSlash path = false := by
  unfold write at h
  cases located : w.locateNew path with
  | error e => simp [located, bind, Except.bind] at h
  | ok place =>
    simp only [located, bind, Except.bind] at h
    split at h
    · cases h
    split at h
    · cases h
    all_goals
      split at h
      · cases h
      · rename_i noSlash
        exact Bool.eq_false_iff.mpr noSlash

/-- What has been written is read back. -/
theorem bytesAt_of_write (h : w.write path content = .ok w') : w'.bytesAt path = .ok content := by
  obtain ⟨l, name, executable, leads, noDir, same⟩ := write_eq_ok h
  subst same
  have found : (w.files.insert (l ++ [name]) (.file content executable)).find? (l ++ [name]) =
      some (.file content executable) := (find?_insert' (by simp) _).trans (if_pos rfl)
  exact ((keeps_insert noDir).leads leads).bytesAt (endsWithSlash_of_write h) found

theorem fileAt?_removeFile (h : w.removeFile path = .ok w')
    (apart : w.placeOf other ≠ w.placeOf path) : w'.fileAt? other = w.fileAt? other := by
  obtain ⟨l, located, -, rfl⟩ := removeFile_eq_ok h
  change ((w.files.erase l).find? (w.placeOf other)).bind _ = _
  by_cases root : w.placeOf other = []
  · rw [fileAt?, root]
    rfl
  · rw [Tree.find?_erase root, if_neg (locate_eq_ok located ▸ apart), fileAt?]

/-- Nothing outside of a directory is removed with it. -/
theorem find?_removeDir (path : String) (outside : ¬ Tree.isBelow (w.placeOf path) m = true) :
    (w.removeDir path).2.files.find? m = w.files.find? m := by
  by_cases root : m = []
  · simp [root]
  have erased : (w.files.eraseBelow (w.placeOf path)).find? m = w.files.find? m := by
    rw [Tree.find?_eraseBelow root, if_neg outside]
  have emptied : (w.emptyDir (w.placeOf path)).files.find? m = w.files.find? m := by
    have apart : m ≠ w.placeOf path := fun same => outside (Tree.isBelow_iff.mpr ⟨[], by simp [same]⟩)
    unfold emptyDir
    dsimp only
    split
    · exact erased
    · rw [Tree.find?_insert root, if_neg apart, erased]
  unfold removeDir
  split
  · rfl
  · rename_i l located
    obtain rfl := locate_eq_ok located
    split
    · rfl
    · split
      · exact emptied
      · split
        · exact emptied
        · split
          · exact emptied
          · exact erased

theorem here_removeDir (w : World) (path : String) : (w.removeDir path).2.here = w.here := by
  unfold removeDir
  split
  · rfl
  · split
    · rfl
    · split
      · rfl
      · split
        · rfl
        · split <;> rfl

theorem Adds.fileAt? (h : w.Adds w') (there : w.fileAt? path = some content) :
    w'.fileAt? path = some content := by
  obtain ⟨n, found, read⟩ := Option.bind_eq_some_iff.mp there
  have place : w'.placeOf path = w.placeOf path := h.keeps.placeOf path
  rw [World.fileAt?, place, h.kept _ n found]
  exact read

theorem not_isBelow_beside {name other : String} (apart : name ≠ other) (rest : Location) :
    ¬ Tree.isBelow (l ++ [name]) (l ++ [other] ++ rest) = true := by
  intro below
  obtain ⟨rest', same⟩ := Tree.isBelow_iff.mp below
  rw [List.append_assoc, List.append_assoc] at same
  exact apart (List.cons.inj (List.append_cancel_left same)).1.symm

theorem not_isBelow_sibling {name other : String} (apart : name ≠ other) :
    ¬ Tree.isBelow (l ++ [name]) (l ++ [other]) = true := by
  simpa using not_isBelow_beside apart []

section Rename

variable (h : w.rename path other = .ok w')
include h

/-- What lies where after something is renamed. -/
theorem find?_of_rename (rest : Location) :
    w'.files.find? (w.placeOf other ++ rest) = w.files.find? (w.placeOf path ++ rest) := by
  obtain ⟨k, old, l, name, leads, leads', ⟨rfl, same⟩ | ⟨rfl, -, -⟩⟩ := rename_eq_ok' h
  · rw [leads.placeOf, leads'.placeOf, same]
  · rw [leads.placeOf, leads'.placeOf, Tree.find?_move (by simp) (by simp),
      if_pos (Tree.isBelow_iff.mpr ⟨rest, rfl⟩), List.drop_left]

theorem here_rename : w'.here = w.here := by
  obtain ⟨k, old, l, name, -, -, ⟨rfl, -⟩ | ⟨rfl, -⟩⟩ := rename_eq_ok' h <;> rfl

theorem fileAt?_rename : w'.fileAt? other = w.fileAt? path := by
  have moved := find?_of_rename h []
  have place : w'.placeOf other = w.placeOf other := by
    rw [placeOf_eq, placeOf_eq, here_rename h]
  rw [fileAt?, fileAt?, place]
  simpa using congrArg (Option.bind · Node.content?) moved

theorem find?_rename_of_apart (notTarget : ¬ Tree.isBelow (w.placeOf other) m = true)
    (notSource : ¬ Tree.isBelow (w.placeOf path) m = true) : w'.files.find? m = w.files.find? m := by
  obtain ⟨k, old, l, name, leads, leads', ⟨rfl, -⟩ | ⟨rfl, -⟩⟩ := rename_eq_ok' h
  · rfl
  · rw [leads'.placeOf] at notTarget
    rw [leads.placeOf] at notSource
    by_cases root : m = []
    · simp [root]
    · change ((w.files.move _ _).find? m) = _
      rw [Tree.find?_move (by simp) root, if_neg notTarget, if_neg notSource]

end Rename

end BoardDesign.World
