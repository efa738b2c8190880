import BoardDesign.File.World
import BoardDesign.Proofs.File.Tree

/-!
# Where paths lead

What a path stands for depends on its names and on the working directory; the files only decide
whether it stands for anything.

* `placeOf`: the location that a path stands for if it stands for one;
* `create_eq_ok` and its like: an operation that succeeds changes what lies at one place;
* `Keeps`: every directory is kept, so that paths go on to lead where they lead;
* `Touches`: everything is kept but what lies at some places;
* `Leads.create` and its like: an operation at a place that a path leads to succeeds.
-/

namespace BoardDesign.World

open File

variable {w w' : World} {l m : Location} {path name : String}

/-- One component of a path, as if it were there. -/
def enter (l : Location) (name : String) : Location :=
  if name = "." then l else if name = ".." then l.dropLast else l ++ [name]

/-- The location that a path stands for if it stands for one. -/
def placeOf (w : World) (path : String) : Location :=
  (names path).foldl enter (if Path.isAbsolute path then [] else w.here)

theorem placeOf_of_names {before : List String} (whole : names path = before ++ [name])
    (proper : name ≠ "." ∧ name ≠ "..") : ∃ l, w.placeOf path = l ++ [name] := by
  refine ⟨before.foldl enter (if Path.isAbsolute path then [] else w.here), ?_⟩
  rw [placeOf, whole, List.foldl_append]
  simp [enter, proper]

theorem isDirAt_iff : w.isDirAt l = true ↔ w.files.find? l = some .dir := by
  simp [isDirAt]

theorem step_eq_ok (h : w.step l name = .ok m) : w.isDirAt l = true ∧ m = enter l name := by
  unfold step at h
  split at h
  · cases h
  · rename_i dir
    simp only [Bool.not_eq_true', Bool.not_eq_false] at dir
    refine ⟨dir, ?_⟩
    unfold enter
    split at h
    · cases h
      simp [*]
    · split at h
      · cases h
        simp [*]
      · split at h
        · cases h
        · split at h
          · cases h
            simp [*]
          · cases h

theorem walk_eq_ok {names : List String} (h : w.walk l names = .ok m) :
    m = names.foldl enter l := by
  induction names generalizing l with
  | nil =>
    cases h
    rfl
  | cons name rest ih =>
    rw [walk] at h
    cases first : w.step l name with
    | error e => simp [first, Except.bind] at h
    | ok k =>
      rw [first] at h
      rw [ih h, (step_eq_ok first).2, List.foldl_cons]

theorem walk_append (before after : List String) :
    w.walk l (before ++ after) = (w.walk l before).bind fun m => w.walk m after := by
  induction before generalizing l with
  | nil => rfl
  | cons name rest ih =>
    rw [List.cons_append, walk, walk]
    cases w.step l name with
    | error e => rfl
    | ok k => exact ih

theorem origin_eq_ok (h : w.origin path = .ok l) :
    l = if Path.isAbsolute path then [] else w.here := by
  unfold origin at h
  split at h
  · cases h
  · split at h
    · cases h
    · split at h
      · rename_i absolute
        cases h
        rw [if_pos absolute]
      · rename_i relative
        cases h
        rw [if_neg relative]

theorem locate_eq_ok (h : w.locate path = .ok l) : l = w.placeOf path := by
  unfold locate at h
  cases begins : w.origin path with
  | error e => simp [begins, bind, Except.bind] at h
  | ok start =>
    cases walked : w.walk start (names path) with
    | error e => simp [begins, walked, bind, Except.bind] at h
    | ok m =>
      simp only [begins, walked, bind, Except.bind] at h
      split at h
      · cases h
      · cases h
        rw [walk_eq_ok walked, origin_eq_ok begins, placeOf]

/-- A path leads to a name in a directory that is there; something may lie at it or not. -/
structure Leads (w : World) (path : String) (l : Location) (name : String) : Prop where
  way : ∃ start before, w.origin path = .ok start ∧ names path = before ++ [name] ∧
    w.walk start before = .ok l
  proper : name ≠ "." ∧ name ≠ ".."
  dir : w.isDirAt l = true
  short : name.utf8ByteSize ≤ longestName

theorem leads_of_locateNew (h : w.locateNew path = .ok (.inr (l, name))) :
    w.Leads path l name := by
  unfold locateNew at h
  cases begins : w.origin path with
  | error e => simp [begins, bind, Except.bind] at h
  | ok start =>
    simp only [begins, bind, Except.bind] at h
    split at h
    · cases h
    · rename_i last before parts
      have whole : names path = before.reverse ++ [last] := by
        rw [← List.reverse_reverse (names path), parts, List.reverse_cons]
      split at h
      · cases h
      · rename_i k walked
        split at h
        · split at h <;> cases h
        · rename_i proper
          split at h
          · cases h
          · rename_i dir
            split at h
            · cases h
            · rename_i short
              cases h
              exact ⟨⟨start, before.reverse, begins, whole, walked⟩, by simpa using proper,
                by simpa using dir, Nat.not_lt.mp short⟩

theorem Leads.locateNew (h : w.Leads path l name) : w.locateNew path = .ok (.inr (l, name)) := by
  obtain ⟨⟨start, before, begins, whole, walked⟩, proper, dir, short⟩ := h
  have parts : (names path).reverse = name :: before.reverse := by simp [whole]
  unfold World.locateNew
  simp only [begins, bind, Except.bind, parts, List.reverse_reverse, walked]
  simp [proper, dir, Nat.not_lt.mpr short]

theorem Leads.placeOf (h : w.Leads path l name) : w.placeOf path = l ++ [name] := by
  obtain ⟨⟨start, before, begins, whole, walked⟩, proper, _, _⟩ := h
  rw [World.placeOf, whole, List.foldl_append, ← origin_eq_ok begins, ← walk_eq_ok walked]
  simp [enter, proper]

theorem Leads.dir_find? (h : w.Leads path l name) : w.files.find? l = some .dir :=
  isDirAt_iff.mp h.dir

/-- What a path leads to is found if it is there. -/
theorem Leads.locate (h : w.Leads path l name) (noSlash : endsWithSlash path = false) :
    w.locate path =
      if (w.files.find? (l ++ [name])).isSome then .ok (l ++ [name]) else .error .notFound := by
  obtain ⟨⟨start, before, begins, whole, walked⟩, proper, dir, short⟩ := h
  unfold World.locate
  simp only [begins, whole, walk_append, walked, bind, Except.bind, walk, noSlash, Bool.false_and,
    Bool.false_eq_true, if_false]
  simp only [step, dir, proper.1, proper.2, Nat.not_lt.mpr short, if_false, Bool.not_true,
    Bool.false_eq_true]
  by_cases found : (w.files.find? (l ++ [name])).isSome = true <;> simp [found]

theorem step_name_eq_ok (proper : name ≠ "." ∧ name ≠ "..") (h : w.step l name = .ok m) :
    w.isDirAt l = true ∧ name.utf8ByteSize ≤ longestName ∧ m = l ++ [name] ∧
      (w.files.find? (l ++ [name])).isSome := by
  refine ⟨(step_eq_ok h).1, ?_, by simpa [enter, proper] using (step_eq_ok h).2, ?_⟩
  · by_contra long
    simp [step, (step_eq_ok h).1, proper, Nat.not_le.mp long] at h
  · by_contra absent
    simp only [step, (step_eq_ok h).1, proper, absent, if_false, Bool.not_true,
      Bool.false_eq_true] at h
    split at h <;> cases h

/-- A path to something leads to its name. -/
theorem leads_of_locate (h : w.locate path = .ok m) {before : List String}
    (whole : names path = before ++ [name]) (proper : name ≠ "." ∧ name ≠ "..") :
    ∃ l, w.Leads path l name ∧ m = l ++ [name] ∧ (w.files.find? m).isSome := by
  unfold World.locate at h
  cases begins : w.origin path with
  | error e => simp [begins, bind, Except.bind] at h
  | ok start =>
    cases walked : w.walk start before with
    | error e => simp [begins, whole, walk_append, walked, bind, Except.bind] at h
    | ok l =>
      cases last : w.step l name with
      | error e => simp [begins, whole, walk_append, walked, walk, last, bind, Except.bind] at h
      | ok k =>
        obtain ⟨dir, short, rfl, found⟩ := step_name_eq_ok proper last
        simp only [begins, whole, walk_append, walked, walk, last, bind, Except.bind] at h
        split at h
        · cases h
        · cases h
          exact ⟨l, ⟨⟨start, before, begins, whole, walked⟩, proper, dir, short⟩, rfl, found⟩

/-! ## What an operation that succeeds has changed -/

theorem create_eq_ok {content : List UInt8} (h : w.create path content = .ok w') :
    ∃ l name, w.Leads path l name ∧ w.files.find? (l ++ [name]) = none ∧
      w' = { w with files := w.files.insert (l ++ [name]) (.file content false) } := by
  unfold create at h
  cases located : w.locateNew path with
  | error e => simp [located, bind, Except.bind] at h
  | ok place =>
    cases place with
    | inl l => simp [located, bind, Except.bind] at h
    | inr place =>
      obtain ⟨l, name⟩ := place
      simp only [located, bind, Except.bind] at h
      split at h
      · cases h
      · rename_i free
        split at h
        · cases h
        · cases h
          exact ⟨l, name, leads_of_locateNew located,
            Option.not_isSome_iff_eq_none.mp free, rfl⟩

theorem makeDir_eq_ok (h : w.makeDir path = .ok w') :
    ∃ l name, w.Leads path l name ∧ w.files.find? (l ++ [name]) = none ∧
      w' = { w with files := w.files.insert (l ++ [name]) .dir } := by
  unfold makeDir at h
  cases located : w.locateNew path with
  | error e => simp [located, bind, Except.bind] at h
  | ok place =>
    cases place with
    | inl l => simp [located, bind, Except.bind] at h
    | inr place =>
      obtain ⟨l, name⟩ := place
      simp only [located, bind, Except.bind] at h
      split at h
      · cases h
      · rename_i free
        cases h
        exact ⟨l, name, leads_of_locateNew located, Option.not_isSome_iff_eq_none.mp free, rfl⟩

theorem nodeAt_eq_ok {node : Node} (h : w.nodeAt path = .ok node) :
    ∃ l, w.locate path = .ok l ∧ node = (w.files.find? l).getD .dir := by
  unfold nodeAt at h
  cases located : w.locate path with
  | error e => simp [located, Except.map] at h
  | ok l =>
    rw [located] at h
    cases h
    exact ⟨l, rfl, rfl⟩

theorem link_eq_ok {source : String} (h : w.link source path = .ok w') :
    ∃ node l name, w.nodeAt source = .ok node ∧ w.Leads path l name ∧
      w.files.find? (l ++ [name]) = none ∧
      w' = { w with files := w.files.insert (l ++ [name]) node } := by
  unfold link at h
  cases linked : w.nodeAt source with
  | error e => simp [linked, bind, Except.bind] at h
  | ok node =>
    cases located : w.locateNew path with
    | error e => simp [linked, located, bind, Except.bind] at h
    | ok place =>
      cases place with
      | inl l => simp [linked, located, bind, Except.bind] at h
      | inr place =>
        obtain ⟨l, name⟩ := place
        simp only [linked, located, bind, Except.bind] at h
        split at h
        · cases h
        · rename_i free
          cases h
          exact ⟨node, l, name, rfl, leads_of_locateNew located,
            Option.not_isSome_iff_eq_none.mp free, rfl⟩

theorem removeFile_eq_ok (h : w.removeFile path = .ok w') :
    ∃ l, w.locate path = .ok l ∧ w.files.find? l ≠ some .dir ∧
      w' = { w with files := w.files.erase l } := by
  unfold removeFile at h
  cases located : w.locate path with
  | error e => simp [located, bind, Except.bind] at h
  | ok l =>
    simp only [located, bind, Except.bind] at h
    split at h
    · cases h
    · rename_i noDir
      cases h
      exact ⟨l, rfl, fun dir => noDir (isDirAt_iff.mpr dir), rfl⟩

theorem rename_eq_ok {source : String} {content : List UInt8} {executable : Bool}
    (h : w.rename source path = .ok w')
    (file : w.files.find? (w.placeOf source) = some (.file content executable))
    (apart : w.placeOf source ≠ w.placeOf path) :
    ∃ l name, w.Leads path l name ∧ w.files.find? (l ++ [name]) ≠ some .dir ∧
      w' = { w with files := w.files.move (w.placeOf source) (l ++ [name]) } := by
  unfold rename at h
  cases old : w.locateNew source with
  | error e => simp [old, bind, Except.bind] at h
  | ok place =>
    cases new : w.locateNew path with
    | error e => simp [old, new, bind, Except.bind] at h
    | ok place' =>
      simp only [old, new, bind, Except.bind] at h
      split at h
      case h_2 => cases h
      case h_1 l name k other =>
        have leads := leads_of_locateNew new
        rw [(leads_of_locateNew old).placeOf] at file apart ⊢
        rw [leads.placeOf] at apart
        simp only [file, ne_eq, apart, not_false_eq_true, decide_true, Bool.true_and] at h
        split at h
        · cases h
        split at h
        · cases h
        split at h
        · cases h
        rw [if_neg not_false] at h
        refine ⟨k, other, leads, ?_, ?_⟩
        · intro dir
          simp [dir] at h
        · split at h
          · cases h
            rfl
          · simp at h
          · cases h
            rfl

/-- Directories are made and nothing else is touched. -/
structure Adds (w w' : World) : Prop where
  rest : w' = { w with files := w'.files }
  kept : ∀ l n, w.files.find? l = some n → w'.files.find? l = some n
  closed : w.files.Closed → w'.files.Closed

theorem Adds.refl (w : World) : w.Adds w := ⟨rfl, fun _ _ h => h, fun h => h⟩

theorem Adds.trans {w'' : World} (h : w.Adds w') (h' : w'.Adds w'') : w.Adds w'' := by
  refine ⟨?_, fun l n found => h'.kept l n (h.kept l n found), fun c => h'.closed (h.closed c)⟩
  rw [h'.rest, h.rest]

theorem makeDir_adds (h : w.makeDir path = .ok w') : w.Adds w' := by
  obtain ⟨l, name, leads, free, rfl⟩ := makeDir_eq_ok h
  refine ⟨rfl, fun m n found => ?_, fun closed => ?_⟩
  · by_cases root : m = []
    · subst root
      exact found
    · have apart : m ≠ l ++ [name] := by
        rintro rfl
        rw [free] at found
        cases found
      rw [Tree.find?_insert root, if_neg apart, found]
  · exact closed.insert leads.dir_find? fun _ => rfl

/-- What is kept when one directory is made is kept when many are made. -/
theorem makeDirsFrom_maintains {p : World → Prop}
    (one : ∀ w path w', p w → w.makeDir path = .ok w' → p w') (fuel : Nat) (h : p w) :
    p (w.makeDirsFrom path fuel).2 := by
  induction fuel generalizing w path with
  | zero => exact h
  | succ fuel ih =>
    unfold makeDirsFrom
    split
    · exact h
    split
    · rename_i made
      exact one w path _ h made
    · -- The directories above come first.
      cases above : Path.parent? path with
      | none => exact h
      | some parent =>
        have before : p (w.makeDirsFrom parent fuel).2 := ih h
        simp only [Option.map_some]
        generalize w.makeDirsFrom parent fuel = made at before ⊢
        obtain ⟨result, w₁⟩ := made
        cases result with
        | error e => exact before
        | ok _ =>
          dsimp only
          split
          · rename_i w₂ last
            exact one w₁ path w₂ before last
          · split <;> exact before
    · split <;> exact h

theorem makeDirsFrom_adds (fuel : Nat) : w.Adds (w.makeDirsFrom path fuel).2 :=
  makeDirsFrom_maintains (fun _ _ _ before made => before.trans (makeDir_adds made)) fuel (.refl w)

theorem makeDirs_adds (w : World) (path : String) : w.Adds (w.makeDirs path).2 :=
  makeDirsFrom_adds _

/-! ## What stays where it is -/

/-- Every directory is kept. -/
structure Keeps (w w' : World) : Prop where
  here : w'.here = w.here
  dirs : ∀ l, w.files.find? l = some .dir → w'.files.find? l = some .dir

theorem Keeps.refl (w : World) : w.Keeps w := ⟨rfl, fun _ h => h⟩

theorem Keeps.trans {w'' : World} (h : w.Keeps w') (h' : w'.Keeps w'') : w.Keeps w'' :=
  ⟨h'.here.trans h.here, fun l dir => h'.dirs l (h.dirs l dir)⟩

theorem Adds.keeps (h : w.Adds w') : w.Keeps w' :=
  ⟨by rw [h.rest], fun l dir => h.kept l .dir dir⟩

theorem keeps_insert {n : Node} (free : w.files.find? m ≠ some .dir) :
    w.Keeps { w with files := w.files.insert m n } := by
  refine ⟨rfl, fun l dir => ?_⟩
  by_cases root : l = []
  · simp [root]
  · have apart : l ≠ m := fun same => free (same ▸ dir)
    rw [Tree.find?_insert root, if_neg apart, dir]

theorem keeps_erase (noDir : w.files.find? m ≠ some .dir) :
    w.Keeps { w with files := w.files.erase m } := by
  refine ⟨rfl, fun l dir => ?_⟩
  by_cases root : l = []
  · simp [root]
  · have apart : l ≠ m := fun same => noDir (same ▸ dir)
    rw [Tree.find?_erase root, if_neg apart, dir]

theorem keeps_moveFile {content : List UInt8} {executable : Bool} (closed : w.files.Closed)
    (file : w.files.find? l = some (.file content executable))
    (noDir : w.files.find? m ≠ some .dir) (apart : l ≠ m) :
    w.Keeps { w with files := w.files.move l m } := by
  refine ⟨rfl, fun k dir => ?_⟩
  have onTarget : k ≠ m := fun same => noDir (same ▸ dir)
  have onSource : k ≠ l := by
    rintro rfl
    rw [file] at dir
    cases dir
  rw [closed.find?_moveFile file noDir apart]
  by_cases root : k = []
  · simp [root]
  · rw [Tree.find?_insert root, if_neg onTarget, Tree.find?_erase root, if_neg onSource, dir]

theorem Keeps.placeOf (h : w.Keeps w') (path : String) : w'.placeOf path = w.placeOf path := by
  rw [World.placeOf, World.placeOf, h.here]

theorem Keeps.origin (h : w.Keeps w') (path : String) : w'.origin path = w.origin path := by
  rw [World.origin, World.origin, h.here]

theorem Keeps.walk (h : w.Keeps w') {names : List String} (walked : w.walk l names = .ok m)
    (there : (w.files.find? m).isSome → (w'.files.find? m).isSome) : w'.walk l names = .ok m := by
  induction names generalizing l with
  | nil => exact walked
  | cons name rest ih =>
    rw [World.walk] at walked ⊢
    cases first : w.step l name with
    | error e => simp [first, Except.bind] at walked
    | ok k =>
      rw [first] at walked
      -- Where the way goes on from is a directory.
      have onward : (w.files.find? k).isSome → (w'.files.find? k).isSome := by
        cases rest with
        | nil =>
          cases walked
          exact there
        | cons next more =>
          change (w.step k next).bind (fun l => w.walk l more) = .ok m at walked
          cases second : w.step k next with
          | error e => simp [second, Except.bind] at walked
          | ok _ => simp [h.dirs k (isDirAt_iff.mp (step_eq_ok second).1)]
      have again : w'.step l name = .ok k := by
        have from' := isDirAt_iff.mpr (h.dirs l (isDirAt_iff.mp (step_eq_ok first).1))
        by_cases dots : name = "." ∨ name = ".."
        · have same := (step_eq_ok first).2
          obtain rfl | rfl := dots <;> simpa [step, from', enter] using same.symm
        · obtain ⟨here, up⟩ := not_or.mp dots
          obtain ⟨_, short, rfl, found⟩ := step_name_eq_ok ⟨here, up⟩ first
          simp [step, from', here, up, Nat.not_lt.mpr short, onward found]
      rw [again]
      exact ih walked

theorem Keeps.leads (h : w.Keeps w') (leads : w.Leads path l name) : w'.Leads path l name := by
  obtain ⟨⟨start, before, begins, whole, walked⟩, proper, dir, short⟩ := leads
  have dir' := h.dirs l (isDirAt_iff.mp dir)
  exact ⟨⟨start, before, (h.origin path).trans begins, whole, h.walk walked fun _ => by simp [dir']⟩, proper,
    isDirAt_iff.mpr dir', short⟩

/-- Everything stays but what lies at some places. -/
structure Touches (w w' : World) (places : List Location) : Prop where
  keeps : w.Keeps w'
  closed : w'.files.Closed
  processes : w'.processes = w.processes
  serial : w.serial ≤ w'.serial
  rest : ∀ l x, l ∉ places → w.files.find? l = some x → w'.files.find? l = some x

section Touches

variable (closed : w.files.Closed)
include closed

theorem touches_self : w.Touches w [] :=
  ⟨.refl w, closed, rfl, Nat.le_refl _, fun _ _ _ found => found⟩

theorem Adds.touches (h : w.Adds w') : w.Touches w' [] := by
  have processes : w'.processes = w.processes := by rw [h.rest]
  have serial : w'.serial = w.serial := by rw [h.rest]
  exact ⟨h.keeps, h.closed closed, processes, Nat.le_of_eq serial.symm,
    fun l x _ found => h.kept l x found⟩

theorem touches_insert (content : List UInt8) (executable : Bool)
    (dir : w.files.find? l = some .dir) (free : w.files.find? (l ++ [name]) = none) :
    w.Touches { w with files := w.files.insert (l ++ [name]) (.file content executable) }
      [l ++ [name]] := by
  refine ⟨keeps_insert (by simp [free]), closed.insert dir (by simp [free]), rfl, Nat.le_refl _, ?_⟩
  intro m x elsewhere found
  by_cases root : m = []
  · simpa [root] using found
  · rw [Tree.find?_insert root, if_neg (by simpa using elsewhere), found]

theorem touches_erase (noDir : w.files.find? l ≠ some .dir) :
    w.Touches { w with files := w.files.erase l } [l] := by
  refine ⟨keeps_erase noDir, closed.erase noDir, rfl, Nat.le_refl _, ?_⟩
  intro m x elsewhere found
  by_cases root : m = []
  · simpa [root] using found
  · rw [Tree.find?_erase root, if_neg (by simpa using elsewhere), found]

theorem touches_moveFile {content : List UInt8} {executable : Bool}
    (file : w.files.find? m = some (.file content executable)) (dir : w.files.find? l = some .dir)
    (noDir : w.files.find? (l ++ [name]) ≠ some .dir) (apart : m ≠ l ++ [name]) :
    w.Touches { w with files := w.files.move m (l ++ [name]) } [m, l ++ [name]] := by
  refine ⟨keeps_moveFile closed file noDir apart, closed.moveFile file noDir apart rfl dir, rfl,
    Nat.le_refl _, ?_⟩
  intro k x elsewhere found
  simp only [List.mem_cons, List.not_mem_nil, or_false, not_or] at elsewhere
  rw [closed.find?_moveFile file noDir apart]
  by_cases root : k = []
  · simpa [root] using found
  · rw [Tree.find?_insert root, if_neg elsewhere.2, Tree.find?_erase root, if_neg elsewhere.1,
      found]

end Touches

/-! ## What succeeds at the end of a path -/

section Leads

variable (leads : w.Leads path l name) (noSlash : endsWithSlash path = false)
include leads noSlash

theorem Leads.create (free : w.files.find? (l ++ [name]) = none) (content : List UInt8) :
    w.create path content =
      .ok { w with files := w.files.insert (l ++ [name]) (.file content false) } := by
  unfold World.create
  simp [leads.locateNew, free, noSlash, bind, Except.bind]

theorem Leads.locate_of_found (found : (w.files.find? (l ++ [name])).isSome) :
    w.locate path = .ok (l ++ [name]) := by
  rw [leads.locate noSlash, if_pos found]

theorem Leads.nodeAt {n : Node} (found : w.files.find? (l ++ [name]) = some n) :
    w.nodeAt path = .ok n := by
  unfold World.nodeAt
  rw [leads.locate_of_found noSlash (by simp [found])]
  simp [Except.map, found]

theorem Leads.bytesAt {content : List UInt8} {executable : Bool}
    (file : w.files.find? (l ++ [name]) = some (.file content executable)) :
    w.bytesAt path = .ok content := by
  unfold World.bytesAt
  simp [leads.nodeAt noSlash file, bind, Except.bind]

theorem Leads.bytesAt_of_free (free : w.files.find? (l ++ [name]) = none) :
    w.bytesAt path = .error .notFound := by
  unfold World.bytesAt World.nodeAt
  simp [leads.locate noSlash, free, bind, Except.bind, Except.map]

theorem Leads.removeFile (noDir : w.files.find? (l ++ [name]) ≠ some .dir)
    (found : (w.files.find? (l ++ [name])).isSome) :
    w.removeFile path = .ok { w with files := w.files.erase (l ++ [name]) } := by
  unfold World.removeFile
  have file : w.isDirAt (l ++ [name]) = false :=
    Bool.eq_false_iff.mpr fun dir => noDir (isDirAt_iff.mp dir)
  simp [leads.locate_of_found noSlash found, file, bind, Except.bind]

end Leads

theorem Leads.link {source : String} {n : Node} (leads : w.Leads path l name)
    (linked : w.nodeAt source = .ok n) (free : w.files.find? (l ++ [name]) = none) :
    w.link source path = .ok { w with files := w.files.insert (l ++ [name]) n } := by
  unfold World.link
  simp [linked, leads.locateNew, free, bind, Except.bind]

theorem makeDir_of_located (located : w.locate path = .ok m) : w.makeDir path = .error .exists := by
  cases parts : (names path).reverse with
  | nil =>
    cases begins : w.origin path with
    | error e => simp [locate, begins, bind, Except.bind] at located
    | ok start => simp [makeDir, locateNew, begins, parts, bind, Except.bind]
  | cons last before =>
    have whole : names path = before.reverse ++ [last] := by
      rw [← List.reverse_reverse (names path), parts, List.reverse_cons]
    by_cases dots : last = "." ∨ last = ".."
    · cases begins : w.origin path with
      | error e => simp [locate, begins, bind, Except.bind] at located
      | ok start =>
        cases walked : w.walk start before.reverse with
        | error e =>
          simp [locate, begins, whole, walk_append, walked, bind, Except.bind] at located
        | ok k =>
          cases there : w.step k last with
          | error e =>
            simp [locate, begins, whole, walk_append, walked, walk, there, bind, Except.bind]
              at located
          | ok n => simp [makeDir, locateNew, begins, parts, walked, dots, there, bind, Except.bind]
    · obtain ⟨l, leads, rfl, found⟩ := leads_of_locate located whole (not_or.mp dots)
      simp [makeDir, leads.locateNew, found, bind, Except.bind]

/-- What is a directory already is not made again. -/
theorem makeDirs_of_isDir (h : w.isDir path = true) : w.makeDirs path = (.ok (), w) := by
  obtain ⟨m, located⟩ : ∃ m, w.locate path = .ok m := by
    cases located : w.locate path with
    | error e => simp [isDir, nodeAt, located, Except.map, Except.toOption] at h
    | ok m => exact ⟨m, rfl⟩
  simp [makeDirs, makeDirsFrom, makeDir_of_located located, h]

end BoardDesign.World
