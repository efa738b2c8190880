import BoardDesign.Proofs.File.Way
import BoardDesign.Proofs.Generation.Replacement

/-!
# Replacement as a whole or not at all

A directory is replaced by renames, and what is moved aside is removed as a directory. So a file in
the place of the target, or in the place for what is moved aside, is in the way.

* `LeadsPast`, `Placed`: the three paths lead to three names in one directory, and their way goes
  through none of them; so it is with every path that never steps up (`leadsPast_of_noUp`);
* `swapIn_of_free`, `swapIn_of_there`, `swapIn_of_file_old`: what the renames come to;
* `find?_of_makeStaging`: what changes until there is a staging directory;
* `AllOrNothing`: the target is the new directory or is as it was, and nothing stays beside it;
* `replaceDir_allOrNothing`: so it is whatever lies at the three places and whatever the new
  directory is filled with, unless a file is in the way (`Obstructed`), and then the replacement
  fails and leaves something behind (`Stuck`);
* `replaced_file_stays`: a file that is replaced.
-/

namespace BoardDesign.Generation

open File File.Path World Action

variable {α : Type} {w w' u v : World} {l : Location} {path target name : String}

/-! ## Removal -/

section RemoveIfThere

variable (leads : w.Leads path l name) (noSlash : endsWithSlash path = false)
include leads noSlash

theorem removeIfThere_of_none (none : w.files.find? (l ++ [name]) = none) :
    removeIfThere path w = (.ok (), w) := by
  have absent : w.doesExist path = false := by simp [leads.doesExist noSlash, none]
  rw [removeIfThere, bind_apply, Action.doesExist, ask]
  simp only [absent]
  rfl

theorem removeIfThere_of_dir (dir : w.files.find? (l ++ [name]) = some .dir) :
    removeIfThere path w =
      (.ok (), { w with files := w.files.eraseBelow (l ++ [name]) }) := by
  have there : w.doesExist path = true := by simp [leads.doesExist noSlash, dir]
  rw [removeIfThere, bind_apply, Action.doesExist, ask]
  simp only [there, if_true, onPath, mapError, Action.removeDir, ofPair,
    leads.removeDir noSlash dir]

theorem removeIfThere_of_file {content : List UInt8} {executable : Bool}
    (file : w.files.find? (l ++ [name]) = some (.file content executable)) :
    removeIfThere path w = (.error (.file path .notDirectory), w) := by
  have there : w.doesExist path = true := by simp [leads.doesExist noSlash, file]
  rw [removeIfThere, bind_apply, Action.doesExist, ask]
  simp only [there, if_true, onPath, mapError, Action.removeDir, ofPair,
    leads.removeDir_of_file noSlash file]

end RemoveIfThere

theorem onPath_rename {source : String} (h : w.rename source target = .ok w') (path : String) :
    onPath path (Action.rename source target) w = (.ok (), w') := by
  simp only [onPath, mapError, Action.rename, changing, h]

/-! ## The swap -/

theorem swapIn_of_absent {source : String} (absent : w.doesExist target = false) :
    swapIn source target w = onPath target (Action.rename source target) w := by
  rw [swapIn, bind_apply, Action.doesExist, ask]
  simp only [absent]
  rfl

theorem swapIn_of_stuck {source : String} {e : Error} (there : w.doesExist target = true)
    (stuck : removeIfThere (sibling target "old") w = (.error e, w')) :
    swapIn source target w = (.error e, w') := by
  rw [swapIn, bind_apply, Action.doesExist, ask]
  simp only [there, Bool.not_true, Bool.false_eq_true, if_false]
  rw [bind_apply, stuck]

theorem swapIn_of_moved {source : String} {w₁ w₂ w₃ : World} (there : w.doesExist target = true)
    (free : removeIfThere (sibling target "old") w = (.ok (), w₁))
    (aside : w₁.rename target (sibling target "old") = .ok w₂)
    (placed : w₂.rename source target = .ok w₃) :
    swapIn source target w = removeIfThere (sibling target "old") w₃ := by
  rw [swapIn, bind_apply, Action.doesExist, ask]
  simp only [there, Bool.not_true, Bool.false_eq_true, if_false]
  rw [bind_apply, free]
  dsimp only
  rw [bind_apply, onPath_rename aside]
  dsimp only
  rw [bind_apply, Action.attempt, Action.rename, changing, placed]

/-! ## Where the three directories lie -/

theorem endsWithSlash_sibling (path : String) {suffix : String} (filled : suffix ≠ "")
    (noSlash : '/' ∉ suffix.toList) : endsWithSlash (sibling path suffix) = false := by
  have isName := isName_siblingName path filled noSlash
  obtain ⟨before, pieces⟩ := pieces_join (siblingDir path) isName.noSlash
  rw [← sibling_eq] at pieces
  exact endsWithSlash_of_pieces pieces isName.toList_ne_nil

theorem endsWithSlash_staging (target : String) :
    endsWithSlash (sibling target "staging") = false :=
  endsWithSlash_sibling target (by decide) (by decide)

theorem endsWithSlash_old (target : String) : endsWithSlash (sibling target "old") = false :=
  endsWithSlash_sibling target (by decide) (by decide)

theorem staging_ne_old (target : String) :
    siblingName target "staging" ≠ siblingName target "old" := by
  simp [siblingName, String.append_right_inj]

/-- The way to a target leads past the target and what may lie beside it. -/
def LeadsPast (here : Location) (target : String) : Prop :=
  ∀ m, OnWay here target m → ¬ Tree.isBelow (placeFrom here target) m = true ∧
    ¬ Tree.isBelow (placeFrom here (sibling target "staging")) m = true ∧
    ¬ Tree.isBelow (placeFrom here (sibling target "old")) m = true

/-- The paths of a target and of what may lie beside it lead to one directory. -/
structure Placed (w : World) (target : String) (l : Location) (name : String) : Prop where
  self : w.Leads target l name
  staging : w.Leads (sibling target "staging") l (siblingName target "staging")
  old : w.Leads (sibling target "old") l (siblingName target "old")

/-- A way that never steps up leads past what it ends in. -/
theorem leadsPast_of_noUp (ends : EndsIn target name) (noUp : ".." ∉ names target)
    (here : Location) : LeadsPast here target := by
  obtain ⟨absolute, whole⟩ := steps_of_fileName? ends.fileName?
  have noDots : ∀ name ∈ steps target, name ≠ "." ∧ name ≠ ".." := fun name mem =>
    ⟨by simpa using (List.mem_filter.mp mem).2,
      fun up => noUp (up ▸ (List.mem_filter.mp mem).1)⟩
  have along (names : List String) (mem : ∀ name ∈ names, name ∈ steps target) :
      names.foldl enter (start here target) = start here target ++ names := by
    rw [foldl_enter_of_noUp fun up => (noDots _ (mem _ up)).2 rfl,
      List.filter_eq_self.mpr fun name up => by simpa using (noDots name (mem name up)).1]
  have dir : placeFrom here (siblingDir target) =
      start here target ++ steps (siblingDir target) := by
    rw [placeFrom_eq_steps, absolute]
    exact along _ fun name mem => whole ▸ List.mem_append_left _ mem
  rintro m ⟨front, rest, split, filled, rfl⟩
  have short : front.length ≤ (steps (siblingDir target)).length := by
    have lengths := congrArg List.length (whole.symm.trans split)
    have := List.length_pos_iff.mpr filled
    simp only [List.length_append, List.length_singleton] at lengths
    omega
  rw [along front fun name mem => split ▸ List.mem_append_left _ mem]
  have beyond (last : String) : ¬ Tree.isBelow (placeFrom here (siblingDir target) ++ [last])
      (start here target ++ front) = true := by
    intro below
    have := (List.isPrefixOf_iff_prefix.mp below).length_le
    rw [dir] at this
    simp only [List.length_append, List.length_singleton] at this
    omega
  refine ⟨?_, ?_, ?_⟩
  · rw [placeFrom_of_fileName? ends.fileName?]
    exact beyond _
  · rw [placeFrom_sibling target (by decide) (by decide)]
    exact beyond _
  · rw [placeFrom_sibling target (by decide) (by decide)]
    exact beyond _

theorem placed_of_staging {other : String} (ends : EndsIn target name)
    (h : w.Leads (sibling target "staging") l other) : Placed w target l name := by
  have leads : w.Leads target l name := h.of_sibling ends (by decide) (by decide)
  have named : other = siblingName target "staging" := by
    obtain ⟨_, before, _, whole, _⟩ := h.way
    rw [names_sibling (by decide) (by decide)] at whole
    exact (List.singleton_injective (List.append_inj' whole rfl).2).symm
  refine ⟨leads, named ▸ h, leads.sibling ends (by decide) (by decide) (by decide) ?_⟩
  have short := h.short
  rw [named, ends.siblingName_eq] at short
  rw [ends.siblingName_eq]
  simp only [String.utf8ByteSize_append] at short ⊢
  have : "old".utf8ByteSize ≤ "staging".utf8ByteSize := by decide
  omega

section Swap

variable (ends : EndsIn target name) (past : LeadsPast w.here target)
  (placed : Placed w target l name)
include ends past placed

/-- What changes nothing but the three directories leaves them where they lie. -/
theorem Placed.congr (here : w'.here = w.here)
    (same : ∀ m, ¬ Tree.isBelow (l ++ [name]) m = true →
      ¬ Tree.isBelow (l ++ [siblingName target "staging"]) m = true →
      ¬ Tree.isBelow (l ++ [siblingName target "old"]) m = true →
      w'.files.find? m = w.files.find? m) : Placed w' target l name := by
  have along (m : Location) (way : OnWay w.here target m) : w'.files.find? m = w.files.find? m := by
    obtain ⟨notTarget, notStaging, notOld⟩ := past m way
    rw [← placeOf_eq, placed.self.placeOf] at notTarget
    rw [← placeOf_eq, placed.staging.placeOf] at notStaging
    rw [← placeOf_eq, placed.old.placeOf] at notOld
    exact same m notTarget notStaging notOld
  exact ⟨placed.self.congr here along,
    placed.staging.congr here fun m way =>
      along m ((onWay_sibling (by decide) (by decide) ends.fileName?).mp way),
    placed.old.congr here fun m way =>
      along m ((onWay_sibling (by decide) (by decide) ends.fileName?).mp way)⟩

omit past in
/-- The new directory takes a free place. -/
theorem swapIn_of_free (free : w.files.find? (l ++ [name]) = none)
    (staged : w.files.find? (l ++ [siblingName target "staging"]) = some .dir) :
    ∃ w', swapIn (sibling target "staging") target w = (.ok (), w') ∧
      (∀ rest, w'.files.find? (l ++ [name] ++ rest) =
        w.files.find? (l ++ [siblingName target "staging"] ++ rest)) ∧
      (∀ rest, w'.files.find? (l ++ [siblingName target "staging"] ++ rest) = none) ∧
      ∀ rest, w'.files.find? (l ++ [siblingName target "old"] ++ rest) =
        w.files.find? (l ++ [siblingName target "old"] ++ rest) := by
  have apart (suffix : String) : siblingName target suffix ≠ name :=
    ne_siblingName ends.fileName? suffix
  have moved := placed.staging.rename (endsWithSlash_staging target) placed.self ends.noSlash
    (apart _) staged free
  have absent : w.doesExist target = false := by
    rw [placed.self.doesExist ends.noSlash, free]
    rfl
  exact ⟨_, (swapIn_of_absent absent).trans (onPath_rename moved target),
    Tree.find?_move_target, Tree.find?_move_source (apart _),
    Tree.find?_move_beside (staging_ne_old target).symm (apart _)⟩

omit past in
/-- A file in the place of what is moved aside is not removed. -/
theorem swapIn_of_file_old (there : (w.files.find? (l ++ [name])).isSome) {content : List UInt8}
    {executable : Bool}
    (file : w.files.find? (l ++ [siblingName target "old"]) = some (.file content executable)) :
    swapIn (sibling target "staging") target w
      = (.error (.file (sibling target "old") .notDirectory), w) :=
  swapIn_of_stuck (by rw [placed.self.doesExist ends.noSlash, there])
    (removeIfThere_of_file placed.old (endsWithSlash_old target) file)

/-- The place of what is moved aside is made free. -/
theorem removeIfThere_old
    (noFile : ∀ c x, w.files.find? (l ++ [siblingName target "old"]) ≠ some (.file c x)) :
    ∃ w', removeIfThere (sibling target "old") w = (.ok (), w') ∧ w'.here = w.here ∧
      w'.files.find? (l ++ [siblingName target "old"]) = none ∧ Placed w' target l name ∧
      ∀ other rest, other ≠ siblingName target "old" →
        w'.files.find? (l ++ [other] ++ rest) = w.files.find? (l ++ [other] ++ rest) := by
  cases found : w.files.find? (l ++ [siblingName target "old"]) with
  | none =>
    exact ⟨w, removeIfThere_of_none placed.old (endsWithSlash_old target) found, rfl, found, placed,
      fun _ _ _ => rfl⟩
  | some n =>
    cases n with
    | file c x => exact absurd found (noFile c x)
    | dir =>
      refine ⟨_, removeIfThere_of_dir placed.old (endsWithSlash_old target) found, rfl, ?_, ?_, ?_⟩
      · simpa using Tree.find?_eraseBelow_self (t := w.files)
          (l := l ++ [siblingName target "old"]) (by simp) []
      · exact placed.congr ends past rfl fun m _ _ notOld => Tree.find?_eraseBelow_outside notOld
      · exact fun other rest apart =>
          Tree.find?_eraseBelow_outside (not_isBelow_beside apart.symm rest)

/-- What stands in the place is moved aside and the new directory takes the place. -/
theorem swapIn_of_there {n : Node} (there : w.files.find? (l ++ [name]) = some n)
    (staged : w.files.find? (l ++ [siblingName target "staging"]) = some .dir)
    (noFile : ∀ c x, w.files.find? (l ++ [siblingName target "old"]) ≠ some (.file c x)) :
    ∃ w₃, swapIn (sibling target "staging") target w = removeIfThere (sibling target "old") w₃ ∧
      Placed w₃ target l name ∧
      (∀ rest, w₃.files.find? (l ++ [name] ++ rest) =
        w.files.find? (l ++ [siblingName target "staging"] ++ rest)) ∧
      (∀ rest, w₃.files.find? (l ++ [siblingName target "staging"] ++ rest) = none) ∧
      ∀ rest, w₃.files.find? (l ++ [siblingName target "old"] ++ rest) =
        w.files.find? (l ++ [name] ++ rest) := by
  have apart (suffix : String) : siblingName target suffix ≠ name :=
    ne_siblingName ends.fileName? suffix
  have there' : w.doesExist target = true := by
    rw [placed.self.doesExist ends.noSlash, there]
    rfl
  obtain ⟨w₁, removed, here₁, free, placed₁, same₁⟩ := removeIfThere_old ends past placed noFile
  have found₁ : w₁.files.find? (l ++ [name]) = some n := by
    simpa [there] using same₁ name [] (apart _).symm
  have aside := placed₁.self.rename ends.noSlash placed₁.old (endsWithSlash_old target)
    (apart _).symm found₁ free
  have placed₂ : Placed { w₁ with
      files := w₁.files.move (l ++ [name]) (l ++ [siblingName target "old"]) } target l name :=
    placed₁.congr ends (here₁ ▸ past) rfl fun m notSelf _ notOld =>
      Tree.find?_move_outside (by simp) notSelf notOld
  have staged₂ (rest : Location) : (w₁.files.move (l ++ [name])
      (l ++ [siblingName target "old"])).find? (l ++ [siblingName target "staging"] ++ rest) =
        w.files.find? (l ++ [siblingName target "staging"] ++ rest) :=
    (Tree.find?_move_beside (apart _) (staging_ne_old target) rest).trans
      (same₁ _ rest (staging_ne_old target))
  have swapped := placed₂.staging.rename (endsWithSlash_staging target) placed₂.self ends.noSlash
    (apart _) (by simpa [staged] using staged₂ [])
    (by simpa using Tree.find?_move_source (t := w₁.files) (l := l) (apart "old").symm [])
  refine ⟨_, swapIn_of_moved there' removed aside swapped, ?_, fun rest => ?_,
    Tree.find?_move_source (apart _), fun rest => ?_⟩
  · exact placed₂.congr ends (here₁ ▸ past) rfl fun m notSelf notStaging _ =>
      Tree.find?_move_outside (by simp) notStaging notSelf
  · exact (Tree.find?_move_target rest).trans (staged₂ rest)
  · refine (Tree.find?_move_beside (staging_ne_old target).symm (apart _) rest).trans ?_
    exact (Tree.find?_move_target rest).trans (same₁ name rest (apart _).symm)

end Swap

/-! ## The staging directory -/

theorem removeIfThere_cases (path : String) {suffix : String} (filled : suffix ≠ "")
    (noSlash : '/' ∉ suffix.toList) (w : World) :
    (∃ r, removeIfThere (sibling path suffix) w = (r, w)) ∨
      removeIfThere (sibling path suffix) w = (.ok (),
        { w with files := w.files.eraseBelow (w.placeOf (sibling path suffix)) }) := by
  cases located : w.locate (sibling path suffix) with
  | error e =>
    have absent : w.doesExist (sibling path suffix) = false := by
      rw [World.doesExist, located]
      rfl
    refine .inl ⟨.ok (), ?_⟩
    rw [removeIfThere, bind_apply, Action.doesExist, ask]
    simp only [absent]
    rfl
  | ok m =>
    have isName := isName_siblingName path filled noSlash
    obtain ⟨l, leads, rfl, found⟩ :=
      leads_of_locate located (names_sibling filled noSlash path) isName.noDots
    have ends := endsWithSlash_sibling path filled noSlash
    cases node : w.files.find? (l ++ [siblingName path suffix]) with
    | none =>
      rw [node] at found
      cases found
    | some n =>
      cases n with
      | file c x => exact .inl ⟨_, removeIfThere_of_file leads ends node⟩
      | dir => exact .inr (leads.placeOf ▸ removeIfThere_of_dir leads ends node)

/-- What lies at a place is gone altogether, or it is as it was. -/
def GoneOrKept (w w' : World) (l : Location) : Prop :=
  (∀ rest, w'.files.find? (l ++ rest) = none) ∨
    ∀ rest, w'.files.find? (l ++ rest) = w.files.find? (l ++ rest)

theorem find?_of_makeParent {r : Except Error Unit} (named : fileName? target = some name)
    (done : makeParent target w = (r, w')) :
    w'.here = w.here ∧ ∀ m, ¬ OnWay w.here target m → w'.files.find? m = w.files.find? m := by
  unfold makeParent at done
  cases above : parent? target with
  | none =>
    rw [above] at done
    cases done
    exact ⟨rfl, fun _ _ => rfl⟩
  | some parent =>
    rw [above] at done
    dsimp only at done
    split at done
    · have left : (onPath parent (Action.makeDirs parent) w).2 = (w.makeDirs parent).2 := by
        rw [onPath, mapError, Action.makeDirs, ofPair]
        rcases w.makeDirs parent with ⟨_ | _, _⟩ <;> rfl
      rw [done] at left
      obtain rfl : w' = (w.makeDirs parent).2 := left
      exact ⟨(makeDirs_adds w parent).keeps.here, fun m off =>
        (find?_of_makeDirs_above named above m).resolve_right off⟩
    · cases done
      exact ⟨rfl, fun _ _ => rfl⟩

/-- A directory itself is made or is not; nothing else changes with it. -/
theorem find?_of_makeDir {r : Except Error Unit}
    (done : onPath path (Action.makeDir path) w = (r, w')) :
    w'.here = w.here ∧
      (∀ m, ¬ Tree.isBelow (w.placeOf path) m = true → w'.files.find? m = w.files.find? m) ∧
      ∀ e, r = .error e → w' = w := by
  simp only [onPath, mapError, Action.makeDir, changing] at done
  cases dir : w.makeDir path with
  | error e =>
    rw [dir] at done
    cases done
    exact ⟨rfl, fun _ _ => rfl, fun _ _ => rfl⟩
  | ok w₁ =>
    rw [dir] at done
    cases done
    obtain ⟨l, other, leads, -, rfl⟩ := makeDir_eq_ok dir
    refine ⟨rfl, fun m outside => ?_, fun e fault => by cases fault⟩
    have apart : m ≠ l ++ [other] := by
      rintro rfl
      rw [leads.placeOf] at outside
      exact outside (Tree.isBelow_iff.mpr ⟨[], by simp⟩)
    exact (find?_insert' (by simp) m).trans (if_neg apart)

/-- What becomes of the world up to the point where the staging directory is there, or is not to be
had. -/
theorem find?_of_makeStaging {r : Except Error Unit} (named : fileName? target = some name)
    (past : LeadsPast w.here target) (done : makeStaging target w = (r, w')) :
    w'.here = w.here ∧
      (∀ m, ¬ OnWay w.here target m →
        ¬ Tree.isBelow (w.placeOf (sibling target "staging")) m = true →
        w'.files.find? m = w.files.find? m) ∧
      ∀ e, r = .error e → GoneOrKept w w' (w.placeOf (sibling target "staging")) := by
  have off (rest : Location) :
      ¬ OnWay w.here target (w.placeOf (sibling target "staging") ++ rest) := fun way =>
    (past _ way).2.1 (Tree.isBelow_iff.mpr ⟨rest, rfl⟩)
  rw [makeStaging, bind_apply] at done
  rcases parents : makeParent target w with ⟨e | ⟨⟩, w₁⟩ <;>
    obtain ⟨here₁, same₁⟩ := find?_of_makeParent named parents <;> rw [parents] at done <;>
    dsimp only at done
  · cases done
    exact ⟨here₁, fun m off _ => same₁ m off, fun _ _ => .inr fun rest => same₁ _ (off rest)⟩
  have place : w₁.placeOf (sibling target "staging") = w.placeOf (sibling target "staging") := by
    rw [placeOf_eq, placeOf_eq, here₁]
  rw [bind_apply] at done
  rcases removeIfThere_cases target (show "staging" ≠ "" by decide) (by decide) w₁ with
    ⟨r', removed⟩ | removed <;> rw [removed] at done
  · cases r' with
    | error e =>
      cases done
      exact ⟨here₁, fun m off _ => same₁ m off, fun _ _ => .inr fun rest => same₁ _ (off rest)⟩
    | ok _ =>
      obtain ⟨here, same, failed⟩ := find?_of_makeDir done
      rw [place] at same
      refine ⟨here.trans here₁, fun m off outside => (same m outside).trans (same₁ m off),
        fun e fault => ?_⟩
      rw [failed e fault]
      exact .inr fun rest => same₁ _ (off rest)
  · obtain ⟨here, same, failed⟩ := find?_of_makeDir done
    replace same (m : Location) (outside) := same m (place ▸ outside)
    refine ⟨here.trans here₁, fun m off outside => ?_, fun e fault => ?_⟩
    · refine (same m outside).trans ((Tree.find?_eraseBelow_outside ?_).trans (same₁ m off))
      rwa [place]
    · rw [failed e fault]
      refine .inl fun rest => ?_
      rw [← place]
      refine Tree.find?_eraseBelow_self ?_ rest
      rw [placeOf_eq, placeFrom_sibling target (by decide) (by decide)]
      simp

/-- Where the staging directory has been made the three places lie side by side. -/
theorem placed_of_makeStaging (ends : EndsIn target name)
    (done : makeStaging target w = (.ok (), u)) :
    ∃ l, Placed u target l name ∧
      u.files.find? (l ++ [siblingName target "staging"]) = some .dir := by
  obtain ⟨⟨⟩, w₁, -, done⟩ := bind_eq_ok done
  obtain ⟨⟨⟩, w₂, -, made⟩ := bind_eq_ok done
  obtain ⟨l, other, leads, free, rfl⟩ := makeDir_eq_ok (changing_of_mapError made)
  have leads' := (keeps_insert (n := .dir) (m := l ++ [other]) (by simp [free])).leads leads
  have placed := placed_of_staging ends leads'
  refine ⟨l, placed, ?_⟩
  rw [← placed.staging.placeOf, leads'.placeOf, find?_insert' (by simp), if_pos rfl]

/-! ## The whole replacement -/

section Whole

variable {fill : String → Action Error α}

/-- The staging directory filled and moved into its place. -/
def fillAndSwap (target : String) (fill : String → Action Error α) : Action Error α := do
  match ← Action.attempt (fill (sibling target "staging")) with
  | .error e =>
    Action.ignoring (Action.removeDir (sibling target "staging"))
    throw e
  | .ok result =>
    swapIn (sibling target "staging") target
    return result

theorem replaceDir_eq (target : String) (force : Bool) (fill : String → Action Error α)
    (w : World) :
    replaceDir target force fill w =
      if w.doesExist target && !force then (.error (.outputExists target), w)
      else (makeStaging target >>= fun _ => fillAndSwap target fill) w := by
  have renews (w₁ : World) : renew target fill w₁ =
      ((removeIfThere (sibling target "staging") >>= fun _ =>
        onPath (sibling target "staging") (Action.makeDir (sibling target "staging"))) >>=
          fun _ => fillAndSwap target fill) w₁ := by
    rw [bind_assoc]
    rfl
  rw [replaceDir, bind_apply, Action.doesExist, ask]
  dsimp only
  split
  · rfl
  · rw [makeStaging, bind_assoc, makeParent]
    cases parent? target with
    | none => exact renews w
    | some parent =>
      dsimp only
      by_cases filled : (!parent.isEmpty) = true
      · rw [if_pos filled, if_pos filled, bind_apply, bind_apply]
        rcases onPath parent (Action.makeDirs parent) w with ⟨_ | _, w₁⟩
        · rfl
        · exact renews w₁
      · rw [if_neg filled, if_neg filled]
        exact renews w

theorem fillAndSwap_of_error {e : Error}
    (failed : fill (sibling target "staging") u = (.error e, v)) :
    fillAndSwap target fill u = (.error e, (v.removeDir (sibling target "staging")).2) := by
  rw [fillAndSwap, bind_apply, Action.attempt, failed]
  dsimp only
  rw [bind_apply, ignoring]
  rfl

theorem fillAndSwap_of_ok {x : α} (filled : fill (sibling target "staging") u = (.ok x, v)) :
    fillAndSwap target fill u =
      match swapIn (sibling target "staging") target v with
      | (.ok _, w') => (.ok x, w')
      | (.error e, w') => (.error e, w') := by
  rw [fillAndSwap, bind_apply, Action.attempt, filled]
  dsimp only
  rw [bind_apply]
  rcases swapIn (sibling target "staging") target v with ⟨_ | _, _⟩ <;> rfl

/-- The action writes into a directory and nowhere else. -/
def WritesInto (dir : String) (a : Action Error α) : Prop :=
  ∀ u, u.files.find? (u.placeOf dir) = some .dir →
    (a u).2.here = u.here ∧ (a u).2.files.find? (u.placeOf dir) = some .dir ∧
      ∀ m, ¬ Tree.isBelow (u.placeOf dir) m = true → (a u).2.files.find? m = u.files.find? m

/-- A new directory, empty at first, in which content has been put. -/
def Wrote (fill : String → Action Error α) (target : String) (w : World) (x : α) (v : World) :
    Prop :=
  ∃ u, makeStaging target w = (.ok (), u) ∧
    (∀ rest ≠ [], u.files.find? (w.placeOf (sibling target "staging") ++ rest) = none) ∧
    fill (sibling target "staging") u = (.ok x, v)

/-- Either the target is the new directory, or nothing has become of it, and nothing is left beside
it that was not there before. -/
inductive AllOrNothing (fill : String → Action Error α) (target : String) (w : World) :
    Except Error α × World → Prop
  | all {x v w'} (wrote : Wrote fill target w x v)
      (dir : w'.files.find? (w.placeOf target) = some .dir)
      (new : ∀ rest, w'.files.find? (w.placeOf target ++ rest) =
        v.files.find? (w.placeOf (sibling target "staging") ++ rest))
      (staging : ∀ rest, w'.files.find? (w.placeOf (sibling target "staging") ++ rest) = none)
      (old : GoneOrKept w w' (w.placeOf (sibling target "old"))) :
      AllOrNothing fill target w (.ok x, w')
  | nothing {e w'}
      (kept : ∀ rest, w'.files.find? (w.placeOf target ++ rest) =
        w.files.find? (w.placeOf target ++ rest))
      (staging : GoneOrKept w w' (w.placeOf (sibling target "staging")))
      (old : GoneOrKept w w' (w.placeOf (sibling target "old"))) :
      AllOrNothing fill target w (.error e, w')

/-- Something is in the place of the target. That, or what is in the place for what is moved aside,
is a file. -/
structure Blocked (target : String) (w : World) : Prop where
  there : (w.files.find? (w.placeOf target)).isSome
  file : ∃ c x, w.files.find? (w.placeOf target) = some (.file c x) ∨
    w.files.find? (w.placeOf (sibling target "old")) = some (.file c x)

/-- A new directory has been filled for a place that is blocked. -/
structure Obstructed (fill : String → Action Error α) (target : String) (force : Bool)
    (w : World) : Prop where
  entered : w.doesExist target = true → force = true
  wrote : ∃ x v, Wrote fill target w x v
  blocked : Blocked target w

/-- A replacement that fails and leaves something behind. -/
inductive Stuck (fill : String → Action Error α) (target : String) (w : World) :
    Except Error α × World → Prop
  /-- The target is as it was, and the filled directory stays beside it. -/
  | staged {x v w'} (wrote : Wrote fill target w x v)
      (kept : ∀ rest, w'.files.find? (w.placeOf target ++ rest) =
        w.files.find? (w.placeOf target ++ rest))
      (dir : w'.files.find? (w.placeOf (sibling target "staging")) = some .dir)
      (staging : ∀ rest, w'.files.find? (w.placeOf (sibling target "staging") ++ rest) =
        v.files.find? (w.placeOf (sibling target "staging") ++ rest)) :
      Stuck fill target w (.error (.file (sibling target "old") .notDirectory), w')
  /-- The target is replaced, and the file that it was stays beside it. -/
  | replaced {x v w' c executable} (wrote : Wrote fill target w x v)
      (dir : w'.files.find? (w.placeOf target) = some .dir)
      (new : ∀ rest, w'.files.find? (w.placeOf target ++ rest) =
        v.files.find? (w.placeOf (sibling target "staging") ++ rest))
      (before : w.files.find? (w.placeOf target) = some (.file c executable))
      (old : w'.files.find? (w.placeOf (sibling target "old")) = some (.file c executable)) :
      Stuck fill target w (.error (.file (sibling target "old") .notDirectory), w')

/-- What the three places hold while the staging directory is being filled. -/
structure Ready (target : String) (w v : World) (l : Location) (name : String) : Prop where
  placed : Placed v target l name
  here : v.here = w.here
  staged : v.files.find? (l ++ [siblingName target "staging"]) = some .dir
  self : ∀ rest, v.files.find? (l ++ [name] ++ rest) = w.files.find? (l ++ [name] ++ rest)
  old : ∀ rest, v.files.find? (l ++ [siblingName target "old"] ++ rest) =
    w.files.find? (l ++ [siblingName target "old"] ++ rest)

section Outcome

variable {l : Location} {x : α} (ends : EndsIn target name) (past : LeadsPast w.here target)

section Places

variable (h : Ready target w v l name)
include h

theorem Ready.onTarget : w.placeOf target = l ++ [name] := by
  rw [placeOf_eq, ← h.here, ← placeOf_eq, h.placed.self.placeOf]

theorem Ready.onStaging :
    w.placeOf (sibling target "staging") = l ++ [siblingName target "staging"] := by
  rw [placeOf_eq, ← h.here, ← placeOf_eq, h.placed.staging.placeOf]

theorem Ready.onOld : w.placeOf (sibling target "old") = l ++ [siblingName target "old"] := by
  rw [placeOf_eq, ← h.here, ← placeOf_eq, h.placed.old.placeOf]

end Places

include ends past

theorem ready_of_fill (proper : w.files.Proper) (made : makeStaging target w = (.ok (), u))
    (writes : WritesInto (sibling target "staging") (fill (sibling target "staging"))) :
    ∃ l, Ready target w (fill (sibling target "staging") u).2 l name ∧
      ∀ rest ≠ [], u.files.find? (l ++ [siblingName target "staging"] ++ rest) = none := by
  obtain ⟨l, placed, dir⟩ := placed_of_makeStaging ends made
  obtain ⟨here, same, -⟩ := find?_of_makeStaging ends.fileName? past made
  have place (path : String) : w.placeOf path = u.placeOf path := by
    rw [placeOf_eq, placeOf_eq, here]
  have stagingPlace := placed.staging.placeOf
  obtain ⟨here', dir', outside⟩ := writes u (stagingPlace ▸ dir)
  rw [stagingPlace] at dir' outside
  have beside (other : String) (rest : Location)
      (off : ¬ OnWay w.here target (l ++ [other] ++ rest))
      (apart : siblingName target "staging" ≠ other) :
      (fill (sibling target "staging") u).2.files.find? (l ++ [other] ++ rest) =
        w.files.find? (l ++ [other] ++ rest) := by
    refine (outside _ (not_isBelow_beside apart rest)).trans (same _ off ?_)
    rw [place, stagingPlace]
    exact not_isBelow_beside apart rest
  refine ⟨l, ⟨?_, here'.trans here, dir', fun rest => ?_, fun rest => ?_⟩, fun rest some => ?_⟩
  · exact placed.congr ends (here ▸ past) here' fun m _ notStaging _ => outside m notStaging
  · refine beside name rest (fun way => (past _ way).1 ?_) (ne_siblingName ends.fileName? _)
    rw [← placeOf_eq, place, placed.self.placeOf]
    exact Tree.isBelow_iff.mpr ⟨rest, rfl⟩
  · refine beside _ rest (fun way => (past _ way).2.2 ?_) (staging_ne_old target)
    rw [← placeOf_eq, place, placed.old.placeOf]
    exact Tree.isBelow_iff.mpr ⟨rest, rfl⟩
  · have empty := congrFun (staging_of_makeStaging proper made).empty rest
    rw [Tree.view, stagingPlace] at empty
    rcases rest with _ | ⟨_, _ | ⟨_, _⟩⟩
    · exact absurd rfl some
    all_goals exact Option.map_eq_none_iff.mp empty

/-- Without a staging directory nothing becomes of the target. -/
theorem nothing_of_not_made {e : Error} (failed : makeStaging target w = (.error e, w')) :
    AllOrNothing fill target w (.error e, w') := by
  obtain ⟨-, same, staging⟩ := find?_of_makeStaging ends.fileName? past failed
  have onTarget := placeFrom_of_fileName? ends.fileName? w.here
  have onStaging := placeFrom_sibling target (show "staging" ≠ "" by decide) (by decide) w.here
  have onOld := placeFrom_sibling target (show "old" ≠ "" by decide) (by decide) w.here
  refine .nothing (fun rest => same _ (fun way => ?_) ?_) (staging e rfl)
    (.inr fun rest => same _ (fun way => ?_) ?_)
  · exact (past _ way).1 (Tree.isBelow_iff.mpr ⟨rest, rfl⟩)
  · rw [placeOf_eq, placeOf_eq, onTarget, onStaging]
    exact not_isBelow_beside (ne_siblingName ends.fileName? _) rest
  · exact (past _ way).2.2 (Tree.isBelow_iff.mpr ⟨rest, rfl⟩)
  · rw [placeOf_eq, placeOf_eq, onOld, onStaging]
    exact not_isBelow_beside (staging_ne_old target) rest

omit past in
/-- What has been filled in vain is removed. -/
theorem nothing_of_not_filled {e : Error} (h : Ready target w v l name) :
    AllOrNothing fill target w (.error e, (v.removeDir (sibling target "staging")).2) := by
  rw [h.placed.staging.removeDir (endsWithSlash_staging target) h.staged]
  refine .nothing (fun rest => ?_) (.inl fun rest => ?_) (.inr fun rest => ?_)
  · rw [h.onTarget]
    exact (Tree.find?_eraseBelow_outside
      (not_isBelow_beside (ne_siblingName ends.fileName? _) rest)).trans (h.self rest)
  · rw [h.onStaging]
    exact Tree.find?_eraseBelow_self (by simp) rest
  · rw [h.onOld]
    exact (Tree.find?_eraseBelow_outside (not_isBelow_beside (staging_ne_old target) rest)).trans
      (h.old rest)

/-- The end of a replacement whose new directory is filled. -/
def swapped (target : String) (x : α) (v : World) : Except Error α × World :=
  match swapIn (sibling target "staging") target v with
  | (.ok _, w') => (.ok x, w')
  | (.error e, w') => (.error e, w')

theorem swapped_of_blocked (h : Ready target w v l name) (wrote : Wrote fill target w x v)
    (blocked : Blocked target w) : Stuck fill target w (swapped target x v) := by
  obtain ⟨there, c, executable, file⟩ := blocked
  rw [h.onTarget, h.onOld] at file
  rw [h.onTarget] at there
  have target_v : v.files.find? (l ++ [name]) = w.files.find? (l ++ [name]) := by
    simpa using h.self []
  have old_v : v.files.find? (l ++ [siblingName target "old"]) =
      w.files.find? (l ++ [siblingName target "old"]) := by
    simpa using h.old []
  by_cases oldFile : ∃ c x, v.files.find? (l ++ [siblingName target "old"]) = some (.file c x)
  · obtain ⟨c', x', oldFile⟩ := oldFile
    rw [swapped, swapIn_of_file_old ends h.placed (target_v ▸ there) oldFile]
    refine .staged wrote ?_ ?_ fun _ => rfl
    · rw [h.onTarget]
      exact h.self
    · rw [h.onStaging]
      exact h.staged
  · have noFile : ∀ c x, v.files.find? (l ++ [siblingName target "old"]) ≠ some (.file c x) :=
      fun c x found => oldFile ⟨c, x, found⟩
    have found := file.resolve_right (old_v ▸ noFile c executable)
    obtain ⟨w₃, through, placed, new, gone, old⟩ :=
      swapIn_of_there ends (h.here ▸ past) h.placed (target_v.trans found) h.staged noFile
    have aside : w₃.files.find? (l ++ [siblingName target "old"]) = some (.file c executable) := by
      simpa [target_v, found] using old []
    rw [swapped, through, removeIfThere_of_file placed.old (endsWithSlash_old target) aside]
    refine .replaced wrote ?_ ?_ (h.onTarget ▸ found) (h.onOld ▸ aside)
    · rw [h.onTarget]
      simpa [h.staged] using new []
    · rw [h.onTarget, h.onStaging]
      exact new

theorem swapped_of_not_blocked (h : Ready target w v l name) (wrote : Wrote fill target w x v)
    (open' : ¬ Blocked target w) : AllOrNothing fill target w (swapped target x v) := by
  have target_v : v.files.find? (l ++ [name]) = w.files.find? (l ++ [name]) := by
    simpa using h.self []
  have old_v : v.files.find? (l ++ [siblingName target "old"]) =
      w.files.find? (l ++ [siblingName target "old"]) := by
    simpa using h.old []
  cases found : w.files.find? (l ++ [name]) with
  | none =>
    obtain ⟨w', done, new, gone, old⟩ :=
      swapIn_of_free ends h.placed (target_v.trans found) h.staged
    rw [swapped, done]
    refine .all wrote ?_ ?_ (h.onStaging ▸ gone) (.inr fun rest => ?_)
    · rw [h.onTarget]
      simpa [h.staged] using new []
    · rw [h.onTarget, h.onStaging]
      exact new
    · rw [h.onOld]
      exact (old rest).trans (h.old rest)
  | some n =>
    have noFile (c : List UInt8) (x : Bool) : n ≠ .file c x ∧
        v.files.find? (l ++ [siblingName target "old"]) ≠ some (.file c x) := by
      refine ⟨fun file => open' ⟨?_, c, x, .inl ?_⟩, fun file => open' ⟨?_, c, x, .inr ?_⟩⟩
      · simp [h.onTarget, found]
      · rw [h.onTarget, found, file]
      · simp [h.onTarget, found]
      · rw [h.onOld, ← old_v, file]
    cases n with
    | file c x => exact absurd rfl (noFile c x).1
    | dir =>
      obtain ⟨w₃, through, placed, new, gone, old⟩ := swapIn_of_there ends (h.here ▸ past) h.placed
        (target_v.trans found) h.staged fun c x => (noFile c x).2
      have aside : w₃.files.find? (l ++ [siblingName target "old"]) = some .dir := by
        simpa [target_v, found] using old []
      rw [swapped, through, removeIfThere_of_dir placed.old (endsWithSlash_old target) aside]
      have apart := ne_siblingName ends.fileName? "old"
      refine .all wrote ?_ (fun rest => ?_) (fun rest => ?_) (.inl fun rest => ?_)
      · rw [h.onTarget]
        refine (Tree.find?_eraseBelow_outside (not_isBelow_sibling apart)).trans ?_
        simpa [h.staged] using new []
      · rw [h.onTarget, h.onStaging]
        exact (Tree.find?_eraseBelow_outside (not_isBelow_beside apart rest)).trans (new rest)
      · rw [h.onStaging]
        exact (Tree.find?_eraseBelow_outside
          (not_isBelow_beside (staging_ne_old target).symm rest)).trans (gone rest)
      · rw [h.onOld]
        exact Tree.find?_eraseBelow_self (by simp) rest

/-- A replacement is all or nothing unless the filled directory finds its place blocked, and then it
fails and leaves something behind. -/
theorem replaceDir_allOrNothing (proper : w.files.Proper) (force : Bool)
    (writes : WritesInto (sibling target "staging") (fill (sibling target "staging"))) :
    (¬ Obstructed fill target force w →
      AllOrNothing fill target w (replaceDir target force fill w)) ∧
    (Obstructed fill target force w → Stuck fill target w (replaceDir target force fill w)) := by
  rw [replaceDir_eq]
  by_cases refused : (w.doesExist target && !force) = true
  · rw [if_pos refused]
    obtain ⟨there, noForce⟩ := Bool.and_eq_true_iff.mp refused
    refine ⟨fun _ => .nothing (fun _ => rfl) (.inr fun _ => rfl) (.inr fun _ => rfl), fun h => ?_⟩
    rw [h.entered there] at noForce
    cases noForce
  rw [if_neg refused, bind_apply]
  rcases made : makeStaging target w with ⟨e | ⟨⟩, u⟩
  · refine ⟨fun _ => nothing_of_not_made ends past made, fun h => ?_⟩
    obtain ⟨x, v, u', made', -⟩ := h.wrote
    cases made.symm.trans made'
  obtain ⟨l, ready, empty⟩ := ready_of_fill ends past proper made writes
  dsimp only
  rcases filled : fill (sibling target "staging") u with ⟨e | x, v⟩ <;> rw [filled] at ready
  · rw [fillAndSwap_of_error filled]
    refine ⟨fun _ => nothing_of_not_filled ends ready, fun h => ?_⟩
    obtain ⟨x, v', u', made', -, filled'⟩ := h.wrote
    cases made.symm.trans made'
    cases filled.symm.trans filled'
  · have wrote : Wrote fill target w x v := ⟨u, made, ready.onStaging ▸ empty, filled⟩
    have entered (there : w.doesExist target = true) : force = true := by
      simpa [there] using refused
    rw [fillAndSwap_of_ok filled]
    exact ⟨fun free => swapped_of_not_blocked ends past ready wrote fun blocked =>
        free ⟨entered, ⟨x, v, wrote⟩, blocked⟩,
      fun h => swapped_of_blocked ends past ready wrote h.blocked⟩

end Outcome

end Whole

/-! ## A directory with one file -/

/-- A file written into a directory. -/
def fillOne (dir : String) : Action Error Unit :=
  onPath (join dir "a") (Action.writeText (join dir "a") "1")

theorem writesInto_fillOne (dir : String) : WritesInto dir (fillOne dir) := by
  intro u there
  have isName : IsName "a" := ⟨by decide, by decide, by decide⟩
  simp only [fillOne, onPath, mapError, writeText, writeBytes, changing]
  cases written : u.write (join dir "a") (Text.Utf8.bytes "1") with
  | error e => exact ⟨rfl, there, fun _ _ => rfl⟩
  | ok u' =>
    obtain ⟨l, name, executable, leads, noDir, rfl⟩ := write_eq_ok written
    have place : l ++ [name] = u.placeOf dir ++ ["a"] := by
      rw [← leads.placeOf, placeOf_eq, isName.placeFrom_join, placeOf_eq]
    rw [place]
    refine ⟨rfl, ?_, fun m outside => ?_⟩
    · exact (find?_insert' (by simp) _).trans ((if_neg (by simp)).trans there)
    · refine (find?_insert' (by simp) _).trans (if_neg ?_)
      rintro rfl
      exact outside (Tree.isBelow_iff.mpr ⟨["a"], rfl⟩)

/-- A world with something under one name in the working directory. -/
def worldWith (n : Node) : World := ⟨⟨[(["out"], n)]⟩, [], 0, [], 0, []⟩

/-- A directory is replaced, and a file is in the way. -/
theorem replaceDir_allOrNothing_out :
    AllOrNothing fillOne "out" (worldWith .dir) (replaceDir "out" true fillOne (worldWith .dir)) ∧
      Stuck fillOne "out" (worldWith (.file [1] false))
        (replaceDir "out" true fillOne (worldWith (.file [1] false))) := by
  have ends : EndsIn "out" "out" := ⟨by decide, by decide, by decide⟩
  have past (n : Node) : LeadsPast (worldWith n).here "out" := leadsPast_of_noUp ends (by decide) []
  have proper (n : Node) : (worldWith n).files.Proper :=
    Tree.proper_of_isProper (by cases n <;> rfl)
  refine ⟨(replaceDir_allOrNothing ends (past _) (proper _) true (writesInto_fillOne _)).1 ?_,
    (replaceDir_allOrNothing ends (past _) (proper _) true (writesInto_fillOne _)).2 ?_⟩
  · rintro ⟨-, -, -, c, x, file | file⟩
    · have dir : (worldWith .dir).files.find? ((worldWith .dir).placeOf "out") = some .dir := by
        decide
      cases dir.symm.trans file
    · have none : (worldWith .dir).files.find? ((worldWith .dir).placeOf (sibling "out" "old"))
          = none := by decide
      cases none.symm.trans file
  · let w := worldWith (.file [1] false)
    let u := (makeStaging "out" w).2
    have made : makeStaging "out" w = (.ok (), u) := Prod.ext (by decide) rfl
    obtain ⟨l, ready, empty⟩ := ready_of_fill ends (past _) (proper _) made (writesInto_fillOne _)
    have filled : fillOne (sibling "out" "staging") u =
        (.ok (), (fillOne (sibling "out" "staging") u).2) := Prod.ext (by decide) rfl
    exact ⟨fun _ => rfl, ⟨(), _, u, made, ready.onStaging ▸ empty, filled⟩, by decide,
      [1], false, .inl (by decide)⟩

/-- A file that is replaced stays beside the new directory, and the replacement fails. -/
theorem replaced_file_stays :
    ¬ AllOrNothing fillOne "out" (worldWith (.file [1] false))
      (replaceDir "out" true fillOne (worldWith (.file [1] false))) := by
  have failed : (replaceDir "out" true fillOne (worldWith (.file [1] false))).1 =
      .error (.file ".out.old" .notDirectory) := by decide
  have replaced : (replaceDir "out" true fillOne (worldWith (.file [1] false))).2.files.find?
      ((worldWith (.file [1] false)).placeOf "out" ++ []) = some .dir := by decide
  have before : (worldWith (.file [1] false)).files.find?
      ((worldWith (.file [1] false)).placeOf "out" ++ []) = some (.file [1] false) := by decide
  intro whole
  generalize replaceDir "out" true fillOne (worldWith (.file [1] false)) = outcome
    at failed replaced whole
  cases whole with
  | all => cases failed
  | nothing kept =>
    have same := kept []
    rw [replaced, before] at same
    cases same

end BoardDesign.Generation
