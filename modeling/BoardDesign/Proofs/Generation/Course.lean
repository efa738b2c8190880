import BoardDesign.Proofs.Generation.AllOrNothing
import BoardDesign.Proofs.Generation.Copy

/-!
# The course of a replacement

* `Course`: the ways in which a replacement can end; `course_of_replaceDir`: there are no others;
* `Straight`: paths that take no step up, or whose directory is there already, so that making it
  changes nothing but what lies above the target (`find?_of_makeStaging_straight`);
* `opens_of_makeStaging`: the new directory can be gone into, and is empty;
* `staging_gone_of_swapIn`, `old_gone_of_swapIn`: nothing is left beside a target that has been
  replaced;
* `opens_target`: a directory at the place of the target is found.
-/

namespace BoardDesign

open File File.Path World Action

namespace World

variable {w w' : World} {l m : Location} {path target name suffix : String}

/-! ## The way of a path that leads to a name -/

theorem dir_of_walk {names front rest : List String} (h : w.walk l names = .ok m)
    (dir : w.isDirAt m = true) (split : names = front ++ rest) :
    w.files.find? (front.foldl enter l) = some .dir := by
  rw [split, walk_append] at h
  cases first : w.walk l front with
  | error e =>
    rw [first] at h
    cases h
  | ok k =>
    rw [first] at h
    rw [← walk_eq_ok first]
    exact isDirAt_iff.mp (isDirAt_of_walk h dir)

/-- The steps of a path that leads to a name, before the last one. -/
theorem Leads.walk_steps (h : w.Leads path l name) :
    ∃ before, steps path = before ++ [name] ∧ w.walk (start w.here path) before = .ok l := by
  obtain ⟨⟨begin, before, begins, whole, walked⟩, proper, dir, -⟩ := h
  obtain ⟨-, -, rfl⟩ := origin_eq_ok_iff.mp begins
  refine ⟨before.filter (· ≠ "."), ?_, (walk_filter_iff dir).mpr walked⟩
  rw [steps, whole, List.filter_append]
  simp [proper.1]

/-- There are directories all along the way. -/
theorem Leads.dir_of_onWay (h : w.Leads path l name) (way : OnWay w.here path m) :
    w.files.find? m = some .dir := by
  obtain ⟨before, whole, walked⟩ := h.walk_steps
  obtain ⟨front, rest, split, some, rfl⟩ := way
  obtain ⟨init, last, rfl⟩ := (List.eq_nil_or_concat rest).resolve_left some
  rw [List.concat_eq_append, ← List.append_assoc] at split
  exact dir_of_walk walked h.dir (List.append_inj' (whole.symm.trans split) rfl).1

/-- A way does not lead through what is not there. -/
theorem Leads.not_isBelow_of_onWay (h : w.Leads path l name) (closed : w.files.Closed)
    (way : OnWay w.here path m) {place : Location} (free : w.files.find? place = none) :
    ¬ Tree.isBelow place m = true := by
  intro below
  obtain ⟨rest, rfl⟩ := Tree.isBelow_iff.mp below
  have dir := h.dir_of_onWay way
  by_cases last : rest = []
  · rw [last, List.append_nil, free] at dir
    cases dir
  · rw [closed.find?_below (by simp [free]) last] at dir
    cases dir

/-- Nothing is left where something is moved away from. -/
theorem gone_of_rename {source : String} (h : w.rename source target = .ok w')
    (apart : w.placeOf source ≠ w.placeOf target) (rest : Location) :
    w'.files.find? (w.placeOf source ++ rest) = none := by
  obtain ⟨k, old, l, name, leads, leads', ⟨rfl, same⟩ | ⟨rfl, notInto, notOver⟩⟩ := rename_eq_ok' h
  · exact absurd (by rw [leads.placeOf, leads'.placeOf, same]) apart
  · rw [leads.placeOf, Tree.find?_move (by simp) (by simp), if_neg fun below => ?_,
      if_pos (Tree.isBelow_iff.mpr ⟨rest, rfl⟩)]
    have within : l ++ [name] <+: k ++ [old] ++ rest := List.isPrefixOf_iff_prefix.mp below
    rcases List.prefix_or_prefix_of_prefix within (List.prefix_append _ rest) with into | into
    · exact notOver (List.isPrefixOf_iff_prefix.mpr into)
    · exact notInto (List.isPrefixOf_iff_prefix.mpr into)

/-! ## Beside a path -/

section Sibling

variable (named : fileName? path = some name) (filled : suffix ≠ "")
  (noSlash : '/' ∉ suffix.toList)
include named filled noSlash

/-- A path can be followed from where its sibling can be. -/
theorem origin_of_sibling (h : w.origin (sibling path suffix) = .ok l) :
    w.origin path = .ok (start w.here path) := by
  obtain ⟨noNul, -, -⟩ := origin_eq_ok_iff.mp h
  obtain ⟨-, whole⟩ := steps_of_fileName? named
  have parts := steps_sibling filled noSlash path
  refine origin_eq_ok_iff.mpr ⟨fun nul => ?_, ?_, rfl⟩
  · obtain ⟨step, mem, inside⟩ := exists_step_of_mem_toList nul (by decide) (by decide)
    rw [whole] at mem
    rcases List.mem_append.mp mem with mem | mem
    · exact noNul (mem_toList_of_mem_steps (parts ▸ List.mem_append_left _ mem) inside)
    · rw [List.mem_singleton.mp mem] at inside
      refine noNul (mem_toList_of_mem_steps (parts ▸ List.mem_append_right _ (.head _)) ?_)
      simp [siblingName, named, inside]
  · rintro rfl
    simp [steps, names, Text.pieces] at whole

/-- Where a sibling leads to a name, a directory beside it is found. -/
theorem opens_of_sibling {other : String} (h : w.Leads (sibling path suffix) l other)
    (dir : w.files.find? (w.placeOf path) = some .dir) : w.Opens path := by
  obtain ⟨begin, before, begins, -, -⟩ := h.way
  obtain ⟨before, parts, walked⟩ := h.walk_steps
  obtain ⟨absolute, whole⟩ := steps_of_fileName? named
  obtain ⟨rfl, last⟩ :=
    List.append_inj' (parts.symm.trans (steps_sibling filled noSlash path)) rfl
  obtain rfl : other = siblingName path suffix := List.singleton_injective last
  obtain ⟨parent, _, isName, _⟩ := exists_parent named
  rw [start_sibling filled noSlash, start, absolute] at walked
  change w.walk (start w.here path) _ = _ at walked
  have place : w.placeOf path = l ++ [name] := by
    rw [placeOf_eq, placeFrom_eq_steps, whole, List.foldl_append, ← start, ← walk_eq_ok walked,
      List.foldl_cons, List.foldl_nil, isName.enter]
  have short : name.utf8ByteSize ≤ longestName := by
    refine Nat.le_trans ?_ h.short
    simp only [siblingName, named, Option.getD_some, String.utf8ByteSize_append]
    omega
  have step : w.step l name = .ok (l ++ [name]) := by
    rw [place] at dir
    simp [World.step, h.dir, isName.noDots, Nat.not_lt.mpr short, dir]
  have dirAt : w.isDirAt (w.placeOf path) = true := isDirAt_iff.mpr dir
  have walked' : w.walk (start w.here path) (names path) = .ok (w.placeOf path) := by
    refine (walk_filter_iff dirAt).mp ?_
    change w.walk _ (steps path) = _
    rw [whole, walk_append, walked, place]
    simp [Except.bind, World.walk, step]
  exact opens_iff_walk.mpr ⟨origin_of_sibling named filled noSlash begins, walked', dir⟩

end Sibling

end World

namespace Generation

variable {α : Type} {w w' u v : World} {l m : Location} {target name : String} {force : Bool}
  {fill : String → Action Error α}

/-! ## The ways in which a replacement can end -/

/-- What can come of a replacement, and the worlds that it passes through. -/
inductive Course (target : String) (force : Bool) (fill : String → Action Error α) (w : World) :
    Except Error α → World → Prop
  | refused (there : w.doesExist target = true) (noForce : force = false) :
      Course target force fill w (.error (.outputExists target)) w
  | notMade {e w'} (failed : makeStaging target w = (.error e, w')) :
      Course target force fill w (.error e) w'
  | notFilled {e u v} (made : makeStaging target w = (.ok (), u))
      (failed : fill (sibling target "staging") u = (.error e, v)) :
      Course target force fill w (.error e) (v.removeDir (sibling target "staging")).2
  | notPlaced {e u x v w'} (made : makeStaging target w = (.ok (), u))
      (filled : fill (sibling target "staging") u = (.ok x, v))
      (failed : swapIn (sibling target "staging") target v = (.error e, w')) :
      Course target force fill w (.error e) w'
  | placed {u x v w'} (allowed : w.doesExist target = true → force = true)
      (made : makeStaging target w = (.ok (), u))
      (filled : fill (sibling target "staging") u = (.ok x, v))
      (done : swapIn (sibling target "staging") target v = (.ok (), w')) :
      Course target force fill w (.ok x) w'

theorem course_of_replaceDir {r : Except Error α} (done : replaceDir target force fill w = (r, w')) :
    Course target force fill w r w' := by
  rw [replaceDir_eq] at done
  split at done
  · rename_i refused
    obtain ⟨there, noForce⟩ := Bool.and_eq_true_iff.mp refused
    cases done
    exact .refused there (by simpa using noForce)
  · rename_i allowed
    rw [bind_apply] at done
    rcases made : makeStaging target w with ⟨e | ⟨⟩, u⟩ <;> rw [made] at done
    · cases done
      exact .notMade made
    dsimp only at done
    rcases filled : fill (sibling target "staging") u with ⟨e | x, v⟩
    · rw [fillAndSwap_of_error filled] at done
      cases done
      exact .notFilled made filled
    · rw [fillAndSwap_of_ok filled] at done
      rcases swapped : swapIn (sibling target "staging") target v with ⟨e | ⟨⟩, v'⟩ <;>
        rw [swapped] at done <;> cases done
      · exact .notPlaced made filled swapped
      · exact .placed (fun there => by simpa [there] using allowed) made filled swapped

theorem fails_removeIfThere (path : String) : Fails IsFault (removeIfThere path) := by
  refine fails_bind (fails_ask _) fun there => ?_
  split
  · exact fails_onPath _ _
  · exact fails_pure _

theorem fails_makeStaging (target : String) : Fails IsFault (makeStaging target) := by
  refine fails_bind ?_ fun _ => fails_bind (fails_removeIfThere _) fun _ => fails_onPath _ _
  rw [makeParent]
  split
  · split
    · exact fails_onPath _ _
    · exact fails_pure _
  · exact fails_pure _

theorem fails_swapIn (source target : String) : Fails IsFault (swapIn source target) := by
  refine fails_bind (fails_ask _) fun there => ?_
  split
  · exact fails_onPath _ _
  refine fails_bind (fails_removeIfThere _) fun _ => fails_bind (fails_onPath _ _) fun _ => ?_
  refine fails_bind (fun w e w' failed => ?_) fun placed => ?_
  · cases failed
  split
  · refine fails_bind (fun w e w' failed => ?_) fun _ => fails_throw ⟨_, _, rfl⟩
    cases failed
  · exact fails_removeIfThere _

/-! ## The new directory -/

section Made

variable (proper : w.files.Proper) (made : makeStaging target w = (.ok (), u))
include made

/-- The new directory, and that the way to it does not lead through it. -/
theorem leads_of_makeStaging : ∃ l other, u.Leads (sibling target "staging") l other ∧
    u.files.find? (l ++ [other]) = some .dir := by
  obtain ⟨⟨⟩, w₁, -, made⟩ := bind_eq_ok made
  obtain ⟨⟨⟩, w₂, -, made⟩ := bind_eq_ok made
  obtain ⟨l, other, leads, free, rfl⟩ := makeDir_eq_ok (changing_of_mapError made)
  exact ⟨l, other, (keeps_insert (by simp [free])).leads leads, by simp [find?_insert']⟩

theorem opens_of_makeStaging : u.Opens (sibling target "staging") := by
  obtain ⟨l, other, leads, dir⟩ := leads_of_makeStaging made
  refine ⟨?_, leads.placeOf ▸ dir⟩
  rw [leads.placeOf]
  exact leads.locate_of_found (endsWithSlash_staging target) (by simp [dir])

include proper

/-- Directories that do not lie in the place of the new one stay. -/
theorem dir_of_makeStaging (dir : w.files.find? m = some .dir)
    (outside : ¬ Tree.isBelow (w.placeOf (sibling target "staging")) m = true) :
    u.files.find? m = some .dir := by
  obtain ⟨⟨⟩, w₁, parents, made⟩ := bind_eq_ok made
  obtain ⟨⟨⟩, w₂, removed, made⟩ := bind_eq_ok made
  obtain ⟨adds, -⟩ := adds_of_makeParent proper parents
  have stays : w₂.files.find? m = some .dir := by
    rw [find?_removeIfThere removed (by rwa [adds.keeps.placeOf])]
    exact adds.keeps.dirs m dir
  exact (makeDir_adds (changing_of_mapError made)).keeps.dirs m stays

theorem vacant_of_makeStaging : Vacant u (u.placeOf (sibling target "staging")) := by
  refine ⟨(opens_of_makeStaging made).dir, fun rest some => ?_⟩
  have empty := congrFun (staging_of_makeStaging proper made).empty rest
  rw [Tree.view] at empty
  rcases rest with _ | ⟨_, _ | ⟨_, _⟩⟩
  · exact absurd rfl some
  all_goals exact Option.map_eq_none_iff.mp empty

theorem not_isBelow_staging_of_onWay (named : fileName? target = some name)
    (way : OnWay w.here target m) :
    ¬ Tree.isBelow (w.placeOf (sibling target "staging")) m = true := by
  obtain ⟨⟨⟩, w₁, parents, made⟩ := bind_eq_ok made
  obtain ⟨⟨⟩, w₂, removed, made⟩ := bind_eq_ok made
  obtain ⟨-, guards₁⟩ := adds_of_makeParent proper parents
  have guards₂ : World.Guards (fun _ => False) w₁ w₂ :=
    (guards_removeIfThere _).of_done guards₁.proper removed
  obtain ⟨l, other, leads, free, -⟩ := makeDir_eq_ok (changing_of_mapError made)
  have here : w₂.here = w.here := guards₂.here.trans guards₁.here
  rw [placeOf_eq, ← here, ← placeOf_eq, leads.placeOf]
  refine leads.not_isBelow_of_onWay guards₂.proper.closed ?_ free
  exact (onWay_sibling (by decide) (by decide) named).mpr (here ▸ way)

end Made

/-! ## Straight paths -/

/-- The path takes no step up, or the directory that it leads into is there. -/
def Straight (w : World) (target : String) : Prop :=
  ".." ∉ names target ∨ ∃ l other, w.Leads (sibling target "staging") l other

/-- One place lies above another one. -/
def Above (m l : Location) : Prop := ∃ rest ≠ [], l = m ++ rest

/-- A way that takes no step up leads through places above its end only. -/
theorem above_of_onWay (noUp : ".." ∉ names target) {here : Location}
    (way : OnWay here target m) : Above m (placeFrom here target) := by
  obtain ⟨front, rest, split, some, rfl⟩ := way
  have proper (step : String) (mem : step ∈ rest) : step ∈ names target ∧ step ≠ "." := by
    have mem' : step ∈ steps target := split ▸ List.mem_append_right _ mem
    exact ⟨(List.mem_filter.mp mem').1, by simpa using (List.mem_filter.mp mem').2⟩
  refine ⟨rest, some, ?_⟩
  have noUp' : ".." ∉ rest := fun up => noUp (proper _ up).1
  have whole := placeFrom_eq_steps here target
  rw [split, List.foldl_append, foldl_enter_of_noUp noUp',
    List.filter_eq_self.mpr fun step mem => by simpa using (proper step mem).2] at whole
  exact whole

section Straight

variable (named : fileName? target = some name)
include named

/-- Where the directory is there already none is made. -/
theorem makeParent_of_leads {other : String} (leads : w.Leads (sibling target "staging") l other) :
    makeParent target w = (.ok (), w) := by
  obtain ⟨parent, above, -, -⟩ := exists_parent named
  have dir : siblingDir target = parent := by rw [siblingDir, named, above]; rfl
  obtain ⟨begin, before, begins, -, -⟩ := leads.way
  obtain ⟨before, parts, walked⟩ := leads.walk_steps
  have steps' := steps_sibling (show "staging" ≠ "" by decide) (by decide) target
  obtain ⟨rfl, -⟩ := List.append_inj' (parts.symm.trans steps') rfl
  obtain ⟨noNul, -, -⟩ := origin_eq_ok_iff.mp begins
  rw [makeParent, above]
  dsimp only
  split
  · rename_i filled
    have begins' : w.origin parent = .ok (start w.here parent) := by
      refine origin_eq_ok_iff.mpr ⟨fun nul => ?_, fun none => ?_, rfl⟩
      · obtain ⟨step, mem, inside⟩ := exists_step_of_mem_toList nul (by decide) (by decide)
        exact noNul (mem_toList_of_mem_steps
          (steps' ▸ List.mem_append_left _ (dir ▸ mem)) inside)
      · rw [none] at filled
        cases filled
    rw [start_sibling (by decide) (by decide), dir] at walked
    have walked' : w.walk (start w.here parent) (names parent) = .ok l :=
      (walk_filter_iff leads.dir).mp walked
    obtain rfl : l = w.placeOf parent := walk_eq_ok walked'
    have opens : w.Opens parent := opens_iff_walk.mpr ⟨begins', walked', isDirAt_iff.mp leads.dir⟩
    simp only [onPath, mapError, Action.makeDirs, ofPair, makeDirs_of_isDir opens.isDir]
  · rfl

variable (straight : Straight w target)
include straight

theorem find?_of_makeParent_straight {r : Except Error Unit}
    (done : makeParent target w = (r, w')) (off : ¬ Above m (w.placeOf target)) :
    w'.here = w.here ∧ w'.files.find? m = w.files.find? m := by
  obtain ⟨here, same⟩ := find?_of_makeParent named done
  refine ⟨here, ?_⟩
  obtain noUp | ⟨l, other, leads⟩ := straight
  · exact same m fun way => off (above_of_onWay noUp way)
  · cases done.symm.trans (makeParent_of_leads named leads)
    rfl

/-- Until there is a new directory nothing changes but above the target, and at its own place. -/
theorem find?_of_makeStaging_straight (made : makeStaging target w = (.ok (), u))
    (off : ¬ Above m (w.placeOf target))
    (outside : ¬ Tree.isBelow (w.placeOf (sibling target "staging")) m = true) :
    u.files.find? m = w.files.find? m := by
  obtain ⟨⟨⟩, w₁, parents, made⟩ := bind_eq_ok made
  obtain ⟨⟨⟩, w₂, removed, made⟩ := bind_eq_ok made
  obtain ⟨here₁, same₁⟩ := find?_of_makeParent_straight named straight parents off
  have same₂ : w₂.files.find? m = w₁.files.find? m :=
    find?_removeIfThere removed (by rwa [placeOf_eq, here₁])
  have here₂ := (here_removeIfThere removed).trans here₁
  obtain ⟨l, other, leads, -, rfl⟩ := makeDir_eq_ok (changing_of_mapError made)
  rw [placeOf_eq, ← here₂, ← placeOf_eq, leads.placeOf] at outside
  refine (find?_insert' (by simp) m).trans ((if_neg fun same => outside ?_).trans
    (same₂.trans same₁))
  exact Tree.isBelow_iff.mpr ⟨[], by simp [same]⟩

/-- If a replacement goes on, a directory in the place of the target is found. -/
theorem opens_target (proper : w.files.Proper) (made : makeStaging target w = (.ok (), u))
    (dir : w.files.find? (w.placeOf target) = some .dir) : w.Opens target := by
  obtain noUp | ⟨l, other, leads⟩ := straight
  · -- The way is the same as when the new directory was there.
    obtain ⟨l, other, leads, -⟩ := leads_of_makeStaging made
    have here := (staging_of_makeStaging proper made).here
    have along (m : Location) (way : OnWay u.here (sibling target "staging") m) :
        w.files.find? m = u.files.find? m := by
      rw [leads.dir_of_onWay way]
      obtain ⟨rest, some, place⟩ :=
        above_of_onWay noUp ((onWay_sibling (by decide) (by decide) named).mp (here ▸ way))
      exact proper.closed.dir_above some (by rw [← place, ← placeOf_eq, dir]; rfl)
    exact opens_of_sibling named (by decide) (by decide) (leads.congr here.symm along) dir
  · exact opens_of_sibling named (by decide) (by decide) leads dir

end Straight

/-! ## What is left beside the target -/

/-- The new directory takes a free place, or what is there is moved aside for it and removed. -/
theorem swapIn_eq_ok {source : String} (done : swapIn source target v = (.ok (), w')) :
    (v.doesExist target = false ∧ v.rename source target = .ok w') ∨
      (v.doesExist target = true ∧ ∃ w₁ w₂ w₃,
        removeIfThere (sibling target "old") v = (.ok (), w₁) ∧
        w₁.rename target (sibling target "old") = .ok w₂ ∧ w₂.rename source target = .ok w₃ ∧
        removeIfThere (sibling target "old") w₃ = (.ok (), w')) := by
  obtain ⟨there, v₀, asked, done⟩ := bind_eq_ok done
  cases asked
  split at done
  · rename_i absent
    exact .inl ⟨by simpa using absent, changing_of_mapError done⟩
  · rename_i there
    obtain ⟨⟨⟩, w₁, removed, done⟩ := bind_eq_ok done
    obtain ⟨⟨⟩, w₂, aside, done⟩ := bind_eq_ok done
    rw [bind_apply, Action.attempt, Action.rename, changing] at done
    cases placed : w₂.rename source target with
    | error fault =>
      rw [placed] at done
      obtain ⟨_, _, _, failed⟩ := bind_eq_ok done
      cases failed
    | ok w₃ =>
      rw [placed] at done
      exact .inr ⟨by simpa using there, w₁, w₂, w₃, removed, changing_of_mapError aside, placed, done⟩

theorem placeOf_target_of_named (named : fileName? target = some name) (w : World) :
    w.placeOf target = w.placeOf (siblingDir target) ++ [name] := by
  rw [placeOf_eq, placeFrom_of_fileName? named, placeOf_eq]

theorem placeOf_staging (target : String) (w : World) : w.placeOf (sibling target "staging") =
    w.placeOf (siblingDir target) ++ [siblingName target "staging"] := by
  rw [placeOf_eq, placeFrom_sibling target (by decide) (by decide), placeOf_eq]

theorem placeOf_old (target : String) (w : World) : w.placeOf (sibling target "old") =
    w.placeOf (siblingDir target) ++ [siblingName target "old"] := by
  rw [placeOf_eq, placeFrom_sibling target (by decide) (by decide), placeOf_eq]

section Aside

variable {w₁ w₂ w₃ : World} (named : fileName? target = some name)
  (aside : w₁.rename target (sibling target "old") = .ok w₂)
  (placed : w₂.rename (sibling target "staging") target = .ok w₃)
include named aside placed

/-- The way to what was moved aside is as it was before. -/
theorem leads_old_of_placed (past : ∀ m, OnWay w₁.here target m →
      ¬ Tree.isBelow (w₁.placeOf (sibling target "staging")) m = true) :
    ∃ l other, w₃.Leads (sibling target "old") l other := by
  have here₂ := here_rename aside
  have place₂ := placeOf_congr here₂
  obtain ⟨_, _, l, other, -, leads, -⟩ := rename_eq_ok' aside
  obtain ⟨_, _, _, _, -, leads₂, -⟩ := rename_eq_ok' placed
  have away := gone_of_rename aside (by
    rw [placeOf_old, placeOf_target_of_named named]
    simpa using (ne_siblingName named "old").symm)
  refine ⟨l, other, leads.congr ((here_rename placed).trans here₂) fun m way => ?_⟩
  have onTarget := (onWay_sibling (by decide) (by decide) named).mp way
  have dir₂ := leads₂.dir_of_onWay (here₂.symm ▸ onTarget)
  rw [leads.dir_of_onWay way, ← dir₂]
  refine find?_rename_of_apart placed (fun below => ?_) ?_
  · obtain ⟨rest, rfl⟩ := Tree.isBelow_iff.mp below
    rw [place₂, away] at dir₂
    cases dir₂
  · rw [place₂]
    exact past m onTarget

/-- What was moved aside is what was the target. -/
theorem find?_old_of_placed : w₃.files.find? (w₁.placeOf (sibling target "old")) =
    w₁.files.find? (w₁.placeOf target) := by
  have place₂ := placeOf_congr (here_rename aside)
  have moved := find?_of_rename aside []
  rw [List.append_nil, List.append_nil] at moved
  rw [← moved]
  refine find?_rename_of_apart placed ?_ ?_ <;> rw [place₂, placeOf_old]
  · rw [placeOf_target_of_named named]
    exact not_isBelow_sibling (ne_siblingName named "old").symm
  · rw [placeOf_staging]
    exact not_isBelow_sibling (staging_ne_old target)

end Aside

section Gone

variable (named : fileName? target = some name)
  (done : swapIn (sibling target "staging") target v = (.ok (), w'))
include named done

theorem staging_gone_of_swapIn (rest : Location) :
    w'.files.find? (v.placeOf (sibling target "staging") ++ rest) = none := by
  have apart := ne_siblingName named
  have differ (u : World) : u.placeOf (sibling target "staging") ≠ u.placeOf target := by
    rw [placeOf_staging, placeOf_target_of_named named]
    simpa using apart "staging"
  obtain ⟨-, moved⟩ | ⟨-, w₁, w₂, w₃, removed, aside, placed, last⟩ := swapIn_eq_ok done
  · exact gone_of_rename moved (differ v) rest
  · have here₂ := (here_rename aside).trans (here_removeIfThere removed)
    have gone := gone_of_rename placed (differ w₂) rest
    rw [placeOf_eq, here₂, ← placeOf_eq] at gone
    rw [← gone]
    refine find?_removeIfThere last ?_
    rw [placeOf_old, placeOf_staging, placeOf_eq, here_rename placed, here₂, ← placeOf_eq]
    exact not_isBelow_beside (staging_ne_old target).symm rest

/-- What was moved aside is removed. -/
theorem old_gone_of_swapIn (closed : v.files.Closed) (there : v.doesExist target = true)
    (past : ∀ m, OnWay v.here target m →
      ¬ Tree.isBelow (v.placeOf (sibling target "staging")) m = true) (rest : Location) :
    w'.files.find? (v.placeOf (sibling target "old") ++ rest) = none := by
  obtain ⟨absent, -⟩ | ⟨-, w₁, w₂, w₃, removed, aside, placed, last⟩ := swapIn_eq_ok done
  · rw [there] at absent
    cases absent
  have here₁ := here_removeIfThere removed
  have place₁ := placeOf_congr here₁
  obtain ⟨l, other, leads⟩ := leads_old_of_placed named aside placed fun m way => by
    rw [place₁]
    exact past m (here₁ ▸ way)
  have place : l ++ [other] = v.placeOf (sibling target "old") := by
    rw [← leads.placeOf, placeOf_congr (here_rename placed), placeOf_congr (here_rename aside), place₁]
  -- It is there, since the target was.
  have found : (w₃.files.find? (l ++ [other])).isSome := by
    rw [place, ← place₁, find?_old_of_placed named aside placed, place₁,
      find?_removeIfThere removed ?_]
    · exact found_of_locate closed (doesExist_iff.mp there)
    · rw [placeOf_old, placeOf_target_of_named named]
      exact not_isBelow_sibling (ne_siblingName named "old")
  obtain ⟨n, found⟩ := Option.isSome_iff_exists.mp found
  cases n with
  | file content executable =>
    cases last.symm.trans (removeIfThere_of_file leads (endsWithSlash_old target) found)
  | dir =>
    cases last.symm.trans (removeIfThere_of_dir leads (endsWithSlash_old target) found)
    rw [← place]
    exact Tree.find?_eraseBelow_self (by simp) rest

end Gone

/-- A filled directory gets into its place unless a file is in the way. -/
theorem exists_swapIn (ends : EndsIn target name) (past : LeadsPast v.here target)
    (placed : Placed v target l name)
    (staged : v.files.find? (l ++ [siblingName target "staging"]) = some .dir)
    (noFile : ∀ c x, v.files.find? (l ++ [name]) ≠ some (.file c x) ∧
      v.files.find? (l ++ [siblingName target "old"]) ≠ some (.file c x)) :
    ∃ w', swapIn (sibling target "staging") target v = (.ok (), w') := by
  cases found : v.files.find? (l ++ [name]) with
  | none =>
    obtain ⟨w', done, -⟩ := swapIn_of_free ends placed found staged
    exact ⟨w', done⟩
  | some n =>
    cases n with
    | file c x => exact absurd found (noFile c x).1
    | dir =>
      obtain ⟨w₃, through, placed, -, -, old⟩ :=
        swapIn_of_there ends past placed found staged fun c x => (noFile c x).2
      have aside : w₃.files.find? (l ++ [siblingName target "old"]) = some .dir := by
        simpa [found] using old []
      exact ⟨_, through.trans (removeIfThere_of_dir placed.old (endsWithSlash_old target) aside)⟩

end Generation

end BoardDesign
