import BoardDesign.Proofs.App.Rendering

/-!
# An application made of a template

* `dropRules`: the file of rules is removed from the copy of a template; it is the only thing that
  goes (`dropRules_eq_ok`), and it stays only if it is a directory (`dropRules_eq_error`);
* `view_of_copied`: the copy holds what the template holds but for the rules;
* `Filled`: what a directory holds that has been filled with an application;
* `fill_eq_ok`, `fill_eq_error`: filling comes to that; if it fails, a text of the template cannot be
  rendered, or a directory cannot be gone through to its end.
-/

namespace BoardDesign.App

open File File.Path World Action
open Generation (IsFault Vacant onPath copyTree copyTreeFrom deepestPath)

variable {ctx : Template.Context} {w w' u u' : World} {templateDir dir : String}

/-! ## A directory filled with an application -/

theorem isName_rulesFile : IsName rulesFile := ⟨by decide, by decide, by decide⟩

theorem usual_rulesFile : Usual rulesFile := ⟨by decide, by decide⟩

/-- The file of rules removed, if there is one. -/
def dropRules (dir : String) : Action Generation.Error Unit := do
  if ← Action.doesExist (join dir rulesFile) then
    onPath (join dir rulesFile) (Action.removeFile (join dir rulesFile))

theorem fill_apply (ctx : Template.Context) (templateDir dir : String) (w : World) :
    fill ctx templateDir dir w = (copyTree templateDir dir >>= fun _ => dropRules dir >>= fun _ =>
      renderTree ctx templateDir dir "" deepestPath) w := by
  rw [fill, bind_apply, bind_apply]
  rcases copyTree templateDir dir w with ⟨_ | _, v⟩
  · rfl
  dsimp only
  rw [dropRules, bind_assoc, bind_apply, bind_apply]
  simp only [Action.doesExist, ask]
  split <;> rfl

/-- What a reader finds without the file of rules. -/
def withoutRules (found : Location → Option (Option (List UInt8))) :
    Location → Option (Option (List UInt8)) := fun rest =>
  if rest = [rulesFile] then none else found rest

section Drop

variable (proper : w.files.Proper) (opens : w.Opens dir)
include opens

theorem doesExist_rules : w.doesExist (join dir rulesFile) =
    (w.files.find? (w.placeOf dir ++ [rulesFile])).isSome :=
  (opens.leads isName_rulesFile usual_rulesFile).doesExist (isName_rulesFile.endsWithSlash_join dir)

/-- Where the rules are a directory they are not removed. -/
theorem dropRules_eq_error {e : Generation.Error} (failed : dropRules dir w = (.error e, w')) :
    IsFault e ∧ w.files.find? (w.placeOf dir ++ [rulesFile]) = some .dir := by
  have leads := opens.leads isName_rulesFile usual_rulesFile
  have noSlash := isName_rulesFile.endsWithSlash_join dir
  rw [dropRules, bind_apply] at failed
  simp only [Action.doesExist, ask, doesExist_rules opens] at failed
  split at failed
  · rename_i there
    refine ⟨Generation.fails_onPath _ _ _ _ _ failed, ?_⟩
    by_contra noDir
    simp only [onPath, mapError, Action.removeFile, changing, leads.removeFile noSlash noDir there]
      at failed
    cases failed
  · cases failed

include proper

theorem dropRules_eq_ok (done : dropRules dir w = (.ok (), w')) :
    w.Keeps w' ∧ w'.files.Proper ∧
      w'.files.view (w.placeOf dir) = withoutRules (w.files.view (w.placeOf dir)) ∧
      ∀ m, ¬ Tree.isBelow (w.placeOf dir) m = true → w'.files.find? m = w.files.find? m := by
  have leads := opens.leads isName_rulesFile usual_rulesFile
  rw [dropRules, bind_apply] at done
  simp only [Action.doesExist, ask, doesExist_rules opens] at done
  split at done
  · have removed := changing_of_mapError done
    have guards : World.Guards (fun _ => False) w w' := guards_removeFile proper removed
    obtain ⟨m, located, noDir, rfl⟩ := removeFile_eq_ok removed
    obtain rfl : m = w.placeOf dir ++ [rulesFile] := by
      rw [locate_eq_ok located, leads.placeOf]
    have found (m : Location) : (w.files.erase (w.placeOf dir ++ [rulesFile])).find? m =
        if m = w.placeOf dir ++ [rulesFile] then none else w.files.find? m := by
      by_cases root : m = []
      · simp [root]
      · exact Tree.find?_erase root
    refine ⟨keeps_erase noDir, guards.proper, funext fun rest => ?_, fun m outside => ?_⟩
    · rw [withoutRules, Tree.view, Tree.view, found]
      by_cases same : rest = [rulesFile] <;> simp [same]
    · refine (found m).trans (if_neg fun same => outside (Tree.isBelow_iff.mpr ⟨_, same⟩))
  · rename_i absent
    cases done
    refine ⟨.refl w, proper, funext fun rest => ?_, fun _ _ => rfl⟩
    rw [withoutRules]
    split
    · rename_i same
      rw [same, Tree.view, Option.not_isSome_iff_eq_none.mp absent]
      rfl
    · rfl

end Drop

/-- The directory at one place holds what the template at another one held but for the rules, each
file rendered if it is a text with markers; all of those could be rendered, and their paths are
listed. -/
structure Filled (ctx : Template.Context) (w w' : World) (template l : Location)
    (paths : List String) : Prop where
  view : ∀ rest, w'.files.view l rest =
    (withoutRules (w.files.view template) rest).map (Option.map (remade ctx))
  sound : ∀ rest e, rest ≠ [rulesFile] → ¬ Unrenderable ctx w template rest e
  listed : ∃ places : List Location, paths = places.map (pathBelow "") ∧ places.Nodup ∧
    ∀ rest, rest ∈ places ↔ rest ≠ [rulesFile] ∧ Marked ctx w template rest

section Fill

variable (proper : w.files.Proper) (opens : w.Opens dir)
  (apart : Apart (w.placeOf templateDir) (w.placeOf dir)) (vacant : Vacant w (w.placeOf dir))
include proper opens apart vacant

/-- A directory that has been copied into another one, without its rules. -/
theorem view_of_copied (copied : copyTree templateDir dir w = (.ok (), u))
    (dropped : dropRules dir u = (.ok (), u')) :
    w.Keeps u' ∧ u'.files.Proper ∧
      u'.files.view (w.placeOf dir) = withoutRules (w.files.view (w.placeOf templateDir)) := by
  have frame := (Generation.confined_copyTreeFrom templateDir (covers_below w.here dir)
    deepestPath).of_done proper copied
  have kept := (Generation.keepsDirs_copyTreeFrom templateDir dir deepestPath).of_done copied
  have whole := Generation.view_of_copyTreeFrom proper apart vacant copied
  obtain ⟨kept', proper', view, -⟩ := dropRules_eq_ok frame.proper (opens.keeps kept) dropped
  rw [kept.placeOf, whole] at view
  exact ⟨kept.trans kept', proper', view⟩

/-- The copy can be gone through if the template can. -/
theorem walkable_of_copied (walkable : w.Walkable templateDir deepestPath)
    (copied : copyTree templateDir dir w = (.ok (), u))
    (dropped : dropRules dir u = (.ok (), u')) : u'.Walkable dir deepestPath := by
  obtain ⟨kept, -, view⟩ := view_of_copied proper opens apart vacant copied dropped
  refine ⟨opens.keeps kept, fun rest name there => ?_, fun rest there => ?_⟩
  · rw [kept.placeOf, List.append_assoc, ← Tree.isSome_view, view, withoutRules] at there
    split at there
    · cases there
    · rw [Tree.isSome_view] at there
      exact walkable.usual rest name (by simpa using there)
  · rw [kept.placeOf, ← Tree.view_eq_dir_iff, view, withoutRules] at there
    split at there
    · cases there
    · exact walkable.shallow rest (Tree.view_eq_dir_iff.mp there)

theorem fill_eq_ok {paths : List String} (done : fill ctx templateDir dir w = (.ok paths, w')) :
    Filled ctx w w' (w.placeOf templateDir) (w.placeOf dir) paths := by
  rw [fill_apply] at done
  obtain ⟨⟨⟩, u, copied, done⟩ := bind_eq_ok done
  obtain ⟨⟨⟩, u', dropped, done⟩ := bind_eq_ok done
  obtain ⟨kept, proper', view⟩ := view_of_copied proper opens apart vacant copied dropped
  obtain ⟨remade, sound, places, whole, nodup, mem⟩ := renderTree_eq_ok proper' done
  rw [kept.placeOf] at remade sound mem
  refine ⟨fun rest => by rw [remade, view], fun rest e other h => sound rest e ?_,
    places, whole, nodup, fun rest => (mem rest).trans ?_⟩
  · obtain ⟨content, found, made⟩ := h
    exact ⟨content, by rw [view, withoutRules, if_neg other, found], made⟩
  · rw [Marked, Marked, view, withoutRules]
    by_cases same : rest = [rulesFile] <;> simp [same]

/-- Filling fails with a fault only if one of the directories cannot be gone through. -/
theorem fill_eq_error {e : Generation.Error}
    (failed : fill ctx templateDir dir w = (.error e, w')) :
    (IsFault e ∧ ¬ (w.Walkable templateDir deepestPath ∧
      w.files.find? (w.placeOf templateDir ++ [rulesFile]) ≠ some .dir)) ∨
      ∃ rest error, rest ≠ [rulesFile] ∧ Unrenderable ctx w (w.placeOf templateDir) rest error ∧
        e = .template (join templateDir (pathBelow "" rest)) error := by
  rw [fill_apply, bind_apply] at failed
  rcases copied : copyTree templateDir dir w with ⟨e' | ⟨⟩, u⟩ <;> rw [copied] at failed
  · cases failed
    refine .inl ⟨Generation.fails_copyTreeFrom _ _ _ _ _ _ copied, fun fit => ?_⟩
    obtain ⟨w', passed⟩ := Generation.copyTreeFrom_of_walkable proper fit.1 opens apart vacant
    cases copied.symm.trans passed
  dsimp only at failed
  rw [bind_apply] at failed
  rcases dropped : dropRules dir u with ⟨e' | ⟨⟩, u'⟩ <;> rw [dropped] at failed
  · cases failed
    have kept := (Generation.keepsDirs_copyTreeFrom templateDir dir deepestPath).of_done copied
    obtain ⟨fault, dir'⟩ := dropRules_eq_error (opens.keeps kept) dropped
    refine .inl ⟨fault, fun fit => fit.2 ?_⟩
    have whole := congrFun (Generation.view_of_copyTreeFrom proper apart vacant copied) [rulesFile]
    rwa [kept.placeOf, ← Tree.view_eq_dir_iff, whole, Tree.view_eq_dir_iff] at dir'
  dsimp only at failed
  obtain ⟨kept, proper', view⟩ := view_of_copied proper opens apart vacant copied dropped
  obtain ⟨fault, stuck⟩ | ⟨rest, error, ⟨content, found, made⟩, rfl⟩ :=
    renderTree_eq_error proper' failed
  · refine .inl ⟨fault, fun fit => stuck ?_⟩
    exact walkable_of_copied proper opens apart vacant fit.1 copied dropped
  · rw [kept.placeOf, view, withoutRules] at found
    split at found
    · cases found
    · rename_i other
      exact .inr ⟨rest, error, other, ⟨content, found, made⟩, rfl⟩

end Fill

end BoardDesign.App
