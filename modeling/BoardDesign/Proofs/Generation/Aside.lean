import BoardDesign.Proofs.File.Indifferent
import BoardDesign.Proofs.Generation.AllOrNothing

/-!
# Output that passes a place by

Output is put at its place, beside it and on the way to it. A place that is none of these is passed
by, unless it lies in a directory that is replaced.

* `Aside`: a place that lies neither on the way to an output nor beside it;
* `Room`: the places that an output needs beside it;
* `maintains_replaceDir`: what is maintained when a directory is replaced, where the place itself
  matters only if the new directory can be filled;
* `maintains_copyTreeFrom`, `maintains_writeFiles`: copied trees, and files that are written
  together.
-/

namespace BoardDesign

open File File.Path World Action

variable {α : Type} {here place : Location} {P : Node → Prop} {inv : World → Prop} {w : World}
  {path target : String}

namespace Generation

/-! ## A directory that is replaced -/

/-- The place lies neither on the way to an output nor at or below what is put beside it. -/
structure Aside (here place : Location) (target : String) : Prop where
  way : ¬ Through here target place
  beside : Beside (· = place) here target

theorem maintains_onPath {a : Action Fault α} (path : String) (h : Maintains inv a) :
    Maintains inv (onPath path a) := maintains_mapError h _

/-- There is room beside an output, and its parents are directories on the way. -/
structure Room (here : Location) (places way : Location → Prop) (target : String) : Prop where
  staging : Covers places here (sibling target "staging")
  old : Covers places here (sibling target "old")
  parents : ∀ parent, parent? target = some parent → ∀ m, Through here parent m → way m

theorem Aside.room (aside : Aside here place target) : Room here (· ≠ place) (· ≠ place) target where
  staging := aside.beside.staging
  old := aside.beside.old
  parents := fun _ above _ through same => aside.way (same ▸ through.of_parent above)

section Indifferent

variable {places way : Location → Prop} (ind : Indifferent inv here places way)
include ind

theorem maintains_removeIfThere (covers : Covers places here path) :
    Maintains inv (removeIfThere path) := by
  refine maintains_bind (Reads.ask _).maintains fun there => ?_
  split
  · exact maintains_onPath path (ind.removeDir path covers)
  · exact maintains_pure _

section Room

variable (room : Room here places way target)
include room

theorem maintains_makeParent : Maintains inv (makeParent target) := by
  unfold makeParent
  cases above : parent? target with
  | none => exact maintains_pure _
  | some parent =>
    have made : Maintains inv (Action.makeDirs parent) := ind.makeDirs _ (room.parents parent above)
    exact maintains_ite (maintains_onPath parent made) (maintains_pure _)

theorem maintains_makeStaging : Maintains inv (makeStaging target) := by
  refine maintains_bind (maintains_makeParent ind room) fun _ => ?_
  refine maintains_bind (maintains_removeIfThere ind room.staging) fun _ => ?_
  exact maintains_onPath _ (ind.makeDir _ room.staging.self)

theorem maintains_swapIn (covers : Covers places here target) :
    Maintains inv (swapIn (sibling target "staging") target) := by
  have intoPlace : Maintains inv (Action.rename (sibling target "staging") target) :=
    ind.rename _ _ room.staging covers
  refine maintains_bind (Reads.ask _).maintains fun there => ?_
  split
  · exact maintains_onPath _ intoPlace
  refine maintains_bind (maintains_removeIfThere ind room.old) fun _ => ?_
  refine maintains_bind (maintains_onPath _ (ind.rename _ _ covers room.old)) fun _ => ?_
  refine maintains_bind (maintains_attempt intoPlace) fun placed => ?_
  split
  · have back : Maintains inv (Action.rename (sibling target "old") target) :=
      ind.rename _ _ room.old covers
    exact maintains_bind (maintains_ignoring back) fun _ => maintains_throw _
  · exact maintains_removeIfThere ind room.old

/-- The place itself matters only if the new directory can be filled. -/
theorem maintains_replaceDir {fill : String → Action Error α} (force : Bool)
    (fills : Maintains inv (fill (sibling target "staging")))
    (covers : ∀ u x v, u.Filled (sibling target "staging") [] u →
      fill (sibling target "staging") u = (.ok x, v) → Covers places here target) :
    Maintains inv (replaceDir target force fill) := by
  intro w h
  rw [replaceDir_eq]
  split
  · exact h
  refine maintains_bindAt (maintains_makeStaging ind room) (fun w _ u before made after => ?_) w h
  rcases filled : fill (sibling target "staging") u with ⟨e | x, v⟩
  · rw [fillAndSwap_of_error filled]
    exact ind.removeDir _ room.staging v (fills.of_done after filled)
  · have empty := (staging_of_makeStaging (ind.proper w before) made).filled
    have swapped := maintains_swapIn ind room (covers u x v empty filled) v
      (fills.of_done after filled)
    rw [fillAndSwap_of_ok filled]
    rcases done : swapIn (sibling target "staging") target v with ⟨_ | _, _⟩ <;>
      rw [done] at swapped <;> exact swapped

end Room

/-! ## Copied trees -/

/-- The entries of a directory have names. -/
theorem maintains_readDir {f : List String → Action Error α}
    (h : ∀ names, (∀ name ∈ names, IsName name) → Maintains inv (f names)) :
    Maintains inv (onPath path (Action.readDir path) >>= f) := by
  have reads : Reads (onPath path (Action.readDir path)) := (Reads.reading _).mapError _
  refine maintains_bindAt reads.maintains fun w names w' before done after => ?_
  refine h names (fun name mem => ?_) w' after
  exact isName_of_entriesAt (ind.proper w before) (reading_of_mapError done) mem

theorem maintains_copyTreeFrom {source : String} (covers : Covers places here target)
    (fuel : Nat) : Maintains inv (copyTreeFrom source target fuel) := by
  induction fuel generalizing source target with
  | zero => exact maintains_throw _
  | succ fuel ih =>
    refine maintains_readDir ind fun names isName => maintains_forM fun name mem => ?_
    have below := covers.join (isName name mem)
    refine maintains_bind (Reads.ask _).maintains fun isDir => ?_
    split
    · exact maintains_bind (maintains_onPath _ (ind.makeDir _ below.self)) fun _ => ih below
    · exact maintains_onPath _ (ind.copy _ _ below.self)

end Indifferent

/-! ## Files that are written together -/

theorem maintains_stageFiles {files : List (String × String)}
    (apart : ∀ f ∈ files, placeFrom here (sibling f.1 "tmp") ≠ place) (staged : List String) :
    Maintains (Only here place P) (stageFiles staged files) := by
  induction files generalizing staged with
  | nil => exact maintains_pure _
  | cons f rest ih =>
    obtain ⟨path, text⟩ := f
    have first := maintains_writeText (P := P) text (apart _ (.head _))
    refine maintains_bind (maintains_attempt first) fun r => ?_
    cases r with
    | error fault =>
      refine maintains_bind (maintains_forM fun t _ => ?_) fun _ => maintains_throw _
      exact maintains_ignoring (maintains_removeFile t)
    | ok _ => exact ih (fun f mem => apart f (.tail _ mem)) _

theorem only_of_renameFiles {files : List (String × String)} (h : Only here place P w)
    (apart : ∀ f ∈ files, placeFrom here f.1 ≠ place)
    (noDirs : ∀ f ∈ files, w.files.find? (w.placeOf (sibling f.1 "tmp")) ≠ some .dir) :
    Only here place P
      ((files.forM fun f => onPath f.1 (Action.rename (sibling f.1 "tmp") f.1)) w).2 := by
  induction files generalizing w with
  | nil => exact h
  | cons f rest ih =>
    change Only here place P ((onPath f.1 (Action.rename (sibling f.1 "tmp") f.1) >>= fun _ =>
      rest.forM fun f => onPath f.1 (Action.rename (sibling f.1 "tmp") f.1)) w).2
    rw [bind_apply, onPath, mapError, Action.rename, changing]
    cases done : w.rename (sibling f.1 "tmp") f.1 with
    | error e => exact h
    | ok w' =>
      have noDir := noDirs f (.head _)
      have after := h.passesBy
        (passesBy_renameFile h.proper done noDir (h.placeOf f.1 ▸ apart f (.head _)))
      refine ih after (fun f mem => apart f (.tail _ mem)) fun f mem dir => ?_
      rw [after.placeOf, ← h.placeOf] at dir
      exact noDirs f (.tail _ mem) (noNewDirs_rename h.proper noDir done _ dir)

theorem maintains_writeFiles {files : List (String × String)}
    (apart : ∀ f ∈ files, placeFrom here f.1 ≠ place)
    (apart_tmp : ∀ f ∈ files, placeFrom here (sibling f.1 "tmp") ≠ place) :
    Maintains (Only here place P) (writeFiles files) := by
  refine maintains_bindAt (maintains_stageFiles apart_tmp []) fun w _ w' _ done after => ?_
  obtain ⟨same, -, noDirs⟩ := noDirs_of_stageFiles done
  refine only_of_renameFiles after apart fun f mem => ?_
  rw [placeOf_eq, same]
  exact noDirs f mem

end Generation

end BoardDesign
