import BoardDesign.Proofs.File.Passing

/-!
# Invariants that do not depend on some places

* `Covers`: places that a path stands for with all that lies below;
* `Indifferent`: an invariant that is maintained by whatever is done at some places, and by making
  the directories on some ways;
* `indifferent_only`: what lies at one place is maintained by what is done at others;
* `Elsewhere`: nothing but what lies at some places has changed, and directories have been made;
* `indifferent_elsewhere`: that is maintained by what is done at these places.
-/

namespace BoardDesign

open File File.Path

namespace World

variable {here place m : Location} {places way : Location → Prop} {path name : String}
  {before w w' : World} {P : Node → Prop}

/-- The place of a path is one of the places, and so is all that lies below. -/
def Covers (places : Location → Prop) (here : Location) (path : String) : Prop :=
  ∀ rest, places (placeFrom here path ++ rest)

theorem Covers.self (covers : Covers places here path) : places (placeFrom here path) := by
  simpa using covers []

theorem Covers.join (covers : Covers places here path) (isName : IsName name) :
    Covers places here (join path name) := by
  intro rest
  rw [isName.placeFrom_join, List.append_assoc]
  exact covers _

theorem covers_isBelow (h : ∀ m, Tree.isBelow (placeFrom here path) m = true → places m) :
    Covers places here path := fun rest => h _ (Tree.isBelow_iff.mpr ⟨rest, rfl⟩)

/-! ## Nothing has changed elsewhere -/

/-- Since `before` nothing has changed but what lies at the places, and directories have been made
on the way. -/
structure Elsewhere (here : Location) (places way : Location → Prop) (before w : World) : Prop where
  here : w.here = here
  proper : w.files.Proper
  kept : ∀ m n, ¬ places m → before.files.find? m = some n → w.files.find? m = some n
  new : ∀ m n, ¬ places m → w.files.find? m = some n →
    before.files.find? m = some n ∨ n = .dir ∧ way m

theorem elsewhere_self (proper : w.files.Proper) : Elsewhere w.here places way w w :=
  ⟨rfl, proper, fun _ _ _ found => found, fun _ _ _ found => .inl found⟩

namespace Elsewhere

variable (h : Elsewhere here places way before w)
include h

theorem placeOf (path : String) : w.placeOf path = placeFrom here path := by
  rw [placeOf_eq, h.here]

theorem step (here' : w'.here = w.here) (proper : w'.files.Proper)
    (same : ∀ m, ¬ places m → w'.files.find? m = w.files.find? m) :
    Elsewhere here places way before w' := by
  refine ⟨here'.trans h.here, proper, fun m n out found => ?_, fun m n out found => ?_⟩
  · rw [same m out]
    exact h.kept m n out found
  · rw [same m out] at found
    exact h.new m n out found

theorem insert {l : Location} {n : Node}
    (guards : Guards (fun _ => False) w { w with files := w.files.insert (l ++ [name]) n })
    (there : places (l ++ [name])) :
    Elsewhere here places way before { w with files := w.files.insert (l ++ [name]) n } := by
  refine h.step rfl guards.proper fun m out => ?_
  have apart : m ≠ l ++ [name] := fun same => out (same ▸ there)
  exact (find?_insert' (by simp) m).trans (if_neg apart)

theorem write {content : List UInt8} (done : w.write path content = .ok w')
    (there : places (placeFrom here path)) : Elsewhere here places way before w' := by
  have guards : Guards (fun _ => False) w w' := guards_write h.proper done not_false
  obtain ⟨l, name, executable, leads, -, rfl⟩ := write_eq_ok done
  rw [← h.placeOf, leads.placeOf] at there
  exact h.insert guards there

theorem copy {source target : String} (done : w.copy source target = .ok w')
    (there : places (placeFrom here target)) : Elsewhere here places way before w' := by
  have guards : Guards (fun _ => False) w w' := guards_copy h.proper done not_false
  obtain ⟨l, name, content, _, _, leads, -, rfl⟩ := copy_eq_ok done
  rw [← h.placeOf, leads.placeOf] at there
  refine h.step rfl guards.proper fun m out => ?_
  have apart : m ≠ l ++ [name] := fun same => out (same ▸ there)
  exact ((find?_insert' (by simp) m).trans (if_neg apart)).trans
    ((find?_insert' (by simp) m).trans (if_neg apart))

theorem makeDir (done : w.makeDir path = .ok w') (there : places (placeFrom here path)) :
    Elsewhere here places way before w' := by
  have guards : Guards (fun _ => False) w w' := guards_makeDir h.proper done
  obtain ⟨l, name, leads, -, rfl⟩ := makeDir_eq_ok done
  rw [← h.placeOf, leads.placeOf] at there
  exact h.insert guards there

/-- The directories that are made on the way take no place from anything. -/
theorem makeDirs (along : ∀ m, Through here path m → way m) :
    Elsewhere here places way before (w.makeDirs path).2 := by
  have adds := makeDirs_adds w path
  have guards : Guards (fun _ => True) w (w.makeDirs path).2 := guards_makeDirsFrom h.proper _
  refine ⟨adds.keeps.here.trans h.here, guards.proper, fun m n out found => ?_,
    fun m n out found => ?_⟩
  · exact adds.kept m n (h.kept m n out found)
  · have made : (w.makeDirs path).2.files.find? m = w.files.find? m ∨ Through w.here path m :=
      find?_of_makeDirsFrom _ m
    rcases made with same | through
    · exact h.new m n out (same ▸ found)
    · cases n with
      | dir => exact .inr ⟨rfl, along m (h.here ▸ through)⟩
      | file c x => exact h.new m _ out (guards.kept m trivial c x found)

theorem removeFile (done : w.removeFile path = .ok w') (there : places (placeFrom here path)) :
    Elsewhere here places way before w' := by
  have guards : Guards (fun _ => False) w w' := guards_removeFile h.proper done
  obtain ⟨l, located, -, rfl⟩ := removeFile_eq_ok done
  rw [← h.placeOf, ← locate_eq_ok located] at there
  refine h.step rfl guards.proper fun m out => ?_
  have apart : m ≠ l := fun same => out (same ▸ there)
  by_cases root : m = []
  · simp [root]
  · exact (Tree.find?_erase root).trans (if_neg apart)

theorem removeDir (covers : Covers places here path) :
    Elsewhere here places way before (w.removeDir path).2 := by
  have guards : Guards (fun _ => False) w (w.removeDir path).2 := guards_removeDir h.proper path
  refine h.step (here_removeDir w path) guards.proper fun m out => ?_
  refine find?_removeDir path fun below => out ?_
  obtain ⟨rest, rfl⟩ := Tree.isBelow_iff.mp below
  exact h.placeOf path ▸ covers rest

theorem rename {source target : String} (done : w.rename source target = .ok w')
    (covers : Covers places here source) (covers' : Covers places here target) :
    Elsewhere here places way before w' := by
  have guards : Guards (fun _ => False) w w' := guards_rename h.proper done fun _ mem => mem.elim
  refine h.step (here_rename done) guards.proper fun m out => ?_
  refine find?_rename_of_apart done (fun below => out ?_) fun below => out ?_
  · obtain ⟨rest, rfl⟩ := Tree.isBelow_iff.mp below
    exact h.placeOf target ▸ covers' rest
  · obtain ⟨rest, rfl⟩ := Tree.isBelow_iff.mp below
    exact h.placeOf source ▸ covers rest

end Elsewhere

end World

namespace Action

open World

variable {here place : Location} {places way : Location → Prop} {inv : World → Prop}

/-! ## Invariants -/

/-- Whatever is done at the places maintains the invariant, and so does making directories on the
way. -/
structure Indifferent (inv : World → Prop) (here : Location) (places way : Location → Prop) :
    Prop where
  proper : ∀ w, inv w → w.files.Proper
  writeBytes : ∀ path content, places (placeFrom here path) →
    Maintains inv (Action.writeBytes path content)
  copy : ∀ source target, places (placeFrom here target) → Maintains inv (Action.copy source target)
  makeDir : ∀ path, places (placeFrom here path) → Maintains inv (Action.makeDir path)
  makeDirs : ∀ path, (∀ m, Through here path m → way m) → Maintains inv (Action.makeDirs path)
  removeFile : ∀ path, places (placeFrom here path) → Maintains inv (Action.removeFile path)
  removeDir : ∀ path, Covers places here path → Maintains inv (Action.removeDir path)
  rename : ∀ source target, Covers places here source → Covers places here target →
    Maintains inv (Action.rename source target)

theorem indifferent_only (P : Node → Prop) :
    Indifferent (Only here place P) here (· ≠ place) (· ≠ place) where
  proper := fun _ h => h.proper
  writeBytes := fun _ content apart => maintains_writeBytes content apart
  copy := fun source _ apart => maintains_copy source apart
  makeDir := fun _ apart => maintains_makeDir apart
  makeDirs := fun _ off => maintains_makeDirs fun through => off _ through rfl
  removeFile := fun path _ => maintains_removeFile path
  removeDir := fun path _ => maintains_removeDir path
  rename := fun source _ _ apart => maintains_rename source fun below => by
    obtain ⟨rest, same⟩ := Tree.isBelow_iff.mp below
    exact apart rest same.symm

theorem indifferent_elsewhere (before : World) :
    Indifferent (Elsewhere here places way before) here places way where
  proper := fun _ h => h.proper
  writeBytes := fun _ _ there => maintains_changing fun _ _ h done => h.write done there
  copy := fun _ _ there => maintains_changing fun _ _ h done => h.copy done there
  makeDir := fun _ there => maintains_changing fun _ _ h done => h.makeDir done there
  makeDirs := fun _ along _ h => h.makeDirs along
  removeFile := fun _ there => maintains_changing fun _ _ h done => h.removeFile done there
  removeDir := fun _ covers _ h => h.removeDir covers
  rename := fun _ _ covers covers' =>
    maintains_changing fun _ _ h done => h.rename done covers covers'

end Action

end BoardDesign
