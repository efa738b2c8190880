import BoardDesign.Generation.Output
import BoardDesign.Proofs.File.Reading

/-!
# What generated output may touch

Output is made beside its place and moved there, so it touches its place, the staging place and
the place of what is moved aside.

* `guards_replaceDir`: a replaced directory guards what is at none of these places, and what the
  new directory does not hold;
* `guards_writeFiles`: files that are written together touch their places and those of their
  temporary siblings;
* `guards_copyTreeFrom`: a copied tree touches what lies below its target.
-/

namespace BoardDesign

open File File.Path World Action Generation

/-! ## There and back -/

namespace World

variable {w w' w'' : World} {source target : String} {guarded : Location → Prop}

/-- What is moved aside and back again is where it was. -/
theorem guards_renameBack (proper : w.files.Proper) (h : w.rename source target = .ok w')
    (h' : w'.rename target source = .ok w'')
    (free : ∀ rest, ¬ guarded (w.placeOf target ++ rest)) : Guards guarded w w'' := by
  have first : Guards guarded w w' :=
    guards_rename proper h fun rest mem => absurd mem (free rest)
  have same (path : String) : w'.placeOf path = w.placeOf path := by
    rw [placeOf_eq, placeOf_eq, first.here]
  -- Only the guarded places at which things come back matter for the second step.
  have second : Guards (fun l => ¬ ∃ rest, l = w.placeOf source ++ rest) w' w'' :=
    guards_rename first.proper h' fun rest mem => absurd ⟨rest, by rw [same]⟩ mem
  refine ⟨second.here.trans first.here, second.proper, fun l mem c x found => ?_⟩
  by_cases back : ∃ rest, l = w.placeOf source ++ rest
  · obtain ⟨rest, rfl⟩ := back
    have there := find?_of_rename h' rest
    rw [same, same, find?_of_rename h rest] at there
    rw [← there, found]
  · exact first.kept l mem c x (second.kept l back c x found)

end World

namespace Generation

variable {α : Type} {guarded : Location → Prop} {here : Location} {w : World} {path target : String}

theorem guards_onPath {a : Action Fault α} (path : String) (h : Action.Guards guarded here a) :
    Action.Guards guarded here (onPath path a) := guards_mapError h _

theorem guards_removeIfThere (path : String) : Action.Guards guarded here (removeIfThere path) := by
  refine guards_bind (Reads.ask _).guards fun there => ?_
  split
  · exact guards_onPath path (guards_removeDir path)
  · exact guards_pure _

theorem placeFrom_staging_ne (target : String) (here rest rest' : Location) :
    placeFrom here (sibling target "old") ++ rest ≠
      placeFrom here (sibling target "staging") ++ rest' := by
  rw [placeFrom_sibling target (by decide) (by decide), placeFrom_sibling target (by decide) (by decide)]
  intro same
  rw [List.append_assoc, List.append_assoc] at same
  have names := (List.cons.inj (List.append_cancel_left same)).1
  simp [siblingName, String.append_right_inj] at names

/-- Places beside an output that nothing guarded lies at or below. -/
structure Beside (guarded : Location → Prop) (here : Location) (target : String) : Prop where
  staging : ∀ rest, ¬ guarded (placeFrom here (sibling target "staging") ++ rest)
  old : ∀ rest, ¬ guarded (placeFrom here (sibling target "old") ++ rest)

/-- The staging place and what lies below it, where it would come to lie at a guarded place. -/
def Staged (guarded : Location → Prop) (here : Location) (target : String) (l : Location) : Prop :=
  ∃ rest, l = placeFrom here (sibling target "staging") ++ rest ∧
    guarded (placeFrom here target ++ rest)

/-- No file is staged for a guarded place. -/
def NoneStaged (guarded : Location → Prop) (target : String) (w : World) : Prop :=
  ∀ l, Staged guarded w.here target l → ∀ content executable,
    w.files.find? l ≠ some (.file content executable)

theorem NoneStaged.of_guards {w' : World} (h : NoneStaged guarded target w)
    (guards : World.Guards (Staged guarded w.here target) w w') : NoneStaged guarded target w' := by
  intro l staged c x found
  rw [guards.here] at staged
  exact h l staged c x (guards.kept l staged c x found)

/-- The new directory moved into its place. -/
theorem guards_renameStaging {w' : World} (proper : w.files.Proper)
    (none : NoneStaged guarded target w)
    (h : w.rename (sibling target "staging") target = .ok w') : World.Guards guarded w w' :=
  guards_rename proper h fun rest mem => none _ ⟨rest, rfl, mem⟩

/-- What is moved aside leaves what is staged where it is. -/
theorem NoneStaged.aside {w' : World} (h : NoneStaged guarded target w) (proper : w.files.Proper)
    (moved : w.rename target (sibling target "old") = .ok w') : NoneStaged guarded target w' :=
  h.of_guards (guards_rename proper moved fun rest ⟨rest', same, _⟩ =>
    absurd same (placeFrom_staging_ne target w.here rest rest'))

theorem guardsAt_swapIn (proper : w.files.Proper) (beside : Beside guarded w.here target)
    (none : NoneStaged guarded target w) :
    GuardsAt guarded (swapIn (sibling target "staging") target) w := by
  refine guardsAt_bind ((Reads.ask _).guardsAt proper) fun there w₁ asked _ => ?_
  obtain rfl : w = w₁ := congrArg Prod.snd asked
  split
  · exact guardsAt_mapError (guardsAt_changing proper fun w' done =>
      guards_renameStaging proper none done) _
  refine guardsAt_bind (guards_removeIfThere _ w proper rfl) fun _ w₂ removed guards₂ => ?_
  have none₂ := none.of_guards ((guards_removeIfThere _).of_done proper removed)
  have old₂ : ∀ rest, ¬ guarded (w₂.placeOf (sibling target "old") ++ rest) := by
    rw [placeOf_eq, guards₂.here]
    exact beside.old
  -- The way back is open until the new directory is in its place, so from here on the steps are
  -- taken together.
  have first : GuardsAt guarded (onPath target (rename target (sibling target "old"))) w₂ :=
    guardsAt_mapError (guardsAt_changing guards₂.proper fun w' done =>
      guards_rename guards₂.proper done fun rest mem => absurd mem (old₂ rest)) _
  rw [GuardsAt] at first ⊢
  rw [bind_apply]
  rcases aside : onPath target (rename target (sibling target "old")) w₂ with ⟨_ | _, w₃⟩ <;>
    rw [aside] at first
  · exact first
  have moved := changing_of_mapError aside
  dsimp only
  rw [bind_apply, Action.attempt, Action.rename, changing]
  cases placed : w₃.rename (sibling target "staging") target with
  | ok w₄ =>
    have guards₄ := first.trans
      (guards_renameStaging first.proper (none₂.aside guards₂.proper moved) placed)
    exact guards₄.trans (guards_removeIfThere _ w₄ guards₄.proper rfl)
  | error fault =>
    dsimp only
    rw [bind_apply, Action.ignoring, Action.rename, changing]
    cases back : w₃.rename (sibling target "old") target with
    | ok w₄ => exact guards_renameBack guards₂.proper moved back old₂
    | error _ => exact first

/-- Nothing is staged when a staging directory has just been made. -/
theorem noneStaged_of_makeDir {w' : World} (proper : w.files.Proper)
    (h : w.makeDir (sibling target "staging") = .ok w') : NoneStaged guarded target w' := by
  obtain ⟨l, name, leads, free, rfl⟩ := makeDir_eq_ok h
  rintro _ ⟨rest, rfl, -⟩ c x found
  have place := leads.placeOf
  rw [placeOf_eq] at place
  rw [place] at found
  by_cases last : rest = []
  · subst last
    rw [List.append_nil, Tree.find?_insert (by simp), if_pos rfl] at found
    cases found
  · have below := proper.closed.find?_below (l := l ++ [name]) (by simp [free]) last
    rw [Tree.find?_insert (by simp), if_neg (by simpa using last), below] at found
    cases found

/-- A new directory filled beside the place where it belongs, and moved there. -/
def renew (target : String) (fill : String → Action Error α) : Action Error α := do
  removeIfThere (sibling target "staging")
  onPath (sibling target "staging") (Action.makeDir (sibling target "staging"))
  match ← Action.attempt (fill (sibling target "staging")) with
  | .error e =>
    Action.ignoring (Action.removeDir (sibling target "staging"))
    throw e
  | .ok result =>
    swapIn (sibling target "staging") target
    return result

/-- The new directory is filled and takes the place of the old one. -/
theorem guards_renew {fill : String → Action Error α} (beside : Beside guarded here target)
    (fills : Action.Guards (fun l => guarded l ∨ Staged guarded here target l) here
      (fill (sibling target "staging"))) :
    Action.Guards guarded here (renew target fill) := by
  refine guards_bind (guards_removeIfThere _) fun _ w proper same => ?_
  subst same
  refine guardsAt_bind (guards_onPath _ (guards_makeDir _) w proper rfl) fun _ w₁ made guards₁ => ?_
  have none₁ : NoneStaged guarded target w₁ :=
    noneStaged_of_makeDir proper (changing_of_mapError made)
  refine guardsAt_bind ?_ fun r w₂ done guards₂ => ?_
  · exact guards_attempt (fills.mono fun l mem => .inl mem) w₁ guards₁.proper guards₁.here
  cases r with
  | error e =>
    exact guards_bind (guards_ignoring (guards_removeDir _)) (fun _ => guards_throw e) w₂
      guards₂.proper rfl
  | ok result =>
    have left : (fill (sibling target "staging") w₁).2 = w₂ := congrArg Prod.snd done
    have all := fills w₁ guards₁.proper guards₁.here
    rw [GuardsAt, left] at all
    have none₂ : NoneStaged guarded target w₂ := none₁.of_guards <|
      all.mono fun l mem => .inr (guards₁.here ▸ mem)
    have here₂ : w₂.here = w.here := guards₂.here.trans guards₁.here
    exact guardsAt_bind (guardsAt_swapIn guards₂.proper (here₂.symm ▸ beside) none₂)
      fun _ w₃ _ guards₃ => guards_pure result w₃ guards₃.proper rfl

/-- A replaced directory guards the places beside it and those that the new directory has no file
for. -/
theorem guards_replaceDir {fill : String → Action Error α} (force : Bool)
    (beside : Beside guarded here target)
    (fills : Action.Guards (fun l => guarded l ∨ Staged guarded here target l) here
      (fill (sibling target "staging"))) :
    Action.Guards guarded here (replaceDir target force fill) := by
  refine guards_bind (Reads.ask _).guards fun there => ?_
  refine guards_when (guards_throw _) fun _ => ?_
  dsimp only
  split
  · exact guards_when (guards_onPath _ (guards_makeDirs _)) fun _ => guards_renew beside fills
  · exact guards_renew beside fills

/-! ## Files that are written together -/

/-- No directory is made. -/
def NoNewDirs (w w' : World) : Prop :=
  ∀ l, w'.files.find? l = some .dir → w.files.find? l = some .dir

theorem NoNewDirs.trans {w' w'' : World} (h : NoNewDirs w w') (h' : NoNewDirs w' w'') :
    NoNewDirs w w'' := fun l dir => h l (h' l dir)

theorem noNewDirs_write {w' : World} {content : List UInt8} (h : w.write path content = .ok w') :
    NoNewDirs w w' ∧ w'.files.find? (w.placeOf path) ≠ some .dir := by
  obtain ⟨l, name, executable, leads, noDir, rfl⟩ := write_eq_ok h
  refine ⟨fun m dir => ?_, ?_⟩
  · by_cases root : m = []
    · simp [root]
    rw [Tree.find?_insert root] at dir
    split at dir
    · cases dir
    · exact dir
  · rw [leads.placeOf, Tree.find?_insert (by simp), if_pos rfl]
    simp

theorem noNewDirs_rename {w' : World} {source : String} (proper : w.files.Proper)
    (noDir : w.files.find? (w.placeOf source) ≠ some .dir) (h : w.rename source target = .ok w') :
    NoNewDirs w w' := by
  obtain ⟨k, old, l, name, leads, leads', ⟨rfl, -⟩ | ⟨rfl, -, -⟩⟩ := rename_eq_ok' h
  · exact fun _ dir => dir
  · rw [leads.placeOf] at noDir
    intro m dir
    by_cases root : m = []
    · simp [root]
    rw [Tree.find?_move (by simp) root] at dir
    split at dir
    · obtain ⟨rest, rfl⟩ := Tree.isBelow_iff.mp ‹_›
      rw [List.drop_left] at dir
      by_cases last : rest = []
      · subst last
        rw [List.append_nil] at dir
        exact absurd dir noDir
      · rw [proper.closed.find?_below noDir last] at dir
        cases dir
    · split at dir
      · cases dir
      · exact dir

/-- Neither a file's place nor that of its temporary sibling is guarded. -/
def Free (guarded : Location → Prop) (here : Location) (path : String) : Prop :=
  ¬ guarded (placeFrom here path) ∧ ¬ guarded (placeFrom here (sibling path "tmp"))

theorem guards_stageFiles {files : List (String × String)}
    (free : ∀ f ∈ files, Free guarded here f.1) (staged : List String) :
    Action.Guards guarded here (stageFiles staged files) := by
  induction files generalizing staged with
  | nil => exact guards_pure _
  | cons f rest ih =>
    obtain ⟨path, text⟩ := f
    refine guards_bind (guards_attempt (guards_writeBytes _ (free _ (.head _)).2)) fun r => ?_
    cases r with
    | error fault =>
      refine guards_bind (guards_forM fun t _ => ?_) fun _ => guards_throw _
      exact guards_ignoring (guards_removeFile t)
    | ok _ => exact ih (fun f mem => free f (.tail _ mem)) _

/-- When all files are staged, what is staged are no directories. -/
theorem noDirs_of_stageFiles {files : List (String × String)} {staged : List String} {w' : World}
    (done : stageFiles staged files w = (.ok (), w')) :
    w'.here = w.here ∧ NoNewDirs w w' ∧
      ∀ f ∈ files, w'.files.find? (w.placeOf (sibling f.1 "tmp")) ≠ some .dir := by
  induction files generalizing staged w with
  | nil =>
    cases done
    exact ⟨rfl, fun _ dir => dir, nofun⟩
  | cons f rest ih =>
    obtain ⟨path, text⟩ := f
    rw [stageFiles, bind_apply, Action.attempt, writeText, writeBytes, changing] at done
    cases written : w.write (sibling path "tmp") (Text.Utf8.bytes text) with
    | error fault =>
      rw [written] at done
      dsimp only at done
      rw [bind_apply] at done
      split at done <;> cases done
    | ok w₁ =>
      rw [written] at done
      obtain ⟨here, noNew, later⟩ := ih done
      obtain ⟨first, placed⟩ := noNewDirs_write written
      have here₁ : w₁.here = w.here := by
        obtain ⟨_, _, _, _, _, rfl⟩ := write_eq_ok written
        rfl
      have same (path : String) : w₁.placeOf path = w.placeOf path := by
        rw [placeOf_eq, placeOf_eq, here₁]
      refine ⟨here.trans here₁, first.trans noNew, fun f mem => ?_⟩
      rcases List.mem_cons.mp mem with rfl | mem
      · exact fun dir => placed (noNew _ dir)
      · exact same _ ▸ later f mem

theorem guardsAt_renameFiles {files : List (String × String)} (proper : w.files.Proper)
    (free : ∀ f ∈ files, Free guarded w.here f.1)
    (noDirs : ∀ f ∈ files, w.files.find? (w.placeOf (sibling f.1 "tmp")) ≠ some .dir) :
    GuardsAt guarded
      (files.forM fun f => onPath f.1 (Action.rename (sibling f.1 "tmp") f.1)) w := by
  induction files generalizing w with
  | nil => exact guards_pure _ w proper rfl
  | cons f rest ih =>
    have noDir := noDirs f (.head _)
    refine guardsAt_bind (guardsAt_mapError (guardsAt_changing proper fun w' done =>
      guards_renameFile proper done noDir (free f (.head _)).1) _) fun _ w' done guards => ?_
    have noNew := noNewDirs_rename proper noDir (changing_of_mapError done)
    refine ih guards.proper (fun f mem => guards.here.symm ▸ free f (.tail _ mem)) fun f mem dir => ?_
    rw [placeOf_eq, guards.here] at dir
    exact noDirs f (.tail _ mem) (noNew _ dir)

theorem guards_writeFiles {files : List (String × String)}
    (free : ∀ f ∈ files, Free guarded here f.1) :
    Action.Guards guarded here (writeFiles files) := by
  rintro w proper rfl
  refine guardsAt_bind (guards_stageFiles free [] w proper rfl) fun _ w' done guards => ?_
  obtain ⟨here, _, noDirs⟩ := noDirs_of_stageFiles done
  refine guardsAt_renameFiles guards.proper (here.symm ▸ free) fun f mem => ?_
  rw [placeOf_eq, here]
  exact noDirs f mem

/-! ## Copied trees -/

/-- Nothing guarded lies at or below the place of a path. -/
def Clear (guarded : Location → Prop) (here : Location) (path : String) : Prop :=
  ∀ rest, ¬ guarded (placeFrom here path ++ rest)

theorem Clear.join (h : Clear guarded here path) {name : String} (isName : IsName name) :
    Clear guarded here (join path name) := by
  intro rest
  rw [isName.placeFrom_join, List.append_assoc]
  exact h _

theorem Clear.free (h : Clear guarded here path) : ¬ guarded (placeFrom here path) := by
  simpa using h []

/-- The entries of a directory have names. -/
theorem guardsAt_readDir {f : List String → Action Error α} (proper : w.files.Proper)
    (h : ∀ names, (∀ name ∈ names, IsName name) → GuardsAt guarded (f names) w) :
    GuardsAt guarded (onPath path (Action.readDir path) >>= f) w := by
  have reads : Reads (onPath path (Action.readDir path)) := (Reads.reading _).mapError _
  refine guardsAt_bind (reads.guardsAt proper) fun names w' done _ => ?_
  obtain rfl : w = w' := (reads w).symm.trans (congrArg Prod.snd done)
  refine h names fun name mem => ?_
  exact isName_of_entriesAt proper (reading_of_mapError done) mem

theorem guards_copyTreeFrom {source : String} (clear : Clear guarded here target) (fuel : Nat) :
    Action.Guards guarded here (copyTreeFrom source target fuel) := by
  induction fuel generalizing source target with
  | zero => exact guards_throw _
  | succ fuel ih =>
    rintro w proper rfl
    refine guardsAt_readDir proper fun names isName => ?_
    refine guards_forM (fun name mem => ?_) w proper rfl
    have below := clear.join (isName name mem)
    refine guards_bind (Reads.ask _).guards fun isDir => ?_
    split
    · exact guards_bind (guards_onPath _ (guards_makeDir _)) fun _ => ih below
    · exact guards_onPath _ (guards_copy _ below.free)

end Generation

end BoardDesign
