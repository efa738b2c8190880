import BoardDesign.Proofs.Board.Content
import BoardDesign.Proofs.Board.Making
import BoardDesign.Proofs.Run.History
import BoardDesign.Proofs.Run.Holding
import BoardDesign.Proofs.Run.LockPlace

/-!
# What passes the lock of a board by

Neither the stages of a run nor its application put anything where the lock of the board lies. Tools
may do so, unless it is said that they do not.

* `Tool.Launcher.PassesBy`: programs that put nothing at a place;
* `Tool.maintains_logged` and its like: tools and their logs;
* `Board.passes_generateBoard`: the board made anew;
* `Run.maintains_perform`: a task with the cache around it;
* `Run.maintains_runBuild`, `Board.maintains_preparePlatform`: a build, and the simulator's files.
-/

namespace BoardDesign

open File File.Path World Action
open Stage (Error)

variable {α ε : Type} {here place : Location} {P : Node → Prop} {inv : World → Prop} {w : World}
  {path target dir log : String}

/-! ## Tools -/

namespace Tool

variable {c : Call}

/-- Whatever becomes of the programs that are started, they put nothing at the place. -/
def Launcher.PassesBy (place : Location) (launch : Launcher) : Prop :=
  ∀ i w p, w.files.Proper → launch i w = .ok p →
    ∀ stop time, World.PassesBy place w (p.progress stop time).world

theorem maintains_openLog (off : ¬ Through here log place) :
    Maintains (Only here place P) (openLog log) := by
  have empty : Maintains (Only here place P) ((Action.writeBytes log []).mapError (Error.file log)) :=
    maintains_mapError (maintains_writeBytes _ (ne_of_not_through off)) _
  unfold openLog
  cases above : parent? log with
  | none => exact empty
  | some parent =>
    have made : Maintains (Only here place P) (Action.makeDirs parent) :=
      maintains_makeDirs fun through => off (through.of_parent above)
    exact maintains_bind (maintains_mapError made _) fun _ => empty

theorem maintains_writeLog (apart : placeFrom here log ≠ place) (output : List UInt8) :
    Maintains (Only here place P) (writeLog log output) := by
  refine maintains_bind (Reads.ask _).maintains fun there => ?_
  split
  · exact maintains_mapError (maintains_writeBytes _ apart) _
  · exact maintains_pure _

section PassesBy

variable (passes : c.launch.PassesBy place)
include passes

/-- What follows the start of a program finds a process that passes the place by. -/
theorem maintains_start {f : Process → Action Error α}
    (h : ∀ p w, Only here place P w →
      (∀ stop time, World.PassesBy place w (p.progress stop time).world) →
        Only here place P (f p w).2) :
    Maintains (Only here place P) (c.start >>= f) := by
  have reads : Reads c.start := Reads.reading _
  refine maintains_bindAt reads.maintains fun w p w' before done after => ?_
  obtain rfl := reads.same done
  refine h p w' after (passes c.invocation w' p before.proper ?_)
  have launched := congrArg Prod.fst done
  change (c.launch c.invocation w').mapError c.launchError = .ok p at launched
  cases result : c.launch c.invocation w' with
  | error e =>
    rw [result] at launched
    cases launched
  | ok p' =>
    rw [result] at launched
    cases launched
    rfl

theorem maintains_captured (off : ¬ Through here log place) :
    Maintains (Only here place P) (c.captured log) := by
  refine maintains_bind (maintains_openLog off) fun _ =>
    maintains_start passes fun p w holds left => ?_
  exact maintains_bind (maintains_writeLog (ne_of_not_through off) _) (fun _ => maintains_pure _) _
    (holds.passesBy (left none p.lifetime))

theorem maintains_logged (off : ¬ Through here log place) (l : Limits) :
    Maintains (Only here place P) (c.logged log l) := by
  refine maintains_bind (maintains_openLog off) fun _ =>
    maintains_start passes fun p w holds left => ?_
  obtain ⟨stop, time, seen⟩ := exists_progress_of_supervised p l
  exact maintains_bind (maintains_writeLog (ne_of_not_through off) _) (fun _ => maintains_pure _) _
    (holds.passesBy (seen ▸ left stop time))

theorem maintains_shown (l : Limits) : Maintains (Only here place P) (c.shown l) := by
  refine maintains_start passes fun p w holds left => ?_
  obtain ⟨stop, time, seen⟩ := exists_progress_of_supervised p l
  have after : Only here place P (p.supervised l).2.world := holds.passesBy (seen ▸ left stop time)
  exact ⟨after.here, after.proper, after.only⟩

end PassesBy

end Tool

/-! ## The board made anew -/

namespace Board

variable {ws : Workspace} {board resourcesDir zephyrBase : String} {g : Graph.ValidDesign}

/-- The first file of a board lies below the new directory, whatever the board is called. -/
theorem placeFrom_kconfig (noUp : ".." ∉ names board) (here : Location) (dir : String) :
    ∃ rest, placeFrom here (join dir ("Kconfig." ++ board)) = placeFrom here dir ++ rest := by
  obtain ⟨first, rest, parts, old⟩ := names_prepend "Kconfig." (by decide) (by decide) board
  have noUp' : ".." ∉ names ("Kconfig." ++ board) := by
    rw [parts]
    refine fun mem => (List.mem_cons.mp mem).elim (fun same => ?_) fun mem => noUp (old _ mem)
    have := congrArg (·.toList.head?) same
    simp at this
  have relative : isAbsolute ("Kconfig." ++ board) = false := by simp [isAbsolute]
  exact ⟨_, by rw [placeFrom_join relative, foldl_enter_of_noUp noUp']⟩

section Ordinary

variable (ordinary : ws.Ordinary board)
include ordinary

theorem passes_writeBoardFiles (g : Graph.ValidDesign) (resourcesDir zephyrBase : String) :
    Maintains (Only here (ws.lockPlace board) P)
      (writeBoardFiles g (ws.target board resourcesDir zephyrBase)
        (sibling (ws.boardDir board) "staging")) := by
  have clear := (Workspace.aside_boardDir ordinary here).beside.staging
  refine maintains_writeBoardFiles (indifferent_only P) clear ?_
  rw [List.forall_mem_cons, List.forall_mem_cons, List.forall_mem_singleton]
  refine ⟨?_, ?_, ?_⟩
  · obtain ⟨rest, place⟩ := placeFrom_kconfig ordinary.noUp here
      (sibling (ws.boardDir board) "staging")
    exact fun same => clear rest (place.symm.trans same)
  · exact Workspace.ne_lockPlace_join _ board (c := 'g') (by decide) (by decide) (by decide)
      (by decide) here
  · exact Workspace.ne_lockPlace_join _ board (c := 's') (by decide) (by decide) (by decide)
      (by decide) here

theorem passes_generateBoard (g : Graph.ValidDesign) (resourcesDir zephyrBase : String) :
    Maintains (Only here (ws.lockPlace board) P)
      (generateBoard g (ws.target board resourcesDir zephyrBase)) := by
  refine maintains_generateBoard (indifferent_only P) (Workspace.aside_boardDir ordinary here).room
    (passes_writeBoardFiles ordinary g resourcesDir zephyrBase) fun u x v empty done => ?_
  exact Workspace.clear_boardDir ordinary
    (relative_of_noSlash (noSlash_of_writeBoardFiles empty done)) here

end Ordinary

end Board

/-! ## The files of the simulator -/

namespace Board

variable {ws : Workspace} {board : String}

theorem maintains_writePlatform (dir name script description : String) :
    Maintains (Only here (ws.lockPlace board) P)
      (writePlatform (PlatformFiles.inDir dir name) script description) := by
  refine maintains_when (maintains_throw _) fun _ =>
    Generation.maintains_writeFiles (fun f mem => ?_) fun f _ =>
      Workspace.ne_lockPlace_sibling f.1 (c := 'p') (by decide) (by decide) (by decide) (by decide)
        here
  rcases List.mem_pair.mp mem with rfl | rfl
  · exact Workspace.ne_lockPlace_join dir name (c := 'c') (by decide) (by decide) (by decide)
      (by decide) here
  · exact Workspace.ne_lockPlace_join dir name (c := 'l') (by decide) (by decide) (by decide)
      (by decide) here

theorem maintains_preparePlatform {account : Generation.Error → ε} {name buildsDir : String}
    {templatesDir : Option String} {translate : String → Action ε String}
    (translates : ∀ path, Maintains (Only here (ws.lockPlace board) P) (translate path)) :
    Maintains (Only here (ws.lockPlace board) P)
      (preparePlatform account name buildsDir templatesDir translate) := by
  have canonical : Reads (Generation.onPath buildsDir (Action.canonical buildsDir)) :=
    (Reads.reading _).mapError _
  refine maintains_bind (canonical.mapError _).maintains fun dir => ?_
  refine maintains_bind (Reads.ask _).maintains fun there =>
    maintains_when (maintains_throw _) fun _ => ?_
  refine maintains_bind ((reads_renderScript _ _ _ _).mapError _).maintains fun script => ?_
  refine maintains_bind (translates _) fun description => ?_
  exact maintains_bind (maintains_mapError (maintains_writePlatform _ _ _ _) _) fun _ =>
    maintains_pure _

end Board

/-! ## The stages of a run -/

namespace Run

variable {s : Setup} {board : String} {r : Run} {t : Task}

theorem isName_log (stage : Stage) : IsName (stage.id ++ ".log") := by
  cases stage <;> exact ⟨by decide, by decide, by decide⟩

theorem maintains_timed {a : Action Error α} (h : Maintains inv a) : Maintains inv (timed a) :=
  maintains_bind (Reads.ask _).maintains fun _ => maintains_bind h fun _ =>
    maintains_bind (Reads.ask _).maintains fun _ => maintains_pure _

theorem maintains_removeDirIfThere (dir : String) :
    Maintains (Only here place P) (removeDirIfThere dir) := by
  refine maintains_bind (Reads.ask _).maintains fun there => ?_
  split
  · exact maintains_mapError (maintains_removeDir dir) _
  · exact maintains_pure _

theorem maintains_keepFile (buildDir : String) {buildsDir relative : String}
    (off : ¬ Through here (join buildsDir relative) place) :
    Maintains (Only here place P) (keepFile buildDir buildsDir relative) := by
  have copied : Maintains (Only here place P) ((Action.copy (join buildDir relative)
      (join buildsDir relative)).mapError (Error.file (join buildsDir relative))) :=
    maintains_mapError (maintains_copy _ (ne_of_not_through off)) _
  refine maintains_bind (Reads.ask _).maintains fun there => ?_
  dsimp only
  split
  · cases above : parent? (join buildsDir relative) with
    | none => exact copied
    | some parent =>
      have made : Maintains (Only here place P) (Action.makeDirs parent) :=
        maintains_makeDirs fun through => off (through.of_parent above)
      exact maintains_bind (maintains_mapError made _) fun _ => copied
  · exact maintains_pure _

theorem maintains_invalidate (c : Stage.Cache) (stage : Stage) :
    Maintains (Only here place P) (c.invalidate stage) := by
  refine maintains_bind (maintains_attempt (maintains_removeFile _)) fun removed => ?_
  split
  · exact maintains_pure _
  · exact maintains_pure _
  · exact maintains_throw _

theorem dir_count (c : Stage.Cache) (hit : Bool) : (c.count hit).dir = c.dir := by
  cases hit <;> rfl

/-- It is the same run, with the same lock and the same records. -/
structure GoesOn (r r' : Run) : Prop where
  board : r'.board = r.board
  lock : r'.lock = r.lock
  dir : r'.cache.dir = r.cache.dir

theorem Fits.of_goesOn {ws : Workspace} {r' : Run} (fits : r.Fits ws board) (h : r.GoesOn r') :
    r'.Fits ws board :=
  ⟨h.dir.trans fits.dir, h.lock ▸ fits.lock, h.board.trans fits.board⟩

theorem yields_checkCache {stage : Stage} {d : ContentHash} {outputs : List String} :
    Yields (fun x => r.GoesOn x.2) (r.checkCache stage d outputs) := by
  have looks : Yields (fun x => x.2.dir = r.cache.dir) (r.cache.lookup stage d outputs) := by
    intro w x w' done
    cases done
    exact dir_count _ _
  refine looks.bind fun x dir => ?_
  dsimp only
  split
  · exact yields_pure ⟨rfl, rfl, dir⟩
  · exact yields_bind fun _ => yields_pure ⟨rfl, rfl, dir⟩

theorem yields_perform : Yields r.GoesOn (r.perform t) := by
  refine yields_checkCache.bind fun x goesOn => ?_
  dsimp only
  split
  · exact yields_pure goesOn
  · exact yields_bind fun _ => yields_bind fun _ =>
      yields_pure ⟨goesOn.board, goesOn.lock, goesOn.dir⟩

section Fits

variable (ordinary : s.workspace.Ordinary board) (fits : r.Fits s.workspace board)
include ordinary fits

theorem not_through_log (stage : Stage) (here : Location) :
    ¬ Through here (r.cache.logPath stage) (s.workspace.lockPlace board) := by
  rw [Stage.Cache.logPath, fits.dir]
  exact Workspace.not_through_stages ordinary (isName_log stage) here

theorem maintains_store (stage : Stage) (d : ContentHash) :
    Maintains (Only here (s.workspace.lockPlace board) P) (r.cache.store stage d) := by
  have off := Workspace.not_through_stagesDir ordinary here
  rw [← fits.dir] at off
  refine maintains_bind (maintains_mapError (maintains_makeDirs off) _) fun _ => ?_
  refine maintains_mapError (maintains_writeText _ (ne_of_not_through ?_)) _
  rw [Stage.Cache.hashPath, fits.dir]
  exact Workspace.not_through_stages ordinary stage.isName_recordName here

/-- A task with the cache around it. -/
theorem maintains_perform
    (body : ∀ r, r.Fits s.workspace board →
      Maintains (Only here (s.workspace.lockPlace board) P) (t.body r)) :
    Maintains (Only here (s.workspace.lockPlace board) P) (r.perform t) := by
  have checks : Maintains (Only here (s.workspace.lockPlace board) P)
      (r.checkCache t.stage t.inputs.hash t.outputs) := by
    refine maintains_bind (Reads.ask _).maintains fun looked => ?_
    exact maintains_ite (maintains_pure _)
      (maintains_bind (maintains_invalidate _ _) fun _ => maintains_pure _)
  refine checks.bind yields_checkCache fun checked goesOn => ?_
  have fits' := fits.of_goesOn goesOn
  refine maintains_ite (maintains_pure _) (maintains_bind (body _ fits') fun x => ?_)
  exact maintains_bind (maintains_store ordinary fits' _ _) fun _ => maintains_pure _

omit fits in
theorem maintains_keepOutputs (buildDir log : String) :
    Maintains (Only here (s.workspace.lockPlace board) P)
      (keepOutputs buildDir (s.workspace.buildsDir board) log) := by
  refine maintains_bind (maintains_removeDirIfThere _) fun _ => ?_
  refine maintains_bind (maintains_forM fun relative mem => maintains_keepFile buildDir ?_)
    fun _ => ?_
  · simp only [keptFiles, List.mem_cons, List.not_mem_nil, or_false] at mem
    obtain rfl | rfl | rfl := mem <;>
      exact Workspace.not_through_builds ordinary (by decide) (by decide) (by decide) here
  · refine maintains_bind (Reads.ask _).maintains fun there => ?_
    split
    · refine maintains_mapError (maintains_copy _ (ne_of_not_through ?_)) _
      exact Workspace.not_through_builds ordinary (by decide) (by decide) (by decide) here
    · exact maintains_pure _

section Tools

variable (passes : s.launch.PassesBy (s.workspace.lockPlace board))
include passes

theorem maintains_runBuild (app : String) :
    Maintains (Only here (s.workspace.lockPlace board) P) (runBuild s r app) := by
  have off : ¬ Through here (s.workspace.buildDir r.board) (s.workspace.lockPlace board) := by
    rw [fits.board]
    exact Workspace.not_through_lockPlace ordinary ⟨by decide, by decide, by decide⟩ (by decide) []
      (by simp) ((ordinary.root.join (by decide)).join ordinary.noUp) (List.append_nil _).symm here
  refine maintains_bind (maintains_removeDirIfThere _) fun _ => ?_
  refine maintains_bind (maintains_mapError (maintains_makeDirs off) _) fun _ => ?_
  refine maintains_bind (Tool.maintains_logged passes (not_through_log ordinary fits _ here) _)
    fun ending => ?_
  split
  · rw [fits.board]
    refine maintains_bind (maintains_keepOutputs ordinary _ _) fun _ => ?_
    exact maintains_when (maintains_throw _) fun _ => maintains_pure _
  · exact maintains_throw _

theorem maintains_translate (devicetree : String) :
    Maintains (Only here (s.workspace.lockPlace board) P) (translate s r devicetree) := by
  refine maintains_bind (Tool.maintains_captured passes (not_through_log ordinary fits _ here))
    fun result => ?_
  dsimp only
  split
  · exact maintains_pure _
  · exact maintains_throw _

/-- The body of a task passes the lock by. -/
def Task.Passes (ws : Workspace) (board : String) (inv : World → Prop) (t : Task) : Prop :=
  ∀ r, r.Fits ws board → Maintains inv (t.body r)

omit fits in
theorem passes_buildTask (app : String) (template : Option String) (r : Run) :
    Yields (Task.Passes s.workspace board (Only here (s.workspace.lockPlace board) P))
      (buildTask s app template r) := by
  refine yields_bind fun _ => yields_bind fun app => yields_bind fun inputs => yields_pure ?_
  refine fun r fits => maintains_bind (maintains_timed ?_) fun _ => maintains_pure _
  refine maintains_bind (maintains_runBuild ordinary fits passes app) fun code => ?_
  exact maintains_bind (Reads.forM fun path _ => reads_requireOutput _ path).maintains fun _ =>
    maintains_pure _

omit fits in
theorem passes_simulatorTask (templatesDir : Option String) (r : Run) :
    Yields (Task.Passes s.workspace board (Only here (s.workspace.lockPlace board) P))
      (simulatorTask s templatesDir r) := by
  refine yields_bind fun _ => yields_bind fun script => yields_bind fun inputs => yields_pure ?_
  refine fun r fits => maintains_bind (maintains_timed ?_) fun _ => maintains_pure _
  exact Board.maintains_preparePlatform fun path => maintains_translate ordinary fits passes path

/-- The simulator is run when the stage has been entered. -/
theorem maintains_simulate (timeout : Option Nat)
    (enters : Maintains (Only here (s.workspace.lockPlace board) P) (r.enter .simulate)) :
    Maintains (Only here (s.workspace.lockPlace board) P) (simulate s r timeout) := by
  refine enters.bind (yields_enter fits _) fun r ⟨fits, _⟩ => ?_
  refine maintains_bind (Reads.forM fun path _ => reads_requireFile _ path).maintains fun _ => ?_
  refine maintains_bind (maintains_timed ?_) fun _ =>
    maintains_bind (Reads.ofExcept _).maintains fun _ => maintains_pure _
  exact maintains_ite (Tool.maintains_shown passes _)
    (Tool.maintains_logged passes (not_through_log ordinary fits _ here) _)

end Tools

theorem passes_boardTask (g : Graph.ValidDesign) :
    Yields (Task.Passes s.workspace board (Only here (s.workspace.lockPlace board) P))
      (boardTask s g r) := by
  refine yields_bind fun soc => yields_bind fun inputs => yields_pure ?_
  refine fun r' _ => maintains_bind (maintains_timed (maintains_mapError ?_ _)) fun _ =>
    maintains_pure _
  rw [fits.board]
  exact Board.passes_generateBoard ordinary g _ _

end Fits

end Run

end BoardDesign
