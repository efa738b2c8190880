import BoardDesign.Proofs.Run.Records
import BoardDesign.Proofs.Workspace.Steps

/-!
# What spares the records of a board

Everything that a run does to files spares the records of its board, but for the writing of a
record itself. Most of it spares all files that are called like records.

* `Tool.Launcher.Spares`: programs that put no file at some places;
* `guards_acquire`, `guards_setStage`, `guards_release`: the work on the lock;
* `guards_logged` and its like: tools;
* `guards_generateBoard`: the board made anew;
* `guards_runBuild`, `guards_preparePlatform`: a build, and the simulator's files;
* `App.guards_generate`: an application.
-/

namespace BoardDesign

open File File.Path World Action
open Stage (EndsAsRecord Error)

variable {α β ε δ : Type} {guarded : Location → Prop} {here : Location} {w : World} {path : String}

/-! ## The work on the lock -/

namespace Steps

theorem alone_bind (t : Steps ε α) (f : α → Steps ε β) :
    (t >>= f).alone = t.alone >>= fun x => (f x).alone := by
  funext w
  have first : (t >>= f).alone w = (ExceptT.bindCont f (t.alone w).1).run (t.alone w).2 :=
    Work.run_bind t _ w
  rw [first, bind_apply]
  rcases t.alone w with ⟨_ | _, _⟩ <;> rfl

theorem alone_atomic (account : δ → ε) (a : Action δ α) :
    (atomic account a).alone = a.mapError account := by
  funext w
  rw [Workspace.Lock.steps_atomic_eq]
  change ((a w).1.mapError account, (a w).2) = _
  rw [Action.mapError]
  rcases a w with ⟨_ | _, _⟩ <;> rfl

theorem guards_bind {t : Steps ε α} {f : α → Steps ε β} (h : Action.Guards guarded here t.alone)
    (h' : ∀ x, Action.Guards guarded here (f x).alone) :
    Action.Guards guarded here (t >>= f).alone := by
  rw [alone_bind]
  exact Action.guards_bind h h'

theorem guards_pure (x : α) : Action.Guards guarded here (pure x : Steps ε α).alone :=
  Action.guards_pure x

theorem guards_throw (e : ε) : Action.Guards guarded here (throw e : Steps ε α).alone :=
  Action.guards_throw e

theorem guards_atomic {a : Action δ α} (account : δ → ε) (h : Action.Guards guarded here a) :
    Action.Guards guarded here (atomic account a).alone := by
  rw [alone_atomic]
  exact guards_mapError h account

end Steps

namespace Workspace.Lock

open Steps

theorem reads_read (path : String) : Reads (read path).alone := by
  intro w
  rw [read_eq]
  rfl

theorem guards_remove (path : String) : Action.Guards guarded here (remove path).alone := by
  intro w proper same
  have removes : GuardsAt guarded (Action.removeFile path) w :=
    Action.guards_removeFile path w proper same
  rw [remove_eq, GuardsAt]
  change World.Guards guarded w (removed path w).2
  rw [removed]
  rw [GuardsAt, Action.removeFile, changing] at removes
  cases done : w.removeFile path with
  | ok w' =>
    rw [done] at removes
    exact removes
  | error fault => cases fault <;> exact guards_self proper

section Free

variable {h : Holder} (free : ¬ guarded (placeFrom here path))
  (free_private : ¬ guarded (placeFrom here (privatePath path h.token)))
include free free_private

theorem guards_publish : Action.Guards guarded here (publish path h).alone := by
  refine Steps.guards_bind (guards_atomic _ (guards_create _ free_private)) fun _ => ?_
  refine Steps.guards_bind (guards_attempt (guards_link _ free)) fun linked => ?_
  refine Steps.guards_bind (guards_remove _) fun _ => ?_
  split
  · exact Steps.guards_pure _
  · exact Steps.guards_pure _
  · exact Steps.guards_throw _

theorem guards_acquireWithin (board : String) (attempts : Nat) :
    Action.Guards guarded here (acquireWithin path board h attempts).alone := by
  induction attempts with
  | zero =>
    refine Steps.guards_bind (reads_read path).guards fun other => ?_
    cases other <;> exact Steps.guards_throw _
  | succ attempts ih =>
    refine Steps.guards_bind (guards_publish free free_private) fun published => ?_
    split
    · exact Steps.guards_pure _
    refine Steps.guards_bind (reads_read path).guards fun other => ?_
    cases other with
    | none => exact ih
    | some other =>
      refine Steps.guards_bind (Reads.guards fun _ => rfl) fun alive => ?_
      split
      · exact Steps.guards_bind (Steps.guards_throw _) fun _ =>
          Steps.guards_bind (guards_remove path) fun _ => ih
      · exact Steps.guards_bind (guards_remove path) fun _ => ih

end Free

/-- Neither a lock file nor the private file beside it is called like a record. -/
theorem not_endsAsRecord_pathFor (locksDir board : String) (here : Location) :
    ¬ EndsAsRecord (placeFrom here (pathFor locksDir board)) :=
  Stage.not_endsAsRecord_join locksDir board ".lock" (c := 'k') (by decide) (by decide)
    (by decide) (by decide) here

theorem not_endsAsRecord_privatePath (path : String) (n : Nat) (here : Location) :
    ¬ EndsAsRecord (placeFrom here (privatePath path (tokenText n))) :=
  Stage.not_endsAsRecord_sibling path
    (fun empty => tokenText_ne_nil n (by rw [empty]; rfl)) (not_mem_tokenText (.inl rfl)) here

/-- The lock of a board with a token that has been handed out. -/
structure Fits (locksDir board : String) (l : Lock) : Prop where
  path : l.path = pathFor locksDir board
  token : ∃ n, l.holder.token = tokenText n

section Held

variable {locksDir board : String} {l : Lock}

theorem alone_freshToken (w : World) :
    freshToken.alone w = (.ok (tokenText w.serial), { w with serial := w.serial + 1 }) := rfl

theorem guards_acquire (self : Nat) (locksDir board : String) (stage : Stage) :
    Action.Guards EndsAsRecord here (acquire self locksDir board stage).alone := by
  refine Steps.guards_bind (guards_atomic _ (guards_makeDirs _)) fun _ w proper same => ?_
  rw [alone_bind, GuardsAt, bind_apply, alone_freshToken]
  have counted : World.Guards EndsAsRecord w { w with serial := w.serial + 1 } :=
    ⟨rfl, proper, fun _ _ _ _ found => found⟩
  have acquires := guards_acquireWithin (h := ⟨self, stage.id, tokenText w.serial⟩)
    (not_endsAsRecord_pathFor locksDir board here) (not_endsAsRecord_privatePath _ w.serial here)
    board attempts
  exact counted.trans (Steps.guards_bind acquires (fun _ => Steps.guards_pure _)
    { w with serial := w.serial + 1 } proper same)

theorem fits_of_acquire {self : Nat} {stage : Stage} {w' : World}
    (done : (acquire self locksDir board stage).alone w = (.ok l, w')) : l.Fits locksDir board := by
  rw [acquire, alone_bind, bind_apply] at done
  split at done
  · rename_i w₁ _
    rw [alone_bind, bind_apply] at done
    have token : (freshToken.alone w₁) = (.ok (tokenText w₁.serial), _) := rfl
    rw [token] at done
    dsimp only at done
    rw [alone_bind, bind_apply] at done
    split at done
    · cases done
      exact ⟨rfl, _, rfl⟩
    · cases done
  · cases done

variable (fits : l.Fits locksDir board)
include fits

theorem guards_setStage (stage : Stage) :
    Action.Guards EndsAsRecord here (l.setStage stage).alone := by
  obtain ⟨path, n, token⟩ := fits
  have free := not_endsAsRecord_pathFor locksDir board here
  have free_private := not_endsAsRecord_privatePath l.path n here
  rw [← path] at free
  rw [← token] at free_private
  rintro w proper rfl
  rw [setStage, alone_bind]
  refine guardsAt_bind (guards_atomic _ (guards_create _ free_private) w proper rfl)
    fun _ w' written guards => ?_
  -- The private file has just been written, so what takes the place of the lock is no directory.
  have noDir : w'.files.find? (w'.placeOf (privatePath l.path l.holder.token)) ≠ some .dir := by
    rw [writePrivate, alone_atomic] at written
    obtain ⟨m, name, leads, -, rfl⟩ := create_eq_ok (changing_of_mapError written)
    rw [placeOf_eq, ← placeOf_eq w, leads.placeOf, Tree.find?_insert (by simp), if_pos rfl]
    simp
  rw [alone_bind]
  refine guardsAt_bind ?_ fun _ w'' _ guards' => Steps.guards_pure _ w'' guards'.proper rfl
  rw [alone_atomic]
  refine guardsAt_mapError (guardsAt_changing guards.proper fun _ done => ?_) _
  exact World.guards_renameFile guards.proper done noDir (by rwa [placeOf_eq, guards.here])

theorem fits_of_setStage {stage : Stage} {l' : Lock} {w' : World}
    (done : (l.setStage stage).alone w = (.ok l', w')) : l'.Fits locksDir board := by
  rw [setStage, alone_bind, bind_apply] at done
  split at done
  · rw [alone_bind, bind_apply] at done
    split at done
    · cases done
      exact ⟨fits.path, fits.token⟩
    · cases done
  · cases done

end Held

theorem guards_release (l : Lock) (proper : w.files.Proper) :
    World.Guards guarded w (l.release.run w).2 := by
  have removes : GuardsAt guarded (Action.removeFile l.path) w :=
    Action.guards_removeFile l.path w proper rfl
  have first : Work.run (read l.path) w = (outcome l.path (w.textAt l.path), w) := by
    rw [read_eq]
    rfl
  rw [release]
  change World.Guards guarded w (Work.run (Work.bind (read l.path) _) w).2
  rw [Work.run_bind, first]
  dsimp only
  split
  · split
    · exact removes
    · exact guards_self proper
  · exact guards_self proper

end Workspace.Lock

/-! ## Tools -/

namespace Tool

variable {c : Call} {log : String}

/-- Whatever becomes of the programs that are started, they put no file at guarded places. -/
def Launcher.Spares (guarded : Location → Prop) (launch : Launcher) : Prop :=
  ∀ i w p, w.files.Proper → launch i w = .ok p →
    ∀ stop time, World.Guards guarded w (p.progress stop time).world

/-- What is left of a process that is watched is what has become of it by some time. -/
theorem exists_progress_of_supervised (p : Process) (l : Limits) :
    ∃ stop time, (p.supervised l).2 = p.progress stop time := by
  have undisturbed : ∃ stop time, p.undisturbed l = p.progress stop time := by
    unfold Process.undisturbed
    split <;> exact ⟨_, _, rfl⟩
  unfold Process.supervised
  dsimp only
  split
  · exact undisturbed
  · exact ⟨_, _, rfl⟩
  · exact undisturbed

theorem guards_openLog (free : ¬ guarded (placeFrom here log)) :
    Action.Guards guarded here (openLog log) := by
  have empty : Action.Guards guarded here ((Action.writeBytes log []).mapError (Error.file log)) :=
    guards_mapError (guards_writeBytes _ free) _
  unfold openLog
  split
  · exact guards_bind (guards_mapError (guards_makeDirs _) _) fun _ => empty
  · exact empty

theorem guards_writeLog (free : ¬ guarded (placeFrom here log)) (output : List UInt8) :
    Action.Guards guarded here (writeLog log output) := by
  refine guards_bind (Reads.ask _).guards fun there => ?_
  split
  · exact guards_mapError (guards_writeBytes _ free) _
  · exact guards_pure _

section Spares

variable (spares : c.launch.Spares guarded)
include spares

/-- A process that has just been started puts no file at guarded places. -/
theorem spares_of_start {process : Process} {w w' : World} (proper : w.files.Proper)
    (started : c.start w = (.ok process, w')) (stop : Option Nat) (time : Nat) :
    World.Guards guarded w (process.progress stop time).world := by
  have launched := congrArg Prod.fst started
  change (c.launch c.invocation w).mapError c.launchError = .ok process at launched
  cases result : c.launch c.invocation w with
  | error e =>
    rw [result] at launched
    cases launched
  | ok p =>
    rw [result] at launched
    cases launched
    exact spares c.invocation w _ proper result stop time

/-- What follows the start of a program finds a process that spares the guarded places. -/
theorem guards_start {f : Process → Action Error α}
    (h : ∀ p, ∀ w, w.files.Proper → w.here = here →
      (∀ stop time, World.Guards guarded w (p.progress stop time).world) →
        GuardsAt guarded (f p) w) :
    Action.Guards guarded here (c.start >>= f) := by
  intro w proper same
  have reads : Reads c.start := Reads.reading _
  refine guardsAt_bind (reads.guardsAt proper) fun p w' done _ => ?_
  obtain rfl := reads.same done
  exact h p w' proper same (spares_of_start spares proper done)

theorem guards_captured (free : ¬ guarded (placeFrom here log)) :
    Action.Guards guarded here (c.captured log) := by
  refine guards_bind (guards_openLog free) fun _ => guards_start spares fun p w proper same left => ?_
  have after : GuardsAt guarded (leave (p.progress none p.lifetime)) w := left _ _
  refine guardsAt_bind after fun _ w' _ guards => ?_
  exact guards_bind (guards_writeLog free _) (fun _ => guards_pure _) w' guards.proper
    (guards.here.trans same)

theorem guards_logged (free : ¬ guarded (placeFrom here log)) (l : Limits) :
    Action.Guards guarded here (c.logged log l) := by
  refine guards_bind (guards_openLog free) fun _ => guards_start spares fun p w proper same left => ?_
  obtain ⟨stop, time, seen⟩ := exists_progress_of_supervised p l
  have after : GuardsAt guarded (leave (p.supervised l).2) w := seen ▸ left stop time
  refine guardsAt_bind after fun _ w' _ guards => ?_
  exact guards_bind (guards_writeLog free _) (fun _ => guards_pure _) w' guards.proper
    (guards.here.trans same)

theorem guards_shown (l : Limits) : Action.Guards guarded here (c.shown l) := by
  refine guards_start spares fun p w proper same left => ?_
  obtain ⟨stop, time, seen⟩ := exists_progress_of_supervised p l
  have after : GuardsAt guarded (leave (p.supervised l).2) w := seen ▸ left stop time
  refine guardsAt_bind after fun _ w' _ guards => ?_
  exact guardsAt_bind ⟨rfl, guards.proper, fun _ _ _ _ found => found⟩
    fun _ w'' _ guards' => guards_pure _ w'' guards'.proper rfl

end Spares

end Tool

/-! ## The board made anew -/

namespace Board

open Generation (Beside Staged guards_onPath guards_replaceDir)

variable {ws : Workspace} {board : String} {dir : String}

theorem guards_writeText {text : String} (free : ¬ guarded (placeFrom here path)) :
    Action.Guards guarded here (writeText path text) :=
  guards_onPath path (guards_writeBytes _ free)

theorem reads_readText (path : String) : Reads (readText path) := (Reads.reading _).mapError _

theorem reads_readSocConfig (path : String) : Reads (readSocConfig path) :=
  (reads_readText path).bind fun _ => Reads.ofExcept _

theorem reads_readDevicetree (socDir soc : String) : Reads (readDevicetree socDir soc) := by
  refine (reads_readText _).bind fun dts => (Reads.ask _).bind fun there => ?_
  split
  · exact (reads_readText _).bind fun _ => Reads.pure _
  · exact Reads.pure _

/-- A copied file has a name of its own in the directory. -/
theorem guards_copyAdditional (zephyrBase file : String)
    (free : ∀ name, IsName name → ¬ guarded (placeFrom here dir ++ [name])) :
    Action.Guards guarded here (copyAdditional zephyrBase dir file) := by
  unfold copyAdditional
  dsimp only
  split
  · exact guards_pure _
  · rename_i name named
    obtain ⟨_, _, isName, _⟩ := exists_parent named
    refine guards_bind (Reads.ask _).guards fun there => ?_
    split
    · refine guards_onPath _ (guards_copy _ ?_)
      rw [isName.placeFrom_join]
      exact free name isName
    · exact guards_pure _

section NewDirectory

variable (ordinary : ws.Ordinary board)
include ordinary

/-- A file in the new directory does not become a record, as a record lies deeper. -/
theorem not_isRecordOrStaged_of_names {tail : Location}
    (other : ∀ s, tail ≠ [".stages", Stage.recordName s]) : ¬ ws.IsRecordOrStaged board here
      (placeFrom here (sibling (ws.boardDir board) "staging") ++ tail) := fun h =>
  have ⟨s, same⟩ := h.eq_of_staging ordinary
  other s same

theorem not_isRecordOrStaged_of_ends (suffix : String) {c : Char} (noSlash : '/' ∉ suffix.toList)
    (long : 2 < suffix.toList.length) (last : suffix.toList.getLast? = some c) (other : c ≠ 'h') :
    ¬ ws.IsRecordOrStaged board here
      (placeFrom here (join (sibling (ws.boardDir board) "staging") (board ++ suffix))) := fun h =>
  Stage.not_endsAsRecord_join _ board suffix noSlash long last other here (h.ends ordinary)

/-- The name of the board may have slashes in it, but the first name of the file is no name of a
directory of records. -/
theorem not_isRecordOrStaged_kconfig : ¬ ws.IsRecordOrStaged board here
    (placeFrom here (join (sibling (ws.boardDir board) "staging") ("Kconfig." ++ board))) := by
  obtain ⟨first, rest, names, old⟩ := names_prepend "Kconfig." (by decide) (by decide)
    board
  have other (text : String) (small : text.toList.head? = some '.') : "Kconfig." ++ first ≠ text := by
    rintro rfl
    simp at small
  have noUp : ".." ∉ World.names ("Kconfig." ++ board) := by
    rw [names]
    exact fun mem => (List.mem_cons.mp mem).elim (fun same => other ".." (by decide) same.symm)
      fun mem => ordinary.noUp (old _ mem)
  have relative : isAbsolute ("Kconfig." ++ board) = false := by simp [isAbsolute]
  rw [placeFrom_join relative, foldl_enter_of_noUp noUp, names, List.filter_cons,
    if_pos (by simpa using other "." (by decide))]
  exact not_isRecordOrStaged_of_names ordinary fun s same =>
    other ".stages" (by decide) (List.cons.inj same).1

/-- No file that is written into a new directory of the board becomes a record with it. -/
theorem guards_writeBoardFiles (g : Graph.ValidDesign) (resourcesDir zephyrBase : String) :
    Action.Guards (ws.IsRecordOrStaged board here) here
      (writeBoardFiles g (ws.target board resourcesDir zephyrBase)
        (sibling (ws.boardDir board) "staging")) := by
  have yaml : IsName "board.yml" := ⟨by decide, by decide, by decide⟩
  refine guards_bind (Reads.ofExcept _).guards fun soc => ?_
  refine guards_bind (Reads.ask _).guards fun there => guards_when (guards_throw _) fun _ => ?_
  refine guards_bind (reads_readSocConfig _).guards fun config => ?_
  refine guards_bind (guards_writeText (not_isRecordOrStaged_kconfig ordinary)) fun _ => ?_
  refine guards_bind (guards_writeText ?_) fun _ => ?_
  · rw [yaml.placeFrom_join]
    exact not_isRecordOrStaged_of_names ordinary fun s => by simp
  refine guards_bind (reads_readText _).guards fun base => ?_
  refine guards_bind (guards_writeText (not_isRecordOrStaged_of_ends ordinary "_defconfig"
    (c := 'g') (by decide) (by decide) (by decide) (by decide))) fun _ => ?_
  refine guards_bind (reads_readDevicetree _ _).guards fun dts => ?_
  refine guards_bind (guards_writeText (not_isRecordOrStaged_of_ends ordinary ".dts"
    (c := 's') (by decide) (by decide) (by decide) (by decide))) fun _ => ?_
  exact guards_forM fun file _ => guards_copyAdditional _ file fun name _ =>
    not_isRecordOrStaged_of_names ordinary fun s => by simp

theorem guards_generateBoard (g : Graph.ValidDesign) (resourcesDir zephyrBase : String) :
    Action.Guards (ws.IsRecord board) here
      (generateBoard g (ws.target board resourcesDir zephyrBase)) := by
  refine guards_bind (Reads.ofExcept _).guards fun _ => ?_
  refine guards_bind ?_ fun _ => guards_pure _
  exact guards_replaceDir true (Workspace.beside_boardDir ordinary here)
    (guards_writeBoardFiles ordinary g resourcesDir zephyrBase)

end NewDirectory

/-! ## The files of the simulator -/

open Generation (Free)

theorem reads_scriptTemplate (templatesDir : Option String) : Reads (scriptTemplate templatesDir) := by
  cases templatesDir with
  | none => exact Reads.pure _
  | some dir => exact (Reads.reading _).mapError _

theorem reads_renderScript (board : String) (files : PlatformFiles) (build : BuildFiles)
    (templatesDir : Option String) : Reads (renderScript board files build templatesDir) := by
  have dts : Reads (Generation.onPath build.devicetree (Action.readText build.devicetree)) :=
    (Reads.reading _).mapError _
  refine dts.bind fun text => (reads_scriptTemplate templatesDir).bind fun template => ?_
  dsimp only
  split
  · exact Reads.pure _
  · exact Reads.throw _

theorem free_platformFile (dir board suffix : String) {c : Char}
    (noSlash : '/' ∉ suffix.toList) (long : 2 < suffix.toList.length)
    (last : suffix.toList.getLast? = some c) (other : c ≠ 'h') :
    Free EndsAsRecord here (join dir (board ++ suffix)) :=
  ⟨Stage.not_endsAsRecord_join dir board suffix noSlash long last other here,
    Stage.not_endsAsRecord_sibling _ (by decide) (by decide) here⟩

theorem guards_writePlatform (dir board script description : String) :
    Action.Guards EndsAsRecord here
      (writePlatform (PlatformFiles.inDir dir board) script description) := by
  refine guards_when (guards_throw _) fun _ => Generation.guards_writeFiles fun f mem => ?_
  rcases List.mem_pair.mp mem with rfl | rfl
  · exact free_platformFile dir board ".resc" (c := 'c') (by decide) (by decide)
      (by decide) (by decide)
  · exact free_platformFile dir board ".repl" (c := 'l') (by decide) (by decide)
      (by decide) (by decide)

theorem guards_preparePlatform {account : Generation.Error → ε} {board buildsDir : String}
    {templatesDir : Option String} {translate : String → Action ε String}
    (ends : ∀ l, guarded l → EndsAsRecord l)
    (translates : ∀ path, Action.Guards guarded here (translate path)) :
    Action.Guards guarded here
      (preparePlatform account board buildsDir templatesDir translate) := by
  have place : Reads (Generation.onPath buildsDir (Action.canonical buildsDir)) :=
    (Reads.reading _).mapError _
  refine guards_bind (place.mapError _).guards fun dir => ?_
  refine guards_bind (Reads.ask _).guards fun there => guards_when (guards_throw _) fun _ => ?_
  refine guards_bind ((reads_renderScript _ _ _ _).mapError _).guards fun script => ?_
  refine guards_bind (translates _) fun description => ?_
  have writes : Action.Guards guarded here
      (writePlatform (PlatformFiles.inDir dir board) script description) :=
    (guards_writePlatform _ _ _ _).mono ends
  exact guards_bind (guards_mapError writes _) fun _ => guards_pure _

end Board

/-! ## An application -/

namespace App

open Generation (Beside Clear Staged onPath guards_onPath guards_replaceDir guards_copyTreeFrom
  guardsAt_readDir)

variable {dir : String}

theorem guards_renderFile (ctx : Template.Context) (templatePath : String)
    (free : ¬ guarded (placeFrom here path)) :
    Action.Guards guarded here (renderFile ctx path templatePath) := by
  have reads : Reads (onPath path (Action.readBytes path)) := (Reads.reading _).mapError _
  refine guards_bind reads.guards fun content => ?_
  split
  · exact guards_pure _
  · refine guards_ite (guards_pure _) ?_
    split
    · exact guards_throw _
    · exact guards_bind (guards_onPath _ (guards_writeBytes _ free)) fun _ => guards_pure _

theorem guards_renderTree (ctx : Template.Context) (templateDir relative : String)
    (clear : Clear guarded here dir) (fuel : Nat) :
    Action.Guards guarded here (renderTree ctx templateDir dir relative fuel) := by
  induction fuel generalizing dir relative with
  | zero => exact guards_throw _
  | succ fuel ih =>
    rintro w proper rfl
    refine guardsAt_readDir proper fun names isName => ?_
    refine guards_bind (guards_mapM fun name mem => ?_) (fun _ => guards_pure _) w proper rfl
    have below := clear.join (isName name mem)
    refine guards_bind (Reads.ask _).guards fun isDir => ?_
    split
    · exact ih _ below
    · refine guards_bind (guards_renderFile ctx _ below.free) fun rendered => ?_
      exact guards_ite (guards_pure _) (guards_pure _)

theorem guards_fill (ctx : Template.Context) (templateDir : String)
    (clear : Clear guarded here dir) : Action.Guards guarded here (fill ctx templateDir dir) := by
  have rendered := guards_renderTree ctx templateDir "" clear Generation.deepestPath
  refine guards_bind (guards_copyTreeFrom clear _) fun _ => ?_
  refine guards_bind (Reads.ask _).guards fun there => ?_
  split
  · exact guards_bind (guards_onPath _ (guards_removeFile _)) fun _ => rendered
  · exact rendered

theorem reads_loadLists (templateDir : String) : Reads (loadLists templateDir) := by
  have reads : Reads (onPath (join templateDir rulesFile)
      (Action.readText (join templateDir rulesFile))) := (Reads.reading _).mapError _
  refine (Reads.ask _).bind fun there => ?_
  split
  · exact Reads.pure _
  · refine reads.bind fun text => ?_
    split
    · exact Reads.pure _
    · exact Reads.throw _

/-- An application touches nothing but its place and the two places beside it. -/
theorem guards_generate (g : Graph.ValidDesign) {source : Source}
    (clear : Clear guarded here source.outputDir)
    (beside : Beside guarded here source.outputDir) :
    Action.Guards guarded here (generate g source) := by
  refine guards_bind (Reads.ask _).guards fun isDir => guards_when (guards_throw _) fun _ => ?_
  refine guards_bind (reads_loadLists _).guards fun lists => ?_
  refine guards_bind (guards_replaceDir _ beside ?_) fun _ => guards_pure _
  have filled : Action.Guards guarded here (fill (context g (labelMap g (rulesWith lists)))
      source.templateDir (sibling source.outputDir "staging")) := guards_fill _ _ beside.staging
  refine filled.mono fun l mem => mem.resolve_right ?_
  rintro ⟨rest, -, isGuarded⟩
  exact clear rest isGuarded

end App

/-! ## The stages of a run -/

namespace Run

/-- A run of a board in a workspace. -/
structure Fits (ws : Workspace) (board : String) (r : Run) : Prop where
  dir : r.cache.dir = ws.stagesDir board
  lock : r.lock.Fits ws.locksDir board
  board : r.board = board

variable {ws : Workspace} {board : String} {s : Setup} {r : Run} {t : Task}

/-- The task is that of a stage, and its body guards some places. -/
structure Task.Conducts (guarded : Location → Prop) (stage : Stage) (t : Task) : Prop where
  stage : t.stage = stage
  guards : ∀ r here, Action.Guards guarded here (t.body r)
  yields : ∀ r, Yields (fun x => x.stage = t.stage ∧ x.outcome = .executed) (t.body r)

theorem not_endsAsRecord_logPath (c : Stage.Cache) (stage : Stage) (here : Location) :
    ¬ EndsAsRecord (placeFrom here (c.logPath stage)) :=
  Stage.not_endsAsRecord_join c.dir stage.id ".log" (c := 'g') (by decide) (by decide)
    (by decide) (by decide) here

theorem guards_timed {a : Action Error α} (h : Action.Guards guarded here a) :
    Action.Guards guarded here (timed a) :=
  guards_bind (Reads.ask _).guards fun _ => guards_bind h fun _ =>
    guards_bind (Reads.ask _).guards fun _ => guards_pure _

theorem guards_removeDirIfThere (dir : String) :
    Action.Guards guarded here (removeDirIfThere dir) := by
  refine guards_bind (Reads.ask _).guards fun there => ?_
  split
  · exact guards_mapError (guards_removeDir dir) _
  · exact guards_pure _

theorem reads_requireDir (stage : Stage) (path : String) : Reads (requireDir stage path) := by
  refine (Reads.ask _).bind fun there => ?_
  split
  · exact Reads.throw _
  · exact Reads.pure _

theorem reads_requireFile (stage : Stage) (path : String) : Reads (requireFile stage path) := by
  refine (Reads.ask _).bind fun there => ?_
  split
  · exact Reads.throw _
  · exact Reads.pure _

theorem reads_requireOutput (stage : Stage) (path : String) : Reads (requireOutput stage path) := by
  refine (Reads.ask _).bind fun there => ?_
  split
  · exact Reads.throw _
  · exact Reads.pure _

theorem guards_keepFile (buildDir : String) {buildsDir relative : String}
    (free : ¬ guarded (placeFrom here (join buildsDir relative))) :
    Action.Guards guarded here (keepFile buildDir buildsDir relative) := by
  have copied : Action.Guards guarded here ((Action.copy (join buildDir relative)
      (join buildsDir relative)).mapError (Error.file (join buildsDir relative))) :=
    guards_mapError (guards_copy _ free) _
  refine guards_bind (Reads.ask _).guards fun there => ?_
  dsimp only
  split
  · split
    · exact guards_bind (guards_mapError (guards_makeDirs _) _) fun _ => copied
    · exact copied
  · exact guards_pure _

theorem guards_keepOutputs (buildDir buildsDir log : String) :
    Action.Guards EndsAsRecord here (keepOutputs buildDir buildsDir log) := by
  have kept (name : String) {c : Char} (noSlash : '/' ∉ name.toList)
      (long : 2 < name.toList.length) (last : name.toList.getLast? = some c) (other : c ≠ 'h') :
      ¬ EndsAsRecord (placeFrom here (join buildsDir ("zephyr/" ++ name))) :=
    Stage.not_endsAsRecord_join buildsDir "zephyr/" name noSlash long last other here
  refine guards_bind (guards_removeDirIfThere _) fun _ => ?_
  refine guards_bind (guards_forM fun relative mem => guards_keepFile buildDir ?_) fun _ => ?_
  · simp only [keptFiles, List.mem_cons, List.not_mem_nil, or_false] at mem
    obtain rfl | rfl | rfl := mem
    · exact kept "zephyr.dts" (c := 's') (by decide) (by decide) (by decide) (by decide)
    · exact kept "zephyr.elf" (c := 'f') (by decide) (by decide) (by decide) (by decide)
    · exact kept ".config" (c := 'g') (by decide) (by decide) (by decide) (by decide)
  · refine guards_bind (Reads.ask _).guards fun there => ?_
    split
    · refine guards_mapError (guards_copy _ ?_) _
      exact Stage.not_endsAsRecord_join buildsDir "" "build.log" (c := 'g') (by decide)
        (by decide) (by decide) (by decide) here
    · exact guards_pure _

section Stages

variable (ends : ∀ l, guarded l → EndsAsRecord l) (spares : s.launch.Spares guarded)
include ends spares

theorem guards_runBuild (r : Run) (app : String) :
    Action.Guards guarded here (runBuild s r app) := by
  have free : ¬ guarded (placeFrom here (r.cache.logPath .build)) := fun h =>
    not_endsAsRecord_logPath r.cache .build here (ends _ h)
  refine guards_bind (guards_removeDirIfThere _) fun _ => ?_
  refine guards_bind (guards_mapError (guards_makeDirs _) _) fun _ => ?_
  refine guards_bind (Tool.guards_logged spares free _) fun ending => ?_
  split
  · refine guards_bind ((guards_keepOutputs _ _ _).mono ends) fun _ => ?_
    exact guards_when (guards_throw _) fun _ => guards_pure _
  · exact guards_throw _

theorem guards_translate (r : Run) (devicetree : String) :
    Action.Guards guarded here (translate s r devicetree) := by
  have free : ¬ guarded (placeFrom here (r.cache.logPath .prepareSimulatorFiles)) := fun h =>
    not_endsAsRecord_logPath r.cache .prepareSimulatorFiles here (ends _ h)
  refine guards_bind (Tool.guards_captured spares free) fun result => ?_
  dsimp only
  split
  · exact guards_pure _
  · exact guards_throw _

theorem conducts_buildTask (app : String) (template : Option String) (r : Run) :
    Yields (Task.Conducts guarded .build) (buildTask s app template r) := by
  refine yields_bind fun _ => yields_bind fun app => yields_bind fun inputs => yields_pure ?_
  refine ⟨rfl, fun r here => guards_bind (guards_timed ?_) fun _ => guards_pure _,
    fun r => yields_bind fun _ => yields_pure ⟨rfl, rfl⟩⟩
  refine guards_bind (guards_runBuild ends spares r app) fun code => ?_
  exact guards_bind (Reads.forM fun path _ => reads_requireOutput _ path).guards fun _ =>
    guards_pure _

theorem conducts_simulatorTask (templatesDir : Option String) (r : Run) :
    Yields (Task.Conducts guarded .prepareSimulatorFiles) (simulatorTask s templatesDir r) := by
  refine yields_bind fun _ => yields_bind fun script => yields_bind fun inputs => yields_pure ?_
  refine ⟨rfl, fun r here => guards_bind (guards_timed ?_) fun _ => guards_pure _,
    fun r => yields_bind fun _ => yields_pure ⟨rfl, rfl⟩⟩
  exact Board.guards_preparePlatform ends fun path => guards_translate ends spares r path

end Stages

theorem conducts_boardTask (ordinary : s.workspace.Ordinary r.board) (g : Graph.ValidDesign) :
    Yields (Task.Conducts (s.workspace.IsRecord r.board) .prepareBoard) (boardTask s g r) := by
  refine yields_bind fun soc => yields_bind fun inputs => yields_pure ?_
  refine ⟨rfl, fun r' here => guards_bind (guards_timed (guards_mapError ?_ _)) fun _ =>
    guards_pure _, fun r => yields_bind fun _ => yields_pure ⟨rfl, rfl⟩⟩
  exact Board.guards_generateBoard ordinary g _ _

end Run

end BoardDesign
