import BoardDesign.Proofs.Graph.Rows
import BoardDesign.Proofs.Run.Journal

/-!
# The records of a board through its history

Runs and changes by others follow one another. Nobody but the stages themselves puts a file where
a record lies: neither the tools nor an application that is made, nor whoever changes files
between the runs.

* `goes_runStage`, `goes_journalFrom`, `earns_run`: what stages and whole runs earn;
* `History`: the histories of a board, which also end in the middle of a run;
* `History.earned`: the records are earned at each moment of a history;
* `succeededLast_of_recorded`: what a record says, and what it means that a stage is skipped;
* `records_outlive_failures`: a board with a step up, and an application over the records.
-/

namespace BoardDesign

open File File.Path World Action
open Stage (EndsAsRecord Error)

variable {ws : Workspace} {board : String} {w w' w₁ : World} {here : Location} {es : List Event}
  {s : Setup} {q : Request} {r : Run} {t : Run.Task} {j : Journal} {stage : Stage}
  {result : Except Error Run}

/-! ## One stage -/

/-- What follows a part of a run and leaves the run as it is. -/
theorem Goes.followed {a : Action Error Run} {f : Run → Action Error Run}
    (h : Goes ws board es r w j (a w).1 (a w).2)
    (guards : ∀ r, Action.Guards (ws.IsRecord board) w.here (f r))
    (yields : ∀ r, Yields (· = r) (f r)) :
    Goes ws board es r w j ((a >>= f) w).1 ((a >>= f) w).2 := by
  rw [bind_apply]
  rcases done : a w with ⟨_ | r₁, w₁⟩ <;> rw [done] at h
  · exact h
  · have after := guards r₁ w₁ h.earns.earned.proper h.here
    rw [GuardsAt] at after
    refine ⟨h.earns.guards after, after.here.trans h.here, fun r' done => ?_, fun r' done => ?_⟩
    · exact yields r₁ w₁ r' _ (Prod.ext done rfl) ▸ h.fits r₁ rfl
    · exact yields r₁ w₁ r' _ (Prod.ext done rfl) ▸ h.told r₁ rfl

/-- A part of a run in which no stage with a record is started. -/
theorem goes_of_guards {a : Action Error Run} (earned : ws.Earned board es w)
    (guards : Action.Guards (ws.IsRecord board) w.here a)
    (yields : Yields (fun r' => r'.Fits ws board ∧ ∀ x ∈ r'.results, x ∈ r.results ∨ Told x []) a) :
    Goes ws board es r w [] (a w).1 (a w).2 := by
  have after := guards w earned.proper rfl
  exact ⟨earned.guards after, after.here, fun r' done => (yields w r' _ (Prod.ext done rfl)).1,
    fun r' done => (yields w r' _ (Prod.ext done rfl)).2⟩

namespace Run

theorem reads_dir (i : Stage.Inputs) (name path : String) : Reads (i.dir name path) := Reads.ask _

theorem reads_file (i : Stage.Inputs) (name path : String) : Reads (i.file name path) :=
  ((Reads.reading _).mapError _).bind fun _ => Reads.pure _

theorem reads_boardTask (g : Graph.ValidDesign) (r : Run) : Reads (boardTask s g r) :=
  (Reads.ofExcept _).bind fun _ => (reads_dir _ _ _).bind fun _ => Reads.pure _

theorem reads_buildTask (app : String) (template : Option String) (r : Run) :
    Reads (buildTask s app template r) :=
  (Reads.forM fun path _ => reads_requireDir _ path).bind fun _ =>
    ((Reads.reading _).mapError _).bind fun _ =>
      ((reads_dir _ _ _).bind fun _ => (reads_dir _ _ _).bind fun _ => Reads.pure _).bind fun _ =>
        Reads.pure _

theorem reads_simulatorTask (templatesDir : Option String) (r : Run) :
    Reads (simulatorTask s templatesDir r) :=
  (Reads.forM fun path _ => reads_requireFile _ path).bind fun _ =>
    ((Board.reads_scriptTemplate _).mapError _).bind fun _ =>
      ((reads_file _ _ _).bind fun _ => (reads_file _ _ _).bind fun _ => Reads.pure _).bind fun _ =>
        Reads.pure _

theorem guards_enter (fits : r.Fits ws board) (stage : Stage) :
    Action.Guards (ws.IsRecord board) here (r.enter stage) :=
  guards_bind ((Workspace.Lock.guards_setStage fits.lock stage).mono fun _ h => h.ends) fun _ =>
    guards_pure _

theorem guards_start (s : Setup) (board name : String) (stage : Stage) :
    Action.Guards (ws.IsRecord board) here (start s name stage) := by
  refine guards_bind (Reads.ask _).guards fun started => guards_bind ?_ fun lock => guards_pure _
  exact (Workspace.Lock.guards_acquire _ _ _ _).mono fun _ h => h.ends

theorem guards_release {guarded : Location → Prop} (r : Run) :
    Action.Guards guarded here r.release :=
  fun _ proper _ => Workspace.Lock.guards_release r.lock proper

theorem guards_finish {guarded : Location → Prop} (r : Run) :
    Action.Guards guarded here r.finish :=
  guards_bind (guards_release r) fun _ => guards_bind (Reads.ask _).guards fun _ => guards_pure _

theorem yields_finish (r : Run) : Yields (fun report => report.results = r.results) r.finish :=
  yields_bind fun _ => yields_bind fun _ => yields_pure rfl

theorem yields_enter (fits : r.Fits ws board) (stage : Stage) :
    Yields (fun r' => r'.Fits ws board ∧ r'.results = r.results) (r.enter stage) := by
  have locked : Yields (Workspace.Lock.Fits ws.locksDir board) (r.lock.setStage stage).alone :=
    fun _ _ _ done => Workspace.Lock.fits_of_setStage fits.lock done
  exact locked.bind fun _ lock => yields_pure ⟨⟨fits.dir, lock, fits.board⟩, rfl⟩

theorem goes_staged {task : Run → Action Error Task} (ordinary : ws.Ordinary board)
    (fits : r.Fits ws board) (reads : ∀ r, Reads (task r))
    (conducts : ∀ r, r.Fits ws board → Yields (Task.Conducts (ws.IsRecord board) stage) (task r))
    (earned : ws.Earned board es w) :
    Goes ws board es r w (r.stagedJournal stage task w) (r.staged stage task w).1
      (r.staged stage task w).2 := by
  have guards : GuardsAt (ws.IsRecord board) (r.enter stage) w :=
    guards_enter fits stage w earned.proper rfl
  rw [GuardsAt] at guards
  unfold stagedJournal
  rw [staged, bind_apply]
  rcases entered : r.enter stage w with ⟨_ | r₁, w₁⟩ <;> rw [entered] at guards <;>
    dsimp only at guards ⊢
  · exact goes_error earned guards
  obtain ⟨fits₁, results⟩ := yields_enter fits stage w r₁ w₁ entered
  have same : (task r₁ w₁).2 = w₁ := reads r₁ w₁
  rw [bind_apply]
  rcases made : task r₁ w₁ with ⟨_ | t, w₂⟩
  · rw [made] at same
    obtain rfl : w₂ = w₁ := same
    exact goes_error earned guards
  rw [made] at same
  obtain rfl : w₂ = w₁ := same
  have goes := goes_perform ordinary fits₁ (conducts r₁ fits₁ w₂ t w₂ made) (earned.guards guards)
  have told := goes.told
  rw [results] at told
  exact ⟨goes.earns, goes.here.trans guards.here, goes.fits, told⟩

end Run

/-! ## A whole run -/

/-- A simulation is run each time. -/
theorem Run.yields_simulationOutcome (log : Option String) (ending : Tool.Ending) :
    Yields (fun x => x.1 ≠ .cached)
      (Action.ofExcept (simulationOutcome log ending) : Action Error (Stage.Outcome × Option Int)) := by
  intro w x w' done
  have outcome : simulationOutcome log ending = .ok x := congrArg Prod.fst done
  unfold simulationOutcome at outcome
  split at outcome <;> (try split at outcome) <;> cases outcome <;> nofun

theorem told_simulate {outcome : Stage.Outcome} {code : Option Int} {log : Option String}
    {artifacts : List String} {time : Nat} (run : outcome ≠ .cached) :
    Told ⟨.simulate, outcome, code, log, artifacts, time⟩ es := by
  cases outcome with
  | cached => exact absurd rfl run
  | executed => exact fun cacheable => nomatch cacheable
  | timedOut => trivial

/-- A request for the board in the workspace, whose tools put no file where a record lies. -/
structure Request.Orderly (ws : Workspace) (board : String) (s : Setup) (q : Request) : Prop where
  tools : s.launch.Spares (ws.IsRecord board)
  workspace : s.workspace = ws
  board : q.board = board

/-- Nor does an application that is made put a file there. -/
structure Request.Spares (ws : Workspace) (board : String) (s : Setup) (q : Request) (w : World) :
    Prop where
  orderly : Request.Orderly ws board s q
  app : ∀ g source, q.design = some g → q.template = some source →
    Action.Guards (ws.IsRecord board) w.here (Run.generateApp g source)

/-- An application does not if neither its place nor the two beside it are those of records. -/
theorem Request.Orderly.spares (orderly : Request.Orderly ws board s q)
    (clear : ∀ source, q.template = some source →
      Generation.Clear (ws.IsRecord board) w.here source.outputDir)
    (beside : ∀ source, q.template = some source →
      Generation.Beside (ws.IsRecord board) w.here source.outputDir) :
    Request.Spares ws board s q w where
  orderly := orderly
  app g source _ template :=
    guards_mapError (App.guards_generate g (clear source template) (beside source template)) _

namespace Request

theorem runStage_prepareBoard {g : Graph.ValidDesign} (design : q.design = some g) (r : Run) :
    q.runStage s r .prepareBoard = r.staged .prepareBoard (Run.boardTask s g) >>= fun r =>
      match q.template with
      | some source => do
        let _ ← Run.generateApp g source
        return r
      | none => return r := by
  unfold runStage
  rw [design]
  rfl

theorem runStage_build {app : String} (dir : q.appDir? = some app) (r : Run) :
    q.runStage s r .build =
      r.staged .build (Run.buildTask s app (q.template.map (·.templateDir))) := by
  unfold runStage
  rw [dir]
  rfl

end Request

theorem goes_simulate (tools : s.launch.Spares (ws.IsRecord board)) (timeout : Option Nat)
    (fits : r.Fits ws board)
    (earned : ws.Earned board es w) :
    Goes ws board es r w [] (Run.simulate s r timeout w).1 (Run.simulate s r timeout w).2 := by
  refine goes_of_guards earned ?_ ?_
  · refine guards_bind (Run.guards_enter fits _) fun r => ?_
    refine guards_bind (Reads.forM fun path _ => Run.reads_requireFile _ path).guards fun _ => ?_
    refine guards_bind (Run.guards_timed ?_) fun _ => ?_
    · have free : ¬ ws.IsRecord board (placeFrom w.here (r.cache.logPath .simulate)) := fun h =>
        Run.not_endsAsRecord_logPath r.cache .simulate w.here h.ends
      split
      · exact Tool.guards_shown tools _
      · exact Tool.guards_logged tools free _
    · exact guards_bind (Reads.ofExcept _).guards fun _ => guards_pure _
  · refine (Run.yields_enter fits _).bind fun r₁ ⟨fits₁, results⟩ => ?_
    refine yields_bind fun _ => yields_bind fun ending => ?_
    refine (Run.yields_simulationOutcome _ _).bind fun ended run => yields_pure ?_
    refine ⟨Run.fits_record fits₁, fun x mem => ?_⟩
    rcases List.mem_append.mp mem with old | new
    · exact .inl (results ▸ old)
    · rw [List.mem_singleton.mp new]
      exact .inr (told_simulate run)

section Whole

variable {w₀ : World} (ordinary : ws.Ordinary board) (spares : Request.Spares ws board s q w₀)
include ordinary spares

theorem conducts_task {task : Run → Action Error Run.Task} (isTask : q.task? s stage = some task)
    (fits : r.Fits ws board) :
    Yields (Run.Task.Conducts (ws.IsRecord board) stage) (task r) ∧ ∀ r, Reads (task r) := by
  have ends : ∀ l, ws.IsRecord board l → EndsAsRecord l := fun _ h => h.ends
  cases stage with
  | prepareBoard =>
    obtain ⟨g, -, rfl⟩ := Option.map_eq_some_iff.mp isTask
    obtain rfl := spares.orderly.workspace
    rw [← fits.board] at ordinary ⊢
    exact ⟨Run.conducts_boardTask ordinary g, Run.reads_boardTask g⟩
  | build =>
    obtain ⟨app, -, rfl⟩ := Option.map_eq_some_iff.mp isTask
    exact ⟨Run.conducts_buildTask ends spares.orderly.tools app _ r, Run.reads_buildTask app _⟩
  | prepareSimulatorFiles =>
    obtain rfl := Option.some.inj isTask
    exact ⟨Run.conducts_simulatorTask ends spares.orderly.tools _ r, Run.reads_simulatorTask _⟩
  | simulate => cases isTask

theorem goes_task {task : Run → Action Error Run.Task} (isTask : q.task? s stage = some task)
    (fits : r.Fits ws board) (earned : ws.Earned board es w) :
    Goes ws board es r w (q.stageJournal s r stage w) (r.staged stage task w).1
      (r.staged stage task w).2 := by
  rw [Request.stageJournal, isTask]
  exact Run.goes_staged ordinary fits
    (fun r => (conducts_task ordinary spares isTask fits).2 r)
    (fun _ fits' => (conducts_task ordinary spares isTask fits').1) earned

theorem goes_runStage (fits : r.Fits ws board) (earned : ws.Earned board es w)
    (same : w.here = w₀.here) :
    Goes ws board es r w (q.stageJournal s r stage w) (q.runStage s r stage w).1
      (q.runStage s r stage w).2 := by
  cases stage with
  | prepareBoard =>
    cases design : q.design with
    | none =>
      have none : q.stageJournal s r .prepareBoard w = [] := by
        simp [Request.stageJournal, Request.task?, design]
      have failed : q.runStage s r .prepareBoard = throw (.missingGraph .prepareBoard) := by
        simp [Request.runStage, design]
      rw [none, failed]
      exact goes_error earned (guards_self earned.proper)
    | some g =>
      have isTask : q.task? s .prepareBoard = some (Run.boardTask s g) := by
        simp [Request.task?, design]
      rw [Request.runStage_prepareBoard design]
      refine (goes_task ordinary spares isTask fits earned).followed (fun r => ?_) fun r => ?_
      · cases template : q.template with
        | none => exact guards_pure _
        | some source =>
          exact guards_bind (same ▸ spares.app g source design template) fun _ => guards_pure _
      · cases q.template with
        | none => exact yields_pure rfl
        | some source => exact yields_bind fun _ => yields_pure rfl
  | build =>
    cases dir : q.appDir? with
    | none =>
      have none : q.stageJournal s r .build w = [] := by
        simp [Request.stageJournal, Request.task?, dir]
      have failed : q.runStage s r .build = throw (.missingArtifact .build "<application>") := by
        simp [Request.runStage, dir]
      rw [none, failed]
      exact goes_error earned (guards_self earned.proper)
    | some app =>
      have isTask : q.task? s .build =
          some (Run.buildTask s app (q.template.map (·.templateDir))) := by
        simp [Request.task?, dir]
      rw [Request.runStage_build dir]
      exact goes_task ordinary spares isTask fits earned
  | prepareSimulatorFiles => exact goes_task ordinary spares rfl fits earned
  | simulate => exact goes_simulate spares.orderly.tools q.timeout fits earned

theorem goes_journalFrom (stages : List Stage) (fits : r.Fits ws board)
    (earned : ws.Earned board es w) (same : w.here = w₀.here) :
    Goes ws board es r w (q.journalFrom s stages r w) (stages.foldlM (q.runStage s) r w).1
      (stages.foldlM (q.runStage s) r w).2 := by
  induction stages generalizing es r w with
  | nil =>
    refine goes_of_guards earned (guards_pure _) (yields_pure ⟨fits, fun x mem => .inl mem⟩)
  | cons stage rest ih =>
    have first : Goes ws board es r w (q.stageJournal s r stage w) (q.runStage s r stage w).1
        (q.runStage s r stage w).2 := goes_runStage ordinary spares fits earned same
    rw [List.foldlM_cons, bind_apply, Request.journalFrom]
    rcases done : q.runStage s r stage w with ⟨e | r₁, w₁⟩ <;> rw [done] at first
    · exact .failed (by simpa using first.earns) first.here
    · have later := ih (first.fits r₁ rfl) first.earns.earned (first.here.trans same)
      refine ⟨first.earns.append later.earns, later.here.trans first.here, later.fits, ?_⟩
      intro r' ok x mem
      rcases later.told r' ok x mem with old | told
      · refine (first.told r₁ rfl x old).imp_right fun told => told.mono fun e mem => ?_
        exact Journal.events_append _ _ ▸ List.mem_append_left _ mem
      · refine .inr (told.mono fun e mem => ?_)
        exact Journal.events_append _ _ ▸ List.mem_append_right _ mem

omit ordinary in
theorem yields_start (stage : Stage) :
    Yields (fun r => r.Fits ws board ∧ r.results = []) (Run.start s q.board stage) := by
  have locked : Yields (Workspace.Lock.Fits s.workspace.locksDir q.board)
      (Workspace.Lock.acquire s.pid s.workspace.locksDir q.board stage).alone :=
    fun _ _ _ done => Workspace.Lock.fits_of_acquire done
  refine yields_bind fun started => locked.bind fun lock held => yields_pure ?_
  exact ⟨⟨by rw [← spares.orderly.workspace, ← spares.orderly.board]; rfl,
    by rw [← spares.orderly.workspace, ← spares.orderly.board]; exact held, spares.orderly.board⟩, rfl⟩

/-- Whatever happens in a run, it leaves only records that are earned. -/
theorem earns_run (earned : ws.Earned board es w) (same : w.here = w₀.here) :
    Earns ws board es (q.journal s w) (q.run s w).2 ∧
      ∀ report, (q.run s w).1 = .ok report →
        ∀ x ∈ report.results, Told x (q.journal s w).events := by
  have begun : GuardsAt (ws.IsRecord board) (Run.start s q.board q.first) w :=
    Run.guards_start s board q.board q.first w earned.proper same
  rw [GuardsAt] at begun
  rw [Request.run, bind_apply, Request.journal]
  rcases started : Run.start s q.board q.first w with ⟨e | r, w₁⟩ <;> rw [started] at begun
  · exact ⟨earned.guards begun, fun _ ok => by cases ok⟩
  obtain ⟨fits, none⟩ := yields_start spares q.first w r w₁ started
  have goes := goes_journalFrom ordinary spares (Stage.range q.first q.last) fits
    (earned.guards begun) (begun.here.trans same)
  dsimp only at goes ⊢
  rw [bind_apply, attempt]
  rcases ran : (Stage.range q.first q.last).foldlM (q.runStage s) r w₁ with ⟨e | r₁, w₂⟩ <;>
    rw [ran] at goes
  · have released : Action.Guards (ws.IsRecord board) w₂.here
        (do r.release; throw e : Action Error Run.Report) :=
      guards_bind (Run.guards_release r) fun _ => guards_throw e
    refine ⟨goes.earns.guards (released w₂ goes.earns.earned.proper rfl), fun report ok => ?_⟩
    have fails : Yields (fun _ => False) (do r.release; throw e : Action Error Run.Report) :=
      yields_bind fun _ => yields_throw e
    exact (fails w₂ report _ (Prod.ext ok rfl)).elim
  · refine ⟨goes.earns.guards (Run.guards_finish r₁ w₂ goes.earns.earned.proper rfl), ?_⟩
    intro report ok x mem
    rw [Run.yields_finish r₁ w₂ report _ (Prod.ext ok rfl)] at mem
    exact (goes.told r₁ rfl x mem).resolve_left fun old => by simp [none] at old

end Whole

/-! ## Histories -/

/-- Runs for a board, and changes by others that put no file where a record lies. A run may be
broken off when something happens in it. What it has done to other files by then, or does later,
is like a change by others. -/
inductive History (ws : Workspace) (board : String) (may : Setup → Request → World → Prop)
    (start : World) : List Event → World → Prop where
  | start : History ws board may start [] start
  | run {es : List Event} {w : World} (s : Setup) (q : Request)
      (before : History ws board may start es w) (allowed : may s q w) :
      History ws board may start (es ++ (q.journal s w).events) (q.run s w).2
  | brokenOff {es : List Event} {w w' : World} {e : Event} {first rest : Journal} (s : Setup)
      (q : Request) (before : History ws board may start es w) (allowed : may s q w)
      (whole : q.journal s w = first ++ (e, w') :: rest) :
      History ws board may start (es ++ first.events ++ [e]) w'
  | change {es : List Event} {w w' : World} (before : History ws board may start es w)
      (guards : World.Guards (ws.IsRecord board) { w with here := w'.here } w') :
      History ws board may start es w'

/-- Each event is fair after those before it. -/
inductive AllFair : List Event → Prop where
  | nil : AllFair []
  | snoc {es : List Event} {e : Event} (before : AllFair es) (fair : Fair es e) :
      AllFair (es ++ [e])

namespace AllFair

variable {e : Event} {first rest : List Event}

theorem fair (h : AllFair es) (whole : es = first ++ e :: rest) : Fair first e := by
  induction h generalizing rest with
  | nil => simp at whole
  | snoc before fair ih =>
    obtain rfl | ⟨front, last, rfl⟩ := rest.eq_nil_or_concat
    · obtain ⟨rfl, same⟩ := List.append_inj' whole rfl
      cases List.singleton_injective same
      exact fair
    · rw [List.concat_eq_append, ← List.cons_append, ← List.append_assoc] at whole
      exact ih (List.append_inj' whole rfl).1

theorem earns {j : Journal} (h : AllFair es) (j' : Journal) (earns : Earns ws board es (j ++ j') w) :
    AllFair (es ++ j.events) := by
  induction j generalizing es with
  | nil => simpa [Journal.events] using h
  | cons first rest ih => simpa [Journal.events] using ih (h.snoc earns.1) earns.2.2

end AllFair

/-- The records of a board are earned at each moment of a history. -/
theorem History.earned {start : World} (ordinary : ws.Ordinary board)
    (proper : start.files.Proper)
    (none : ∀ stage content executable,
      start.files.find? (ws.recordPlace board stage) ≠ some (.file content executable))
    (h : History ws board (Request.Spares ws board) start es w) :
    ws.Earned board es w ∧ AllFair es := by
  induction h with
  | start =>
    exact ⟨⟨proper, fun stage d ⟨content, x, found, _⟩ => absurd found (none stage content x)⟩, .nil⟩
  | run s q _ spares ih =>
    obtain ⟨earns, -⟩ := earns_run ordinary spares ih.1 rfl
    exact ⟨earns.earned, ih.2.earns [] (by simpa using earns)⟩
  | brokenOff s q _ spares whole ih =>
    obtain ⟨earns, -⟩ := earns_run ordinary spares ih.1 rfl
    rw [whole] at earns
    exact ⟨earns.during.2, (ih.2.earns _ earns).snoc earns.during.1⟩
  | @change es w w' _ guards ih =>
    have moved : ws.Earned board es { w with here := w'.here } := ⟨ih.1.proper, ih.1.succeeded⟩
    exact ⟨moved.guards guards, ih.2⟩

/-- At each moment of a history of runs and changes in which nobody else writes records, a stage
whose record holds a digest was last started for inputs with that digest, and it succeeded. So a
stage is not skipped after a failure, and not reported as skipped, until it has succeeded again. -/
theorem succeededLast_of_recorded {start : World} (ordinary : ws.Ordinary board)
    (proper : start.files.Proper)
    (none : ∀ stage content executable,
      start.files.find? (ws.recordPlace board stage) ≠ some (.file content executable))
    (h : History ws board (Request.Spares ws board) start es w) :
    (∀ stage d, Stage.Cache.recorded? w (ws.records board) stage = some d →
      SucceededLast stage d es) ∧
    (∀ first stage d rest, es = first ++ .skipped stage d :: rest → SucceededLast stage d first) ∧
    ∀ s q, Request.Spares ws board s q w → ∀ report, (Request.run s q w).1 = .ok report →
      ∀ x ∈ report.results, x.outcome = .cached →
        ∃ first d rest, (q.journal s w).events = first ++ .skipped x.stage d :: rest ∧
          SucceededLast x.stage d (es ++ first) := by
  obtain ⟨earned, fair⟩ := h.earned ordinary proper none
  refine ⟨fun stage d recorded => ?_, fun first stage d rest whole => fair.fair whole,
    fun s q spares report ok x mem cached => ?_⟩
  · exact earned.succeeded stage d (Workspace.holds_of_recorded? ordinary recorded)
  · obtain ⟨earns, told⟩ := earns_run ordinary spares earned rfl
    have skipped := told report ok x mem
    rw [Told, cached] at skipped
    obtain ⟨d, mem⟩ := skipped
    obtain ⟨first, rest, whole⟩ := List.append_of_mem mem
    have fair' := (h.run s q spares).earned ordinary proper none
    rw [whole, ← List.append_assoc] at fair'
    exact ⟨first, d, rest, whole, fair'.2.fair rfl⟩

/-! ## Some histories -/

/-- Programs that act at once, whatever they are asked, and succeed if they do not fail. -/
def Tool.Launcher.ofActions (act : String → Action Fault Unit) : Tool.Launcher := fun i w =>
  let (result, left) := act i.program w
  .ok ⟨fun _ _ => ⟨some (0, .code (if result.isOk then 0 else 1)), [], left⟩, 0⟩

theorem Tool.Launcher.spares_ofActions {guarded : Location → Prop}
    {act : String → Action Fault Unit}
    (guards : ∀ program here, Action.Guards guarded here (act program)) :
    (Tool.Launcher.ofActions act).Spares guarded := by
  rintro i w p proper ⟨⟩ stop time
  exact guards i.program w.here w proper rfl

/-- A program that builds a board until a file tells it to fail, and another one that removes a
directory and leaves that file. -/
def forgetful (board program : String) : Action Fault Unit := do
  if program = "west" then
    if ← doesExist "/fail" then throw .notFound
    makeDirs ("/build/" ++ board ++ "/zephyr")
    writeBytes ("/build/" ++ board ++ "/zephyr/zephyr.dts") []
    writeBytes ("/build/" ++ board ++ "/zephyr/zephyr.elf") []
  else
    removeDir "/builds/x"
    writeBytes "/fail" []
    throw .notFound

theorem guards_forgetful (board program : String) :
    Action.Guards EndsAsRecord here (forgetful board program) := by
  have free (front file : String) {c : Char} (noSlash : '/' ∉ file.toList)
      (long : 2 < file.toList.length) (last : file.toList.getLast? = some c) (other : c ≠ 'h') :
      ¬ EndsAsRecord (placeFrom here (front ++ file)) :=
    Stage.not_endsAsRecord_of_ends ⟨front.toList, String.toList_append⟩ noSlash long last other here
  have dts : ¬ EndsAsRecord (placeFrom here ("/build/" ++ board ++ "/zephyr/zephyr.dts")) := by
    have := free ("/build/" ++ board ++ "/zephyr/") "zephyr.dts" (c := 's') (by decide) (by decide)
      (by decide) (by decide)
    rwa [String.append_assoc] at this
  have elf : ¬ EndsAsRecord (placeFrom here ("/build/" ++ board ++ "/zephyr/zephyr.elf")) := by
    have := free ("/build/" ++ board ++ "/zephyr/") "zephyr.elf" (c := 'f') (by decide) (by decide)
      (by decide) (by decide)
    rwa [String.append_assoc] at this
  refine guards_ite ?_ ?_
  · refine guards_bind (Reads.ask _).guards fun there => guards_when (guards_throw _) fun _ => ?_
    exact guards_bind (guards_makeDirs _) fun _ =>
      guards_bind (guards_writeBytes _ dts) fun _ => guards_writeBytes _ elf
  · refine guards_bind (guards_removeDir _) fun _ => guards_bind (guards_writeBytes _ ?_) fun _ =>
      guards_throw _
    exact free "/" "fail" (c := 'l') (by decide) (by decide) (by decide) (by decide)

/-- A workspace at the root, with these programs. -/
def forgetfulSetup (board : String) : Setup where
  workspace := ⟨"/"⟩
  resourcesDir := "/r"
  zephyrBase := "/z"
  tools := ⟨⟨"west", []⟩, default, default, default⟩
  env := .empty
  showsOutput := false
  grace := 0
  stop := fun _ => none
  pid := 1
  launch := .ofActions (forgetful board)

/-- One stage for a board, with the directory of the boards as the application. -/
def only (board : String) (stage : Stage) : Request where
  board := board
  first := stage
  last := stage
  design := none
  template := none
  app := some "/boards"
  templatesDir := none
  timeout := none

theorem spares_only (board : String) (stage : Stage) (w : World) :
    Request.Spares ⟨"/"⟩ board (forgetfulSetup board) (only board stage) w where
  orderly := ⟨Tool.Launcher.spares_ofActions fun program _ =>
    (guards_forgetful board program).mono fun _ h => h.ends, rfl, rfl⟩
  app := nofun

def worldOf (files : List (Location × Node)) : World := ⟨⟨files⟩, [], 0, [], 0, []⟩

theorem plain_root : Plain "/" := ⟨by decide, by decide⟩

/-- A board that has been made and not been built. -/
def madeBoard : World := worldOf [(["boards"], .dir), (["boards", "x"], .dir)]

theorem no_records_madeBoard (stage : Stage) (content : List UInt8) (executable : Bool) :
    madeBoard.files.find? (Workspace.recordPlace ⟨"/"⟩ "x" stage) ≠
      some (.file content executable) := by
  have none : madeBoard.files.find? (Workspace.recordPlace ⟨"/"⟩ "x" stage) = none := by
    cases stage <;> decide +kernel
  rw [none]
  nofun

/-- After a build its record holds a digest, and the build has succeeded. -/
theorem succeededLast_of_recorded_madeBoard :
    ∃ es w, History ⟨"/"⟩ "x" (Request.Spares ⟨"/"⟩ "x") madeBoard es w ∧
      ∃ d, Stage.Cache.recorded? w (Workspace.records ⟨"/"⟩ "x") .build = some d ∧
        SucceededLast .build d es := by
  let s := forgetfulSetup "x"
  let q := only "x" .build
  have history : History ⟨"/"⟩ "x" (Request.Spares ⟨"/"⟩ "x") madeBoard
      ([] ++ (q.journal s madeBoard).events) (q.run s madeBoard).2 :=
    .run s q .start (spares_only "x" .build madeBoard)
  have recorded : (Stage.Cache.recorded? (q.run s madeBoard).2
      (Workspace.records ⟨"/"⟩ "x") .build).isSome = true := by decide +kernel
  obtain ⟨d, recorded⟩ := Option.isSome_iff_exists.mp recorded
  refine ⟨_, _, history, d, recorded, ?_⟩
  exact (succeededLast_of_recorded ⟨plain_root, by decide⟩ (Tree.proper_of_isProper (by decide))
    no_records_madeBoard history).1 .build d recorded

/-- A board whose name steps up, and scripts of its simulator. -/
def steppingBoard : World := worldOf [([".locks"], .dir), ([".locks", "x"], .dir),
  (["boards"], .dir), (["boards", "x"], .dir), (["builds"], .dir), (["builds", "x"], .dir),
  (["builds", "x", "...resc"], .file [] false), (["builds", "x", "...repl"], .file [] false)]

/-- A SoC without any pins. -/
def bareCatalog : Catalog :=
  ⟨.empty, [⟨"MCU", some "SoC/MCU", [], [], false, false, [], .empty, none, .empty⟩], .empty⟩

def bareTypes : EffectiveCatalog :=
  ⟨bareCatalog, Table.ofList (bareCatalog.nodes.map fun t => (t.name, t))⟩

def bareDesign : Design := (Design.empty.addNode "MCU" "mcu").1

def bareBoard : Graph.ValidDesign :=
  ⟨bareDesign, bareTypes, Graph.viewsFrom bareTypes 0 bareDesign.nodes, some 0⟩

def textFile (text : String) : Node := .file (Text.Utf8.bytes text) false

/-- The resources of the SoC, and a template with a record among its files. -/
def bareResources : World := worldOf [(["r"], .dir), (["r", "zephyr-data"], .dir),
  (["r", "zephyr-data", "socs"], .dir), (["r", "zephyr-data", "socs", "MCU"], .dir),
  (["r", "zephyr-data", "socs", "MCU", "configs.yaml"],
    textFile "vendor: v\ndefconfig_file: d\nboard_socs:\n  - name: a\n"),
  (["r", "zephyr-data", "socs", "MCU", "MCU.dts"], textFile ""),
  (["z"], .dir), (["z", "d"], textFile ""),
  (["t"], .dir), (["t", ".stages"], .dir),
  (["t", ".stages", "build.hash"],
    textFile "0000000000000000000000000000000000000000000000000000000000000000")]

/-- The board made, and an application put where the records of the board lie. -/
def overRecords : Request where
  board := "x"
  first := .prepareBoard
  last := .prepareBoard
  design := some bareBoard
  template := some ⟨"/t", "/builds/x", true⟩
  app := none
  templatesDir := none
  timeout := none

theorem no_records_bareResources (stage : Stage) (content : List UInt8) (executable : Bool) :
    bareResources.files.find? (Workspace.recordPlace ⟨"/"⟩ "x" stage) ≠
      some (.file content executable) := by
  have none : bareResources.files.find? (Workspace.recordPlace ⟨"/"⟩ "x" stage) = none := by
    cases stage <;> decide +kernel
  rw [none]
  nofun

theorem no_records_steppingBoard (stage : Stage) (content : List UInt8) (executable : Bool) :
    steppingBoard.files.find? (Workspace.recordPlace ⟨"/"⟩ "x/.." stage) ≠
      some (.file content executable) := by
  have none : steppingBoard.files.find? (Workspace.recordPlace ⟨"/"⟩ "x/.." stage) = none := by
    cases stage <;> decide +kernel
  rw [none]
  nofun

/-- The files of an application that is put over the directory of the records become records. -/
theorem application_makes_record :
    ∃ es w, History ⟨"/"⟩ "x" (fun s q _ => Request.Orderly ⟨"/"⟩ "x" s q) bareResources es w ∧
      ∃ d, Stage.Cache.recorded? w (Workspace.records ⟨"/"⟩ "x") .build = some d ∧
        ¬ SucceededLast .build d es := by
  let s := forgetfulSetup "x"
  have history : History ⟨"/"⟩ "x" (fun s q _ => Request.Orderly ⟨"/"⟩ "x" s q) bareResources
      ([] ++ (overRecords.journal s bareResources).events) (overRecords.run s bareResources).2 :=
    .run s overRecords .start
      ⟨(spares_only "x" .build bareResources).orderly.tools, rfl, rfl⟩
  have outcome : (Stage.Cache.recorded? (overRecords.run s bareResources).2
      (Workspace.records ⟨"/"⟩ "x") .build).isSome = true ∧
        ((overRecords.journal s bareResources).events.all fun
          | .started .build _ => false
          | _ => true) = true := by
    decide +kernel
  obtain ⟨recorded, never⟩ := outcome
  obtain ⟨d, recorded⟩ := Option.isSome_iff_exists.mp recorded
  refine ⟨_, _, history, d, recorded, fun succeeded => ?_⟩
  have no := List.all_eq_true.mp never (.started .build d) (by simpa using succeeded.mem)
  cases no

/-- A build is started and fails, and nothing else happens. -/
def failedAlone : List Event → Bool
  | [.started .build _, .ended .build false] => true
  | _ => false

theorem exists_of_failedAlone (h : failedAlone es = true) :
    ∃ d, es = [.started .build d, .ended .build false] := by
  unfold failedAlone at h
  split at h
  · exact ⟨_, rfl⟩
  · cases h

/-- A record to which the way leads through a directory that is gone is not taken away. -/
theorem stepping_keeps_record :
    ∃ es w, History ⟨"/"⟩ "x/.." (Request.Spares ⟨"/"⟩ "x/..") steppingBoard es w ∧
      ∃ d, Stage.Cache.recorded? w (Workspace.records ⟨"/"⟩ "x/..") .build = some d ∧
        ¬ SucceededLast .build d es := by
  let s := forgetfulSetup "x/.."
  let build := only "x/.." .build
  let simulate := only "x/.." .simulate
  let built := (build.run s steppingBoard).2
  let simulated := (simulate.run s built).2
  have first : History ⟨"/"⟩ "x/.." (Request.Spares ⟨"/"⟩ "x/..") steppingBoard _ built :=
    .run s build .start (spares_only "x/.." .build steppingBoard)
  have second := first.run s simulate (spares_only "x/.." .simulate built)
  have history := second.run s build (spares_only "x/.." .build simulated)
  have outcome : (Stage.Cache.recorded? (build.run s simulated).2
      (Workspace.records ⟨"/"⟩ "x/..") .build).isSome = true ∧
        failedAlone (build.journal s simulated).events = true := by
    decide +kernel
  obtain ⟨recorded, failed⟩ := outcome
  obtain ⟨d, recorded⟩ := Option.isSome_iff_exists.mp recorded
  refine ⟨_, _, history, d, recorded, ?_⟩
  obtain ⟨d', events⟩ := exists_of_failedAlone failed
  rw [events]
  exact not_succeededLast_of_failed

/-- There are records of stages that did not succeed last where an application is put over the
records, and for a board whose name steps up. -/
theorem records_outlive_failures :
    (Workspace.Ordinary ⟨"/"⟩ "x" ∧ bareResources.files.Proper ∧
      bareCatalog.compose [] = .ok bareTypes ∧ Graph.validate bareDesign bareTypes = .ok bareBoard ∧
      (∀ stage content executable,
        bareResources.files.find? (Workspace.recordPlace ⟨"/"⟩ "x" stage) ≠
          some (.file content executable)) ∧
      ∃ es w, History ⟨"/"⟩ "x" (fun s q _ => Request.Orderly ⟨"/"⟩ "x" s q) bareResources es w ∧
        ∃ d, Stage.Cache.recorded? w (Workspace.records ⟨"/"⟩ "x") .build = some d ∧
          ¬ SucceededLast .build d es) ∧
    Plain "/" ∧ steppingBoard.files.Proper ∧
      (∀ stage content executable,
        steppingBoard.files.find? (Workspace.recordPlace ⟨"/"⟩ "x/.." stage) ≠
          some (.file content executable)) ∧
      ∃ es w, History ⟨"/"⟩ "x/.." (Request.Spares ⟨"/"⟩ "x/..") steppingBoard es w ∧
        ∃ d, Stage.Cache.recorded? w (Workspace.records ⟨"/"⟩ "x/..") .build = some d ∧
          ¬ SucceededLast .build d es :=
  ⟨⟨⟨plain_root, by decide⟩, Tree.proper_of_isProper (by decide), by decide, by decide,
      no_records_bareResources, application_makes_record⟩,
    plain_root, Tree.proper_of_isProper (by decide), no_records_steppingBoard,
    stepping_keeps_record⟩

end BoardDesign
