import BoardDesign.Proofs.Run.Passing

/-!
# How a run ends

A run that gets the lock of its board gives it up at its end, however it ends. Until then nobody
but the run itself puts anything where the lock lies.

* `Run.Report.Accounts`: the stages that a report lists, and its counters;
* `Run.Passed`, `passed_stages`: what the results of a run tell of the stages it has passed;
* `Run.Holds`, `Run.Alone`: a run with its lock; `maintains_stages` for all stages;
* `Request.Halts`: a stage has failed, and nothing has happened after that;
* `Request.Undisturbed`: nobody else reaches the lock of the board;
* `run_ends`: what comes of a run, whether it gets the lock or not;
* `lock_stays`: an application over the locks, and a board that steps up out of their directory.
-/

namespace BoardDesign

open File File.Path World Action
open Stage (Error)
open Generation (Aside Clear)
open Workspace (OwnFile)

variable {ws : Workspace} {board token : String} {w w' w₀ : World} {here : Location}
  {s : Setup} {q : Request} {r r' : Run} {t : Run.Task} {stage : Stage} {stages : List Stage}

/-! ## What is accounted for -/

namespace Run

/-- The report lists the stages from one to another in their order, each of them once, and its
counters are those of its results. -/
structure Report.Accounts (report : Report) (first last : Stage) : Prop where
  order : (report.results.map (·.stage)).Pairwise (·.index < ·.index)
  complete : ∀ stage, stage ∈ report.results.map (·.stage) ↔
    first.index ≤ stage.index ∧ stage.index ≤ last.index
  hits : report.hits = report.results.countP fun x => x.outcome = .cached
  misses : report.misses = report.results.countP fun x =>
    x.stage.cacheable ∧ x.outcome = .executed

/-- The results of a run so far are those of the stages that it has passed, and its counters are
those of its results. -/
structure Passed (stages : List Stage) (r : Run) : Prop where
  order : r.results.map (·.stage) = stages
  hits : r.cache.hits = r.results.countP fun x => x.outcome = .cached
  misses : r.cache.misses = r.results.countP fun x => x.stage.cacheable ∧ x.outcome = .executed

namespace Passed

theorem cached (h : r.Passed stages) (outputs : List String) :
    Passed (stages ++ [stage])
      ({ r with cache := r.cache.count true }.record (.ofCache stage outputs)) := by
  obtain ⟨order, hits, misses⟩ := h
  exact ⟨by simp [record, order, Stage.Result.ofCache],
    by simp [record, hits, Stage.Cache.count, Stage.Result.ofCache],
    by simp [record, misses, Stage.Cache.count, Stage.Result.ofCache]⟩

theorem executed (h : r.Passed stages) {x : Stage.Result} (cacheable : x.stage.cacheable = true)
    (run : x.outcome = .executed) :
    Passed (stages ++ [x.stage]) ({ r with cache := r.cache.count false }.record x) := by
  obtain ⟨order, hits, misses⟩ := h
  exact ⟨by simp [record, order], by simp [record, hits, Stage.Cache.count, run],
    by simp [record, misses, Stage.Cache.count, run, cacheable]⟩

theorem simulated (h : r.Passed stages) {x : Stage.Result} (cacheable : x.stage.cacheable = false)
    (run : x.outcome ≠ .cached) : Passed (stages ++ [x.stage]) (r.record x) := by
  obtain ⟨order, hits, misses⟩ := h
  exact ⟨by simp [record, order], by simp [record, hits, run],
    by simp [record, misses, cacheable]⟩

end Passed

/-- The task is that of a stage with a record, and its body tells of that stage. -/
structure Task.Tells (stage : Stage) (t : Task) : Prop where
  own : t.stage = stage
  cacheable : stage.cacheable = true
  yields : ∀ r, Yields (fun x => x.stage = stage ∧ x.outcome = .executed) (t.body r)

theorem passed_perform (tells : t.Tells stage) (h : r.Passed stages) :
    Yields (Passed (stages ++ [stage])) (r.perform t) := by
  have checks : Yields (fun x => (x.1 = true → Passed (stages ++ [stage]) x.2) ∧
      (x.1 = false → x.2 = { r with cache := r.cache.count false }))
      (r.checkCache t.stage t.inputs.hash t.outputs) := by
    have looks : Yields (fun x => x.2 = r.cache.count x.1)
        (r.cache.lookup t.stage t.inputs.hash t.outputs) := by
      intro w x w' done
      cases done
      rfl
    refine looks.bind fun ⟨hit, cache⟩ counted => ?_
    obtain rfl : cache = r.cache.count hit := counted
    cases hit with
    | true =>
      refine yields_pure ⟨fun _ => ?_, fun miss => (by cases miss)⟩
      rw [tells.own]
      exact h.cached t.outputs
    | false => exact yields_bind fun _ => yields_pure ⟨fun hit => (by cases hit), fun _ => rfl⟩
  refine checks.bind fun ⟨hit, r₁⟩ ⟨found, missed⟩ => ?_
  cases hit with
  | true => exact yields_pure (found rfl)
  | false =>
    obtain rfl := missed rfl
    refine (tells.yields _).bind fun x ⟨own, run⟩ => yields_bind fun _ => yields_pure ?_
    subst own
    exact h.executed tells.cacheable run

theorem yields_enter_passed (h : r.Passed stages) (stage : Stage) :
    Yields (Passed stages) (r.enter stage) :=
  yields_bind fun _ => yields_pure ⟨h.order, h.hits, h.misses⟩

theorem passed_staged {task : Run → Action Error Task}
    (tells : ∀ r, Yields (Task.Tells stage) (task r)) (h : r.Passed stages) :
    Yields (Passed (stages ++ [stage])) (r.staged stage task) :=
  (yields_enter_passed h stage).bind fun r₁ h₁ =>
    (tells r₁).bind fun _ tells => passed_perform tells h₁

theorem tells_boardTask (g : Graph.ValidDesign) (r : Run) :
    Yields (Task.Tells .prepareBoard) (boardTask s g r) :=
  yields_bind fun _ => yields_bind fun _ => yields_pure
    ⟨rfl, rfl, fun _ => yields_bind fun _ => yields_pure ⟨rfl, rfl⟩⟩

theorem tells_buildTask (app : String) (template : Option String) (r : Run) :
    Yields (Task.Tells .build) (buildTask s app template r) :=
  yields_bind fun _ => yields_bind fun _ => yields_bind fun _ => yields_pure
    ⟨rfl, rfl, fun _ => yields_bind fun _ => yields_pure ⟨rfl, rfl⟩⟩

theorem tells_simulatorTask (templatesDir : Option String) (r : Run) :
    Yields (Task.Tells .prepareSimulatorFiles) (simulatorTask s templatesDir r) :=
  yields_bind fun _ => yields_bind fun _ => yields_bind fun _ => yields_pure
    ⟨rfl, rfl, fun _ => yields_bind fun _ => yields_pure ⟨rfl, rfl⟩⟩

theorem passed_simulate (timeout : Option Nat) (h : r.Passed stages) :
    Yields (Passed (stages ++ [.simulate])) (simulate s r timeout) := by
  refine (yields_enter_passed h _).bind fun r₁ h₁ => yields_bind fun _ => yields_bind fun _ => ?_
  refine (yields_simulationOutcome _ _).bind fun ⟨outcome, code⟩ run => yields_pure ?_
  exact h₁.simulated (x := ⟨.simulate, outcome, code, _, _, _⟩) rfl run

end Run

namespace Request

/-- A stage without a design or without an application fails at once. -/
theorem runStage_cases (s : Setup) (q : Request) (r : Run) (stage : Stage) :
    (∃ e, q.runStage s r stage = throw e) ∨
      (∃ g, stage = .prepareBoard ∧ q.design = some g) ∨
      (∃ app, stage = .build ∧ q.appDir? = some app) ∨
      stage = .prepareSimulatorFiles ∨ stage = .simulate := by
  cases stage with
  | prepareBoard =>
    cases design : q.design with
    | none => exact .inl ⟨.missingGraph .prepareBoard, by simp [runStage, design]⟩
    | some g => exact .inr (.inl ⟨g, rfl, rfl⟩)
  | build =>
    cases dir : q.appDir? with
    | none => exact .inl ⟨.missingArtifact .build "<application>", by simp [runStage, dir]⟩
    | some app => exact .inr (.inr (.inl ⟨app, rfl, rfl⟩))
  | prepareSimulatorFiles => exact .inr (.inr (.inr (.inl rfl)))
  | simulate => exact .inr (.inr (.inr (.inr rfl)))

theorem passed_runStage (s : Setup) (q : Request) (h : r.Passed stages) (stage : Stage) :
    Yields (Run.Passed (stages ++ [stage])) (q.runStage s r stage) := by
  obtain ⟨e, failed⟩ | ⟨g, rfl, design⟩ | ⟨app, rfl, dir⟩ | rfl | rfl := runStage_cases s q r stage
  · rw [failed]
    exact yields_throw e
  · rw [runStage_prepareBoard design]
    refine (Run.passed_staged (Run.tells_boardTask g) h).bind fun r₁ h₁ => ?_
    cases q.template with
    | none => exact yields_pure h₁
    | some source => exact yields_bind fun _ => yields_pure h₁
  · rw [runStage_build dir]
    exact Run.passed_staged (Run.tells_buildTask app _) h
  · exact Run.passed_staged (Run.tells_simulatorTask _) h
  · exact Run.passed_simulate q.timeout h

theorem passed_stages (s : Setup) (q : Request) (h : r.Passed stages) (more : List Stage) :
    Yields (Run.Passed (stages ++ more)) (more.foldlM (q.runStage s) r) := by
  induction more generalizing r stages with
  | nil => exact yields_pure (by simpa using h)
  | cons stage rest ih =>
    rw [List.foldlM_cons, List.append_cons]
    exact (passed_runStage s q h stage).bind fun r₁ h₁ => ih h₁

end Request

/-! ## The lock held -/

namespace Run

/-- The run holds the lock of the board under a token. -/
structure Holds (ws : Workspace) (board token : String) (r : Run) : Prop where
  fits : r.Fits ws board
  token : r.lock.holder.token = token
  small : r.lock.holder.pid < Nat.pow 2 32

theorem Holds.of_goesOn (h : r.Holds ws board token) (goesOn : r.GoesOn r') :
    r'.Holds ws board token :=
  ⟨h.fits.of_goesOn goesOn, goesOn.lock ▸ h.token, goesOn.lock ▸ h.small⟩

/-- Nothing lies where the lock belongs but the file of the run that holds it. -/
abbrev Alone (ws : Workspace) (board token : String) (here : Location) : World → Prop :=
  Only here (ws.lockPlace board) (OwnFile token)

section Holds

variable (holds : r.Holds s.workspace board token)
include holds

theorem yields_enter_holds (stage : Stage) :
    Yields (Holds s.workspace board token) (r.enter stage) := by
  have sets : Yields (fun l => l.Fits s.workspace.locksDir board ∧ l.holder.token = token ∧
      l.holder.pid < Nat.pow 2 32) (r.lock.setStage stage).alone := by
    intro w l w' done
    have fits := Workspace.Lock.fits_of_setStage holds.fits.lock done
    obtain rfl := Workspace.Lock.setStage_eq_ok done
    exact ⟨fits, holds.token, holds.small⟩
  exact sets.bind fun l ⟨fits, token, small⟩ => yields_pure
    ⟨⟨holds.fits.dir, fits, holds.fits.board⟩, token, small⟩

theorem yields_staged_holds {task : Run → Action Error Task} (stage : Stage) :
    Yields (Holds s.workspace board token) (r.staged stage task) :=
  (yields_enter_holds holds stage).bind fun _ holds => yields_bind fun _ =>
    fun w r' w' done => holds.of_goesOn (yields_perform w r' w' done)

theorem yields_simulate_holds (timeout : Option Nat) :
    Yields (Holds s.workspace board token) (simulate s r timeout) :=
  (yields_enter_holds holds _).bind fun _ holds => yields_bind fun _ => yields_bind fun _ =>
    yields_bind fun _ => yields_pure ⟨⟨holds.fits.dir, holds.fits.lock, holds.fits.board⟩,
      holds.token, holds.small⟩

variable (ordinary : s.workspace.Ordinary board)
include ordinary

theorem maintains_enter (stage : Stage) :
    Maintains (Alone s.workspace board token here) (r.enter stage) := by
  have sets : Maintains (Only here (placeFrom here r.lock.path) (OwnFile r.lock.holder.token))
      (r.lock.setStage stage).alone :=
    Workspace.Lock.maintains_setStage holds.fits.lock holds.small stage
  rw [holds.fits.lock.path, holds.token] at sets
  have place := Workspace.placeFrom_lockPath ordinary here
  rw [Workspace.lockPath] at place
  rw [place] at sets
  exact maintains_bind sets fun _ => maintains_pure _

theorem maintains_staged {task : Run → Action Error Task} (stage : Stage)
    (reads : ∀ r, Reads (task r))
    (passes : ∀ r, r.Fits s.workspace board →
      Yields (Task.Passes s.workspace board (Alone s.workspace board token here)) (task r)) :
    Maintains (Alone s.workspace board token here) (r.staged stage task) :=
  (maintains_enter holds ordinary stage).bind (yields_enter_holds holds stage) fun r holds =>
    (reads r).maintains.bind (passes r holds.fits) fun _ passes =>
      maintains_perform ordinary holds.fits passes

end Holds

end Run

/-! ## Nobody else at the lock -/

/-- The request is for a board whose name does not step up, and neither tools nor an application
put anything where the lock of the board lies. -/
structure Request.Undisturbed (s : Setup) (q : Request) (w : World) : Prop where
  ordinary : s.workspace.Ordinary q.board
  proper : w.files.Proper
  small : s.pid < Nat.pow 2 32
  tools : s.launch.PassesBy (s.workspace.lockPlace q.board)
  app : ∀ source, q.template = some source →
    Aside w.here (s.workspace.lockPlace q.board) source.outputDir ∧
      Clear (· = s.workspace.lockPlace q.board) w.here source.outputDir

namespace Request

section Stages

variable (undisturbed : q.Undisturbed s w) (holds : r.Holds s.workspace q.board token)
include undisturbed holds

omit undisturbed in
theorem yields_runStage_holds (stage : Stage) :
    Yields (Run.Holds s.workspace q.board token) (q.runStage s r stage) := by
  obtain ⟨e, failed⟩ | ⟨g, rfl, design⟩ | ⟨app, rfl, dir⟩ | rfl | rfl := runStage_cases s q r stage
  · rw [failed]
    exact yields_throw e
  · rw [runStage_prepareBoard design]
    refine (Run.yields_staged_holds holds _).bind fun r holds => ?_
    cases q.template with
    | none => exact yields_pure holds
    | some source => exact yields_bind fun _ => yields_pure holds
  · rw [runStage_build dir]
    exact Run.yields_staged_holds holds _
  · exact Run.yields_staged_holds holds _
  · exact Run.yields_simulate_holds holds _

theorem maintains_runStage (stage : Stage) :
    Maintains (Run.Alone s.workspace q.board token w.here) (q.runStage s r stage) := by
  obtain ⟨ordinary, -, -, tools, app⟩ := undisturbed
  obtain ⟨e, failed⟩ | ⟨g, rfl, design⟩ | ⟨app, rfl, dir⟩ | rfl | rfl := runStage_cases s q r stage
  · rw [failed]
    exact maintains_throw e
  · rw [runStage_prepareBoard design]
    refine maintains_bind (Run.maintains_staged holds ordinary _ (Run.reads_boardTask g)
      fun r fits => Run.passes_boardTask ordinary fits g) fun r => ?_
    cases template : q.template with
    | none => exact maintains_pure _
    | some source =>
      obtain ⟨aside, clear⟩ := app source template
      refine maintains_bind (maintains_mapError ?_ _) fun _ => maintains_pure _
      exact App.maintains_generate (indifferent_only _) g aside.room clear
  · rw [runStage_build dir]
    exact Run.maintains_staged holds ordinary _ (Run.reads_buildTask app _)
      fun r _ => Run.passes_buildTask ordinary tools app _ r
  · exact Run.maintains_staged holds ordinary _ (Run.reads_simulatorTask _)
      fun r _ => Run.passes_simulatorTask ordinary tools _ r
  · exact Run.maintains_simulate ordinary holds.fits tools _
      (Run.maintains_enter holds ordinary _)

theorem maintains_stages (stages : List Stage) :
    Maintains (Run.Alone s.workspace q.board token w.here) (stages.foldlM (q.runStage s) r) := by
  induction stages generalizing r with
  | nil => exact maintains_pure _
  | cons stage rest ih =>
    rw [List.foldlM_cons]
    exact (maintains_runStage undisturbed holds stage).bind
      (yields_runStage_holds holds stage) fun r holds => ih holds

end Stages

/-! ## The beginning and the end -/

variable {e : Error} {w₁ : World}

theorem start_of_acquire {board : String} {l : Workspace.Lock} {first : Stage}
    (done : (Workspace.Lock.acquire s.pid s.workspace.locksDir board first).alone w = (.ok l, w')) :
    Run.start s board first w =
      (.ok ⟨board, l, .ofDir (s.workspace.stagesDir board), [], w.clock⟩, w') := by
  rw [Run.start, bind_apply]
  change ((Workspace.Lock.acquire s.pid s.workspace.locksDir board first).alone >>= _) w = _
  rw [bind_apply, done]
  rfl

theorem start_of_refused {board : String} {first : Stage}
    (failed : (Workspace.Lock.acquire s.pid s.workspace.locksDir board first).alone w =
      (.error e, w')) : Run.start s board first w = (.error e, w') := by
  rw [Run.start, bind_apply]
  change ((Workspace.Lock.acquire s.pid s.workspace.locksDir board first).alone >>= _) w = _
  rw [bind_apply, failed]

theorem acquire_of_start {board : String} {first : Stage}
    (done : Run.start s board first w = (.ok r, w₀)) :
    ∃ l, (Workspace.Lock.acquire s.pid s.workspace.locksDir board first).alone w = (.ok l, w₀) ∧
      r = ⟨board, l, .ofDir (s.workspace.stagesDir board), [], w.clock⟩ := by
  rcases taken : (Workspace.Lock.acquire s.pid s.workspace.locksDir board first).alone w
    with ⟨e | l, v⟩
  · rw [start_of_refused taken] at done
    cases done
  · rw [start_of_acquire taken] at done
    cases done
    exact ⟨l, rfl, rfl⟩

theorem run_of_refused (refused : Run.start s q.board q.first w = (.error e, w₀)) :
    q.run s w = (.error e, w₀) := by
  rw [run, bind_apply, refused]

section Started

variable (started : Run.start s q.board q.first w = (.ok r, w₀))
include started

theorem run_of_passed
    (passed : (Stage.range q.first q.last).foldlM (q.runStage s) r w₀ = (.ok r', w₁)) :
    q.run s w = r'.finish w₁ := by
  rw [run, bind_apply, started]
  dsimp only
  rw [bind_apply, attempt, passed]

theorem run_of_failed
    (failed : (Stage.range q.first q.last).foldlM (q.runStage s) r w₀ = (.error e, w₁)) :
    q.run s w = (.error e, (r.lock.release.run w₁).2) := by
  rw [run, bind_apply, started]
  dsimp only
  rw [bind_apply, attempt, failed]
  rfl

end Started

/-- A stage of the run has failed, and nothing has happened after that, but that the lock has been
given up. -/
def Halts (s : Setup) (q : Request) (r : Run) (w₀ : World) (e : Error) (w' : World) : Prop :=
  ∃ before stage after r₁ w₁ w₂, Stage.range q.first q.last = before ++ stage :: after ∧
    before.foldlM (q.runStage s) r w₀ = (.ok r₁, w₁) ∧ q.runStage s r₁ stage w₁ = (.error e, w₂) ∧
      (w' = w₂ ∨ ∃ place, w₂.locate (s.workspace.lockPath q.board) = .ok place ∧
        w' = { w₂ with files := w₂.files.erase place })

theorem lock_path_of_start (started : Run.start s q.board q.first w = (.ok r, w₀)) :
    r.lock.path = s.workspace.lockPath q.board := by
  obtain ⟨l, taken, rfl⟩ := acquire_of_start started
  exact (Workspace.Lock.fits_of_acquire taken).path

theorem halts_of_failed (started : Run.start s q.board q.first w = (.ok r, w₀))
    (failed : (Stage.range q.first q.last).foldlM (q.runStage s) r w₀ = (.error e, w₁)) :
    q.Halts s r w₀ e (r.lock.release.run w₁).2 := by
  obtain ⟨before, stage, after, r₁, w₂, whole, passed, stops⟩ := foldlM_eq_error failed
  have given := Workspace.Lock.release_cases r.lock w₁
  rw [lock_path_of_start started] at given
  exact ⟨before, stage, after, r₁, w₂, w₁, whole, passed, stops, given⟩

end Request

namespace Run

theorem accounts_of_passed {first last : Stage} {report : Report}
    (h : r.Passed (Stage.range first last)) (done : r.finish w = (.ok report, w')) :
    report.Accounts first last := by
  cases done
  have sorted : Stage.all.Pairwise (·.index < ·.index) := by decide
  refine ⟨?_, fun stage => ?_, h.hits, h.misses⟩ <;> dsimp only <;> rw [h.order]
  · exact sorted.filter _
  · exact Stage.mem_range

section Lock

variable (ordinary : s.workspace.Ordinary q.board)
include ordinary

/-- Who gets the lock holds it alone. -/
theorem holds_of_start (small : s.pid < Nat.pow 2 32) (proper : w.files.Proper)
    (started : start s q.board q.first w = (.ok r, w₀)) :
    r.Holds s.workspace q.board r.lock.holder.token ∧
      Alone s.workspace q.board r.lock.holder.token w.here w₀ := by
  obtain ⟨l, taken, rfl⟩ := Request.acquire_of_start started
  have fits := Workspace.Lock.fits_of_acquire taken
  have held := Workspace.Lock.held_of_acquire small proper taken
  have place := Workspace.placeFrom_lockPath ordinary w.here
  rw [Workspace.lockPath] at place
  rw [fits.path, place] at held
  refine ⟨⟨⟨rfl, fits, rfl⟩, rfl, ?_⟩, held⟩
  obtain ⟨e, v, failed, -⟩ | ⟨l', v, done, -, pid, -⟩ :=
    Workspace.Lock.acquire_cases s.pid s.workspace.locksDir q.board q.first w
  · cases taken.symm.trans failed
  · cases taken.symm.trans done
    exact pid ▸ small

/-- Who holds the lock alone leaves none when it gives the lock up. -/
theorem free_of_holds (holds : r.Holds s.workspace q.board token)
    (alone : Alone s.workspace q.board token here w) :
    (r.lock.release.run w).2.doesExist (s.workspace.lockPath q.board) = false := by
  have path : r.lock.path = s.workspace.lockPath q.board := holds.fits.lock.path
  have held := alone
  rw [Alone, ← Workspace.placeFrom_lockPath ordinary here, ← path, ← holds.token] at held
  rw [← path]
  exact Workspace.Lock.free_of_release holds.fits.lock held

end Lock

end Run

namespace Request

theorem yields_stages_holds (holds : r.Holds s.workspace q.board token) (stages : List Stage) :
    Yields (Run.Holds s.workspace q.board token) (stages.foldlM (q.runStage s) r) := by
  induction stages generalizing r with
  | nil => exact yields_pure holds
  | cons stage rest ih =>
    rw [List.foldlM_cons]
    exact (yields_runStage_holds holds stage).bind fun r holds => ih holds

theorem free_of_run (undisturbed : q.Undisturbed s w)
    (started : Run.start s q.board q.first w = (.ok r, w₀)) :
    (q.run s w).2.doesExist (s.workspace.lockPath q.board) = false := by
  have ordinary := undisturbed.ordinary
  obtain ⟨holds, alone⟩ :=
    Run.holds_of_start ordinary undisturbed.small undisturbed.proper started
  have maintained := maintains_stages undisturbed holds (Stage.range q.first q.last) w₀ alone
  have kept := yields_stages_holds holds (Stage.range q.first q.last) w₀
  rcases ran : (Stage.range q.first q.last).foldlM (q.runStage s) r w₀ with ⟨e | r', w₁⟩ <;>
    rw [ran] at maintained
  · rw [run_of_failed started ran]
    exact Run.free_of_holds ordinary holds maintained
  · rw [run_of_passed started ran]
    exact Run.free_of_holds ordinary (kept r' w₁ ran) maintained

/-- Who does not get the lock leaves the directories of the boards as they were. -/
theorem same_of_refused (root : Plain s.workspace.root)
    (refused : Run.start s q.board q.first w = (.error e, w₀)) {kind : String}
    (isName : IsName kind) (other : kind ≠ ".locks") (rest : Location) :
    w₀.files.find? (placeFrom [] (join s.workspace.root kind) ++ rest) =
      w.files.find? (placeFrom [] (join s.workspace.root kind) ++ rest) := by
  obtain ⟨e', v, failed, -, same⟩ | ⟨l, v, done, -⟩ :=
    Workspace.Lock.acquire_cases s.pid s.workspace.locksDir q.board q.first w
  · cases (start_of_refused failed).symm.trans refused
    refine same _ fun through => other ?_
    have above := prefix_of_through (root.join Workspace.isName_locks.noUp) through
    rw [Workspace.isName_locks.placeFrom_join, isName.placeFrom_join, root.placeFrom,
      root.placeFrom, List.append_assoc, List.prefix_append_right_inj] at above
    exact (List.cons_prefix_cons.mp above).1
  · cases (start_of_acquire done).symm.trans refused

/-- A run that is refused the lock changes nothing of the boards. One that gets it either passes
all its stages and accounts for them, or it halts at the first one that fails, and in the end there
is no lock. -/
theorem run_ends {result : Except Error Run.Report} (root : Plain s.workspace.root)
    (done : q.run s w = (result, w')) :
    (∀ report, result = .ok report → report.Accounts q.first q.last) ∧
    (∀ e w₀, Run.start s q.board q.first w = (.error e, w₀) → result = .error e ∧ w' = w₀ ∧
      ∀ dir ∈ [s.workspace.boardsDir, s.workspace.buildRoot, s.workspace.buildsRoot,
        s.workspace.generatedDir], ∀ rest,
          w'.files.find? (placeFrom [] dir ++ rest) = w.files.find? (placeFrom [] dir ++ rest)) ∧
    ∀ r w₀, Run.start s q.board q.first w = (.ok r, w₀) →
      (∀ e, result = .error e → q.Halts s r w₀ e w') ∧
      (q.Undisturbed s w → w'.doesExist (s.workspace.lockPath q.board) = false) := by
  refine ⟨fun report ok => ?_, fun e w₀ refused => ?_, fun r w₀ started => ⟨fun e failed => ?_, ?_⟩⟩
  · subst ok
    rcases started : Run.start s q.board q.first w with ⟨e | r, w₀⟩
    · cases (run_of_refused started).symm.trans done
    rcases ran : (Stage.range q.first q.last).foldlM (q.runStage s) r w₀ with ⟨e | r', w₁⟩
    · cases (run_of_failed started ran).symm.trans done
    obtain ⟨l, -, rfl⟩ := acquire_of_start started
    have passed := passed_stages s q ⟨rfl, rfl, rfl⟩ (Stage.range q.first q.last) w₀ r' w₁ ran
    exact Run.accounts_of_passed passed ((run_of_passed started ran).symm.trans done)
  · cases (run_of_refused refused).symm.trans done
    refine ⟨rfl, rfl, fun dir mem rest => ?_⟩
    simp only [List.mem_cons, List.not_mem_nil, or_false] at mem
    obtain rfl | rfl | rfl | rfl := mem <;>
      exact same_of_refused root refused ⟨by decide, by decide, by decide⟩ (by decide) rest
  · subst failed
    rcases ran : (Stage.range q.first q.last).foldlM (q.runStage s) r w₀ with ⟨e' | r', w₁⟩
    · cases (run_of_failed started ran).symm.trans done
      exact halts_of_failed started ran
    · cases (run_of_passed started ran).symm.trans done
  · intro undisturbed
    have free := free_of_run undisturbed started
    rwa [done] at free

/-! ## Some runs -/

theorem exists_of_isOk {α : Type} {a : Action Error α} (h : (a w).1.isOk = true) :
    ∃ x w', a w = (.ok x, w') := by
  rcases done : a w with ⟨e | x, w'⟩ <;> rw [done] at h
  · cases h
  · exact ⟨x, w', rfl⟩

theorem exists_of_not_isOk {α : Type} {a : Action Error α} (h : (a w).1.isOk = false) :
    ∃ e w', a w = (.error e, w') := by
  rcases done : a w with ⟨e | x, w'⟩ <;> rw [done] at h
  · exact ⟨e, w', rfl⟩
  · cases h

theorem passesBy_idle (place : Location) :
    (Tool.Launcher.ofActions fun _ => pure ()).PassesBy place := by
  rintro i w p proper ⟨⟩ stop time
  exact passesBy_self proper

/-- A workspace at the root, with programs that do nothing. -/
def idleSetup : Setup :=
  { forgetfulSetup "x" with launch := .ofActions fun _ => pure () }

/-- The board made, and an application built that nobody has named. -/
def upTo (last : Stage) : Request := { overRecords with last := last, template := none }

/-- Another process that runs holds the lock of the board. -/
def heldByOther : World :=
  { worldOf [([".locks"], .dir),
      ([".locks", "x.lock"], .file (Workspace.Holder.bytes ⟨7, "build", "t"⟩) false)] with
    processes := [7] }

theorem undisturbed_upTo (last : Stage) : (upTo last).Undisturbed idleSetup bareResources where
  ordinary := ⟨plain_root, show ".." ∉ names "x" by decide⟩
  proper := Tree.proper_of_isProper (by decide)
  small := by decide
  tools := passesBy_idle _
  app := fun _ none => by cases none

/-- A run that passes its only stage, one that is refused the lock, and one without an application
to build. -/
theorem run_ends_bareResources :
    (∃ report w', (upTo .prepareBoard).run idleSetup bareResources = (.ok report, w') ∧
      report.Accounts .prepareBoard .prepareBoard) ∧
    (∃ e w₀, Run.start idleSetup "x" .prepareBoard heldByOther = (.error e, w₀) ∧
      (upTo .build).run idleSetup heldByOther = (.error e, w₀)) ∧
    ∃ r w₀ e w', Run.start idleSetup "x" .prepareBoard bareResources = (.ok r, w₀) ∧
      (upTo .build).run idleSetup bareResources = (.error e, w') ∧
      (upTo .build).Halts idleSetup r w₀ e w' ∧ w'.doesExist "/.locks/x.lock" = false := by
  refine ⟨?_, ?_, ?_⟩
  · obtain ⟨report, w', done⟩ := exists_of_isOk
      (show ((upTo .prepareBoard).run idleSetup bareResources).1.isOk = true by decide +kernel)
    exact ⟨report, w', done, (run_ends plain_root done).1 report rfl⟩
  · obtain ⟨e, w₀, refused⟩ := exists_of_not_isOk
      (show (Run.start idleSetup "x" .prepareBoard heldByOther).1.isOk = false by decide +kernel)
    rcases done : (upTo .build).run idleSetup heldByOther with ⟨result, w'⟩
    obtain ⟨rfl, rfl, -⟩ := (run_ends plain_root done).2.1 e w₀ refused
    exact ⟨e, w', refused, rfl⟩
  · obtain ⟨r, w₀, started⟩ := exists_of_isOk
      (show (Run.start idleSetup "x" .prepareBoard bareResources).1.isOk = true by decide +kernel)
    obtain ⟨e, w', failed⟩ := exists_of_not_isOk
      (show ((upTo .build).run idleSetup bareResources).1.isOk = false by decide +kernel)
    obtain ⟨halts, free⟩ := (run_ends plain_root failed).2.2 r w₀ started
    exact ⟨r, w₀, e, w', started, failed, halts e rfl, free (undisturbed_upTo .build)⟩

/-- A template with a lock file among its files. -/
def lockInTemplate : World :=
  { bareResources with files := ⟨bareResources.files.nodes ++ [(["t", "x.lock"], textFile "")]⟩ }

/-- The board made, and an application put where the locks of the boards lie. -/
def overLocks : Request := { overRecords with template := some ⟨"/t", "/.locks", true⟩ }

/-- A board with a name that steps up from the directory of the locks to that of the builds. -/
def steppingLock : Request := { only "z/../.lock/../../builds/" .build with app := some "/app" }

def steppingLockWorld : World := worldOf [([".locks"], .dir), ([".locks", "z"], .dir),
  ([".locks", ".lock"], .dir), (["build"], .dir), (["build", "z"], .dir),
  (["build", ".lock"], .dir), (["boards"], .dir), (["boards", "z"], .dir),
  (["boards", ".lock"], .dir), (["builds"], .dir), (["app"], .dir)]

/-- Though no tool does anything, something lies where the lock belongs when a run has ended that
had got the lock, if an application is put over the locks, or if the name of the board steps up. -/
theorem lock_stays : (∀ place, idleSetup.launch.PassesBy place) ∧ Plain "/" ∧
    (lockInTemplate.files.Proper ∧ Graph.validate bareDesign bareTypes = .ok bareBoard ∧
      (∃ r w₀, Run.start idleSetup overLocks.board overLocks.first lockInTemplate = (.ok r, w₀)) ∧
      (overLocks.run idleSetup lockInTemplate).2.doesExist
        (idleSetup.workspace.lockPath overLocks.board) = true) ∧
    steppingLockWorld.files.Proper ∧
      (∃ r w₀, Run.start idleSetup steppingLock.board steppingLock.first steppingLockWorld =
        (.ok r, w₀)) ∧
      (steppingLock.run idleSetup steppingLockWorld).2.doesExist
        (idleSetup.workspace.lockPath steppingLock.board) = true :=
  ⟨passesBy_idle, plain_root,
    ⟨Tree.proper_of_isProper (by decide), by decide, exists_of_isOk (by decide +kernel),
      by decide +kernel⟩,
    Tree.proper_of_isProper (by decide), exists_of_isOk (by decide +kernel), by decide +kernel⟩

end Request

end BoardDesign
