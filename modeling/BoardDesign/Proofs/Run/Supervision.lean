import BoardDesign.Proofs.File.Descent
import BoardDesign.Proofs.Run.Reuse

/-!
# The first event decides how a watched process ends

The watcher looks at a process until something happens. What it does then depends on that look
alone, and on the looks of the grace period if the process has to be stopped.

* `Poll.Quiet`: looks at which nothing happens; `superviseFrom_append`: they leave the watcher
  watching;
* `Stops`: how a process that was interrupted ends, from the looks of its grace period;
* `Watched`: how a process that is watched ends, and what its group is sent;
* `supervise_eq_some_iff`, `supervise_eq_none_iff`: the watcher does that, and nothing else;
* `Process.isSome_watched`: the watch of a process that ends, or that has a limit, comes to its end;
* `simulate_eq`, `build_eq`: both stages start a tool and then judge the end of its watch alone;
* `judged_of_started`, `holds_of_build`: what a simulation reports, and what a build puts on record.
-/

namespace BoardDesign.Tool

/-! ## The grace period -/

/-- How a process that was interrupted ends: with the first status that is seen in its grace
period, or killed if none is seen. -/
inductive Stops : List (Option ExitStatus) → Ending → Prop
  | seen {before status after} (unseen : ∀ x ∈ before, x = none) :
      Stops (before ++ some status :: after) (.interrupted status)
  | never {period} (unseen : ∀ x ∈ period, x = none) : Stops period .killed

variable {grace : Nat → List (Option ExitStatus)} {polls before : List Poll}
  {period : List (Option ExitStatus)} {sent : List Signal} {s : Supervised} {ending : Ending}

theorem Stops.ne_exited (h : Stops period ending) (status : ExitStatus) :
    ending ≠ .exited status := by
  cases h <;> nofun

/-- A look at a process that still runs changes nothing. -/
theorem Stops.cons (h : Stops period ending) : Stops (none :: period) ending := by
  cases h with
  | seen unseen => exact .seen (List.forall_mem_cons.mpr ⟨rfl, unseen⟩)
  | never unseen => exact .never (List.forall_mem_cons.mpr ⟨rfl, unseen⟩)

theorem stops_windDown (sent : List Signal) (period : List (Option ExitStatus)) :
    Stops period (windDown sent period).ending := by
  induction period with
  | nil => exact .never nofun
  | cons x rest ih =>
    cases x with
    | none => exact ih.cons
    | some status => exact @Stops.seen [] status rest nofun

/-- However the grace period ends, the group is sent one more signal. -/
theorem signals_windDown (sent : List Signal) (period : List (Option ExitStatus)) :
    (windDown sent period).signals = sent ++ [.kill] := by
  induction period with
  | nil => rfl
  | cons x rest ih =>
    cases x with
    | none => exact ih
    | some status => rfl

theorem windDown_append (unseen : ∀ x ∈ period, x = none) (rest : List (Option ExitStatus)) :
    windDown sent (period ++ rest) = windDown sent rest := by
  induction period with
  | nil => rfl
  | cons x period ih =>
    obtain ⟨rfl, others⟩ := List.forall_mem_cons.mp unseen
    exact ih others

theorem Stops.ending_windDown (h : Stops period ending) (sent : List Signal) :
    (windDown sent period).ending = ending := by
  cases h with
  | seen unseen => rw [windDown_append unseen, windDown]
  | never unseen =>
    have whole : windDown sent (period ++ []) = windDown sent [] := windDown_append unseen []
    rw [List.append_nil] at whole
    rw [whole, windDown]

theorem windDown_eq_iff :
    windDown sent period = s ↔ Stops period s.ending ∧ s.signals = sent ++ [.kill] := by
  constructor
  · rintro rfl
    exact ⟨stops_windDown sent period, signals_windDown sent period⟩
  · rintro ⟨stops, signals⟩
    have ending := stops.ending_windDown sent
    rw [← signals_windDown sent period] at signals
    cases s
    cases ending
    cases signals
    rfl

/-! ## The watch -/

/-- Nothing happens at the look. -/
def Poll.Quiet (p : Poll) : Prop := p.exited = none ∧ p.wantsStop = false

/-- How a process that is watched ends, and what its group is sent. That it has ended counts before
any reason to stop it that is seen at the same look. -/
inductive Watched (grace : Nat → List (Option ExitStatus)) : List Poll → Supervised → Prop
  | exited {before p after status} (quiet : ∀ q ∈ before, Poll.Quiet q)
      (ended : p.exited = some status) :
      Watched grace (before ++ p :: after) ⟨.exited status, []⟩
  | stopped {before p after ending} (quiet : ∀ q ∈ before, Poll.Quiet q) (running : p.exited = none)
      (wanted : p.wantsStop = true) (stops : Stops (grace before.length) ending) :
      Watched grace (before ++ p :: after) ⟨ending, [.interrupt, .kill]⟩

/-- Quiet looks leave the watcher watching. -/
theorem superviseFrom_append (quiet : ∀ q ∈ before, q.Quiet) (index : Nat) (rest : List Poll) :
    superviseFrom grace index (before ++ rest) =
      superviseFrom grace (index + before.length) rest := by
  induction before generalizing index with
  | nil => rfl
  | cons q before ih =>
    obtain ⟨⟨running, unwanted⟩, quiet⟩ := List.forall_mem_cons.mp quiet
    rw [List.cons_append, superviseFrom, running, unwanted]
    simpa [Nat.add_assoc, Nat.add_comm 1] using ih quiet (index + 1)

theorem Watched.supervise_eq (h : Watched grace polls s) : supervise grace polls = some s := by
  cases h with
  | exited quiet ended => rw [supervise, superviseFrom_append quiet, superviseFrom, ended]
  | stopped quiet running wanted stops =>
    rw [supervise, superviseFrom_append quiet, superviseFrom, running, wanted, Nat.zero_add]
    exact congrArg some (windDown_eq_iff.mpr ⟨stops, rfl⟩)

/-- Unless all looks are quiet there is a first one at which something happens. -/
theorem exists_first_event (event : ¬ ∀ q ∈ polls, q.Quiet) :
    ∃ before p after, polls = before ++ p :: after ∧ (∀ q ∈ before, q.Quiet) ∧ ¬ p.Quiet := by
  induction polls with
  | nil => exact absurd nofun event
  | cons q rest ih =>
    by_cases quiet : q.Quiet
    · obtain ⟨before, p, after, rfl, first, happens⟩ :=
        ih fun all => event (List.forall_mem_cons.mpr ⟨quiet, all⟩)
      exact ⟨q :: before, p, after, rfl, List.forall_mem_cons.mpr ⟨quiet, first⟩, happens⟩
    · exact ⟨[], q, rest, rfl, nofun, quiet⟩

/-- That look decides. -/
theorem exists_watched (grace : Nat → List (Option ExitStatus))
    (event : ¬ ∀ q ∈ polls, q.Quiet) : ∃ s, Watched grace polls s := by
  obtain ⟨before, p, after, rfl, quiet, happens⟩ := exists_first_event event
  cases running : p.exited with
  | some status => exact ⟨_, .exited quiet running⟩
  | none =>
    have wanted : p.wantsStop = true := by
      by_contra unwanted
      exact happens ⟨running, Bool.not_eq_true _ ▸ unwanted⟩
    exact ⟨_, .stopped quiet running wanted (stops_windDown [] (grace before.length))⟩

theorem supervise_eq_none_iff : supervise grace polls = none ↔ ∀ q ∈ polls, q.Quiet := by
  constructor
  · intro unending
    by_contra event
    obtain ⟨s, watched⟩ := exists_watched grace event
    rw [watched.supervise_eq] at unending
    cases unending
  · intro quiet
    have whole : superviseFrom grace 0 (polls ++ []) = _ := superviseFrom_append quiet 0 []
    rw [List.append_nil] at whole
    rw [supervise, whole, superviseFrom]

theorem supervise_eq_some_iff : supervise grace polls = some s ↔ Watched grace polls s := by
  refine ⟨fun ended => ?_, Watched.supervise_eq⟩
  have event : ¬ ∀ q ∈ polls, q.Quiet := fun quiet => by
    rw [supervise_eq_none_iff.mpr quiet] at ended
    cases ended
  -- What the look decides is what the watcher does, so it is what the watcher did.
  obtain ⟨s', watched⟩ := exists_watched grace event
  rw [watched.supervise_eq] at ended
  cases ended
  exact watched

theorem Watched.signals_eq_nil {status : ExitStatus} {signals : List Signal}
    (h : Watched grace polls ⟨.exited status, signals⟩) : signals = [] := by
  cases h with
  | exited _ _ => rfl
  | stopped _ _ _ stops => exact absurd rfl (stops.ne_exited status)

theorem Watched.signals_of_interrupted {status : ExitStatus} {signals : List Signal}
    (h : Watched grace polls ⟨.interrupted status, signals⟩) : signals = [.interrupt, .kill] := by
  cases h with
  | stopped _ _ _ _ => rfl

/-! ## Processes -/

namespace Process

variable {process : Process} {l : Limits}

/-- What a watch of the process comes to, from the looks at it; none if it has no end. -/
def watched (process : Process) (l : Limits) : Option Supervised :=
  supervise (process.gracePolls l) (Process.polls l (process.undisturbed l))

theorem ending_of_watched (h : process.watched l = some s) :
    (process.supervised l).1 = s.ending := by
  rw [watched] at h
  rw [supervised, h]
  obtain ⟨ending, signals⟩ := s
  cases ending <;> rfl

theorem watched_of_exited {status : ExitStatus} (h : (process.supervised l).1 = .exited status) :
    process.watched l = some ⟨.exited status, []⟩ := by
  cases outcome : process.watched l with
  | none =>
    rw [watched] at outcome
    rw [supervised, outcome] at h
    cases h
  | some s =>
    rw [ending_of_watched outcome] at h
    obtain ⟨ending, signals⟩ := s
    obtain rfl : ending = .exited status := h
    rw [watched, supervise_eq_some_iff] at outcome
    rw [outcome.signals_eq_nil]

/-- Some look comes at a time or after it, among those up to it. -/
theorem exists_look (time : Nat) : ∃ i, i < looks time ∧ time ≤ i * pollInterval := by
  refine ⟨time / pollInterval + 1, by rw [looks]; omega, ?_⟩
  rw [pollInterval]
  omega

/-- Until a look at which nothing happens, the process has not ended and no limit is reached. -/
theorem before_of_quiet {run : Progress} {i : Nat} (quiet : (pollAt l run i).Quiet) :
    (∀ e, run.ended = some e → i * pollInterval < e.1) ∧
      ∀ t, earlier l.timeout l.stop = some t → i * pollInterval < t := by
  obtain ⟨running, unwanted⟩ := quiet
  constructor
  · intro e ended
    simpa [pollAt, Progress.statusAt, ended] using running
  · intro t first
    cases timeout : l.timeout <;> cases stop : l.stop <;>
      simp [pollAt, Poll.wantsStop, timeout, stop] at unwanted <;>
      simp [earlier, timeout, stop] at first <;> omega

/-- A watch comes to its end if the process ends undisturbed, or if there is a limit. -/
theorem isSome_watched
    (ends : (process.undisturbed l).ended.isSome ∨ (earlier l.timeout l.stop).isSome) :
    (process.watched l).isSome := by
  rw [Option.isSome_iff_ne_none, watched, ne_eq, supervise_eq_none_iff]
  generalize process.undisturbed l = run at ends ⊢
  intro quiet
  have quietAt : ∀ i < looks _, (pollAt l run i).Quiet := fun i within =>
    quiet _ (List.mem_map_of_mem (List.mem_range.mpr within))
  obtain ⟨i, within, late⟩ := exists_look _
  obtain ⟨running, unlimited⟩ := before_of_quiet (quietAt i within)
  cases ended : run.ended <;> cases first : earlier l.timeout l.stop <;>
    simp only [ended, first] at ends late running unlimited
  · simp at ends
  · exact absurd (unlimited _ rfl) (Nat.not_lt.mpr late)
  · exact absurd (running _ rfl) (Nat.not_lt.mpr late)
  · exact absurd (Nat.lt_min.mpr ⟨running _ rfl, unlimited _ rfl⟩) (Nat.not_lt.mpr late)

end Process

end BoardDesign.Tool

namespace BoardDesign

open File File.Path World Action
open Stage (Error)

/-! ## Tools -/

namespace Tool

variable {log : String} {w w' : World}

theorem write_of_openLog (opened : openLog log w = (.ok (), w')) :
    ∃ w₁ : World, w₁.write log [] = .ok w' := by
  unfold openLog at opened
  cases above : File.Path.parent? log with
  | some parent =>
    simp only [above] at opened
    obtain ⟨-, w₁, -, wrote⟩ := bind_eq_ok opened
    exact ⟨w₁, changing_of_mapError wrote⟩
  | none =>
    simp only [above] at opened
    exact ⟨w, changing_of_mapError opened⟩

/-- The output of a process is put into its log, or the log is gone by then. -/
theorem writeLog_of_openLog (opened : openLog log w = (.ok (), w')) (output : List UInt8)
    (v : World) : ∃ v', writeLog log output v = (.ok (), v') := by
  obtain ⟨w₁, wrote⟩ := write_of_openLog opened
  unfold writeLog
  rw [bind_apply]
  change ∃ v', (if v.isFile log then _ else _ : Action Error Unit) v = _
  split
  · rename_i there
    obtain ⟨v', written⟩ := write_of_isFile wrote there output
    exact ⟨v', by simp [Action.writeBytes, changing, Action.mapError, written]⟩
  · exact ⟨v, rfl⟩

end Tool

namespace Run

/-! ## The simulator -/

variable {s : Setup} {r r₁ : Run} {w w₁ : World} {process : Tool.Process} {since : Nat}

/-- All that is done before the simulator is watched: the run, the process, and the time at which
its start was begun. -/
def startSimulator (s : Setup) (r : Run) : Action Error (Run × Tool.Process × Nat) := do
  let stage := Stage.simulate
  let r ← r.enter stage
  let builds := s.workspace.buildsDir r.board
  let built := Board.BuildFiles.inDir builds
  let files := Board.PlatformFiles.inDir builds r.board
  [files.script, files.description, built.program].forM (requireFile stage)
  let tool := call s .simulator [("board", r.board), ("resc", files.script),
    ("repl", files.description), ("elf", built.program)] stage
  let since ← Action.clock
  if !s.showsOutput then Tool.openLog (r.cache.logPath stage)
  return (r, ← tool.start, since)

def simulatorLog (s : Setup) (r : Run) : Option String :=
  if s.showsOutput then none else some (r.cache.logPath .simulate)

/-- What is left of the simulator put where it belongs. -/
def leaveSimulator (s : Setup) (r : Run) (run : Tool.Progress) : Action Error Unit := do
  Tool.leave run
  if s.showsOutput then Action.modifying (·.print run.output)
  else Tool.writeLog (r.cache.logPath .simulate) (Tool.allOutput run.output)

/-- The simulator is started, watched to its end, and judged by how it ended. -/
theorem simulate_eq (s : Setup) (r : Run) (timeout : Option Nat) :
    simulate s r timeout = (do
      let (r, process, since) ← startSimulator s r
      let (ending, run) := process.supervised ⟨timeout, s.grace, s.stop .simulate⟩
      leaveSimulator s r run
      let time := (← Action.clock) - since
      let (outcome, code) ← Action.ofExcept (simulationOutcome (simulatorLog s r) ending)
      return r.record ⟨.simulate, outcome, code, simulatorLog s r, [], time⟩) := by
  unfold simulate startSimulator leaveSimulator simulatorLog timed Tool.Call.shown Tool.Call.logged
  cases s.showsOutput <;> simp

/-- Starting the simulator reports nothing yet, and opens the log unless the output is shown. -/
theorem startSimulator_eq_ok (started : startSimulator s r w = (.ok (r₁, process, since), w₁)) :
    r₁.results = r.results ∧ (s.showsOutput = false →
      ∃ w₂ w₃, Tool.openLog (r₁.cache.logPath .simulate) w₂ = (.ok (), w₃)) := by
  obtain ⟨r₂, w₂, entered, rest⟩ := bind_eq_ok started
  obtain ⟨⟨⟩, w₃, -, rest⟩ := bind_eq_ok rest
  obtain ⟨since', w₄, -, rest⟩ := bind_eq_ok rest
  cases shows : s.showsOutput with
  | true =>
    simp only [shows] at rest
    obtain ⟨p, w₅, -, same⟩ := bind_eq_ok rest
    cases same
    exact ⟨(enter_eq_ok entered).2.2, nofun⟩
  | false =>
    simp only [shows, Bool.not_false, if_true] at rest
    obtain ⟨⟨⟩, w₅, opened, rest⟩ := bind_eq_ok rest
    obtain ⟨p, w₆, -, same⟩ := bind_eq_ok rest
    cases same
    exact ⟨(enter_eq_ok entered).2.2, fun _ => ⟨_, _, opened⟩⟩

theorem leaveSimulator_of_started (started : startSimulator s r w = (.ok (r₁, process, since), w₁))
    (run : Tool.Progress) (v : World) : ∃ v', leaveSimulator s r₁ run v = (.ok (), v') := by
  unfold leaveSimulator
  rw [bind_apply]
  change ∃ v', (if s.showsOutput = true then _ else _ : Action Error Unit) run.world = _
  cases shows : s.showsOutput with
  | true => exact ⟨_, rfl⟩
  | false =>
    obtain ⟨w₂, w₃, opened⟩ := (startSimulator_eq_ok started).2 shows
    exact Tool.writeLog_of_openLog opened _ _

/-- A simulator that has been started is judged by how it ends, and by nothing else. -/
theorem simulate_of_started (started : startSimulator s r w = (.ok (r₁, process, since), w₁))
    (timeout : Option Nat) : ∃ time w', simulate s r timeout w =
      ((simulationOutcome (simulatorLog s r₁)
          (process.supervised ⟨timeout, s.grace, s.stop .simulate⟩).1).map fun x =>
        r₁.record ⟨.simulate, x.1, x.2, simulatorLog s r₁, [], time⟩, w') := by
  obtain ⟨w₂, left⟩ := leaveSimulator_of_started started
    (process.supervised ⟨timeout, s.grace, s.stop .simulate⟩).2 w₁
  refine ⟨w₂.clock - since, w₂, ?_⟩
  rw [simulate_eq, bind_apply, started]
  simp only [bind_apply, left]
  cases simulationOutcome (simulatorLog s r₁)
    (process.supervised ⟨timeout, s.grace, s.stop .simulate⟩).1 <;> rfl

theorem simulate_of_not_started {e : Error} (failed : startSimulator s r w = (.error e, w₁))
    (timeout : Option Nat) : simulate s r timeout w = (.error e, w₁) := by
  rw [simulate_eq, bind_apply, failed]

/-! ## The build -/

variable {app : String} {template : Option String}

/-- All that is done before west is watched: an empty directory, an empty log, and the process. -/
def startWest (s : Setup) (r : Run) (app : String) : Action Error Tool.Process := do
  let buildDir := s.workspace.buildDir r.board
  removeDirIfThere buildDir
  (Action.makeDirs buildDir).mapError (.file buildDir)
  Tool.openLog (r.cache.logPath .build)
  (call s .west [("board", r.board), ("build_dir", buildDir), ("app", app),
    ("board_root", s.workspace.root), ("zephyr_base", s.zephyrBase)] .build).start

/-- A build under way. -/
structure Building where
  run : Run
  digest : ContentHash
  outputs : List String
  since : Nat
  process : Tool.Process

/-- The stage up to the watch of west, unless it is skipped. -/
def startBuild (s : Setup) (r : Run) (app : String) (template : Option String) :
    Action Error (Run ⊕ Building) := do
  let r ← r.enter .build
  let boardDir := s.workspace.boardDir r.board
  [boardDir, app].forM (requireDir .build)
  let app ← (Action.canonical app).mapError (.file app)
  let inputs ← buildInputs boardDir app r.board template
  let kept := Board.BuildFiles.inDir (s.workspace.buildsDir r.board)
  let outputs := [kept.program, kept.devicetree]
  let (hit, r) ← r.checkCache .build inputs.hash outputs
  if hit then return .inl r
  let since ← Action.clock
  return .inr ⟨r, inputs.hash, outputs, since, ← startWest s r app⟩

/-- What the end of west means for the build. -/
def judgeBuild (s : Setup) (r : Run) : Tool.Ending → Action Error (Option Int)
  | .exited status => do
    let log := r.cache.logPath .build
    keepOutputs (s.workspace.buildDir r.board) (s.workspace.buildsDir r.board) log
    if !status.isSuccess then throw (.buildFailed .build status.code? log)
    return status.code?
  | _ => throw (.stopped .build)

/-- The stage from the watch of west on. -/
def endBuild (s : Setup) (b : Building) : Action Error Run := do
  let (ending, run) := b.process.supervised ⟨none, s.grace, s.stop .build⟩
  let log := b.run.cache.logPath .build
  Tool.leave run
  Tool.writeLog log (Tool.allOutput run.output)
  let code ← judgeBuild s b.run ending
  b.outputs.forM (requireOutput .build)
  let time := (← Action.clock) - b.since
  b.run.cache.store .build b.digest
  return b.run.record ⟨.build, .executed, code, some log, b.outputs, time⟩

/-- West is started, watched to its end, and judged by how it ended. -/
theorem runBuild_eq (s : Setup) (r : Run) (app : String) :
    runBuild s r app = (do
      let process ← startWest s r app
      let (ending, run) := process.supervised ⟨none, s.grace, s.stop .build⟩
      Tool.leave run
      Tool.writeLog (r.cache.logPath .build) (Tool.allOutput run.output)
      judgeBuild s r ending) := by
  unfold runBuild startWest Tool.Call.logged
  simp only [bind_assoc, pure_bind]
  refine bind_congr fun _ => bind_congr fun _ => bind_congr fun _ => bind_congr fun process => ?_
  refine bind_congr fun _ => bind_congr fun _ => ?_
  cases (process.supervised ⟨none, s.grace, s.stop .build⟩).1 <;> rfl

/-- The build is skipped, or west is started, watched to its end, and judged. -/
theorem build_eq (s : Setup) (r : Run) (app : String) (template : Option String) :
    build s r app template = (do
      match ← startBuild s r app template with
      | .inl r => return r
      | .inr b => endBuild s b) := by
  unfold build staged perform buildTask startBuild timed
  simp only [bind_assoc, pure_bind, runBuild_eq]
  refine bind_congr fun r => bind_congr fun _ => bind_congr fun app => bind_congr fun inputs => ?_
  refine bind_congr fun ⟨hit, r⟩ => ?_
  cases hit with
  | true => rfl
  | false => simp only [Bool.false_eq_true, if_false, bind_assoc, pure_bind, endBuild]

theorem judgeBuild_eq_ok {ending : Tool.Ending} {code : Option Int} {w' : World}
    (h : judgeBuild s r ending w = (.ok code, w')) : ending = .exited (.code 0) := by
  cases ending with
  | exited status =>
    obtain ⟨⟨⟩, w₁, -, judged⟩ := bind_eq_ok h
    split at judged
    · cases judged
    · rename_i success
      simpa [Tool.ExitStatus.isSuccess] using success
  | interrupted status => cases h
  | killed => cases h

/-- West ends by itself and reports success. -/
def Building.Succeeds (s : Setup) (b : Building) : Prop :=
  b.process.watched ⟨none, s.grace, s.stop .build⟩ = some ⟨.exited (.code 0), []⟩

theorem endBuild_eq_ok {b : Building} {r' : Run} {w' : World}
    (h : endBuild s b w = (.ok r', w')) : b.Succeeds s := by
  obtain ⟨⟨⟩, w₁, -, rest⟩ := bind_eq_ok h
  obtain ⟨⟨⟩, w₂, -, rest⟩ := bind_eq_ok rest
  obtain ⟨code, w₃, judged, -⟩ := bind_eq_ok rest
  exact Tool.Process.watched_of_exited (judgeBuild_eq_ok judged)

/-! ## What a build leaves on record -/

section Guards

variable {guarded : Location → Prop} {here : Location}
  (ends : ∀ l, guarded l → Stage.EndsAsRecord l)

include ends in
theorem guards_judgeBuild (s : Setup) (r : Run) (ending : Tool.Ending) :
    Action.Guards guarded here (judgeBuild s r ending) := by
  cases ending with
  | exited status =>
    refine guards_bind ((guards_keepOutputs _ _ _).mono ends) fun _ => ?_
    exact guards_when (guards_throw _) fun _ => guards_pure _
  | interrupted status => exact guards_throw _
  | killed => exact guards_throw _

include ends in
/-- A build that does not succeed puts nothing on record. -/
theorem guards_endBuild {b : Building}
    (left : ∀ stop time, World.Guards guarded w (b.process.progress stop time).world)
    (fails : ¬ b.Succeeds s) : GuardsAt guarded (endBuild s b) w := by
  obtain ⟨stop, time, seen⟩ :=
    Tool.exists_progress_of_supervised b.process ⟨none, s.grace, s.stop .build⟩
  have after : GuardsAt guarded
      (Tool.leave (b.process.supervised ⟨none, s.grace, s.stop .build⟩).2) w := seen ▸ left stop time
  refine guardsAt_bind after fun _ w₁ _ guards => ?_
  have free : ¬ guarded (placeFrom w.here (b.run.cache.logPath .build)) := fun h =>
    not_endsAsRecord_logPath b.run.cache .build w.here (ends _ h)
  refine guards_bind (Tool.guards_writeLog free _) (fun _ => ?_) w₁ guards.proper guards.here
  intro w₂ proper₂ same
  refine guardsAt_bind (guards_judgeBuild ends s b.run _ w₂ proper₂ same) fun code w₃ judged _ => ?_
  exact absurd (Tool.Process.watched_of_exited (judgeBuild_eq_ok judged)) fails

include ends in
theorem guards_startWest (s : Setup) (r : Run) (app : String) :
    Action.Guards guarded here (startWest s r app) := by
  have free : ¬ guarded (placeFrom here (r.cache.logPath .build)) := fun h =>
    not_endsAsRecord_logPath r.cache .build here (ends _ h)
  refine guards_bind (guards_removeDirIfThere _) fun _ => ?_
  refine guards_bind (guards_mapError (guards_makeDirs _) _) fun _ => ?_
  exact guards_bind (Tool.guards_openLog free) fun _ => (Reads.reading _).guards

/-- Nothing is put on record before a build is under way. -/
theorem guards_startBuild {ws : Workspace} {board : String} (fits : r.Fits ws board) (s : Setup)
    (app : String) (template : Option String) :
    Action.Guards (ws.IsRecord board) here (startBuild s r app template) := by
  refine guards_bind (guards_enter fits .build) fun r => ?_
  refine guards_bind (Reads.forM fun path _ => reads_requireDir _ path).guards fun _ => ?_
  refine guards_bind ((Reads.reading _).mapError _).guards fun app => ?_
  refine guards_bind ((reads_dir _ _ _).bind fun _ => (reads_dir _ _ _).bind fun _ =>
    Reads.pure _).guards fun inputs => ?_
  refine guards_bind ?_ fun ⟨hit, r⟩ => ?_
  · refine guards_bind (Reads.ask _).guards fun ⟨hit, cache⟩ => ?_
    dsimp only
    split
    · exact guards_pure _
    · exact guards_bind (Workspace.guards_invalidate _ _) fun _ => guards_pure _
  · dsimp only
    split
    · exact guards_pure _
    · exact guards_bind (Reads.ask _).guards fun since =>
        guards_bind (guards_startWest (fun _ h => h.ends) s r app) fun _ => guards_pure _

theorem start_of_startBuild {b : Building}
    (started : startBuild s r app template w = (.ok (.inr b), w₁)) :
    ∃ c : Tool.Call, c.launch = s.launch ∧ c.start w₁ = (.ok b.process, w₁) := by
  obtain ⟨r₁, w₂, -, rest⟩ := bind_eq_ok started
  obtain ⟨⟨⟩, w₃, -, rest⟩ := bind_eq_ok rest
  obtain ⟨app, w₄, -, rest⟩ := bind_eq_ok rest
  obtain ⟨inputs, w₅, -, rest⟩ := bind_eq_ok rest
  obtain ⟨⟨hit, r₂⟩, w₆, -, rest⟩ := bind_eq_ok rest
  cases hit with
  | true => cases rest
  | false =>
    simp only [Bool.false_eq_true, if_false] at rest
    obtain ⟨since, w₇, -, rest⟩ := bind_eq_ok rest
    obtain ⟨process, w₈, west, same⟩ := bind_eq_ok rest
    cases same
    obtain ⟨⟨⟩, w₉, -, west⟩ := bind_eq_ok west
    obtain ⟨⟨⟩, w₁₀, -, west⟩ := bind_eq_ok west
    obtain ⟨⟨⟩, w₁₁, -, west⟩ := bind_eq_ok west
    obtain rfl := (Reads.reading _).same west
    exact ⟨_, rfl, west⟩

end Guards

/-- A digest that a build leaves on record was there before, or west has ended by itself and
reported success. -/
theorem holds_of_build {board : String} {d : ContentHash} {w' : World} {result : Except Error Run}
    (fits : r.Fits s.workspace board) (spares : s.launch.Spares (s.workspace.IsRecord board))
    (proper : w.files.Proper) (done : build s r app template w = (result, w'))
    (holds : s.workspace.Holds board w' .build d) :
    s.workspace.Holds board w .build d ∨
      ∃ b w₁, startBuild s r app template w = (.ok (.inr b), w₁) ∧ b.Succeeds s := by
  have first := guards_startBuild fits s app template w proper rfl
  rw [GuardsAt] at first
  have before {v : World} (guards : World.Guards (s.workspace.IsRecord board) w v)
      (same : w' = v) : s.workspace.Holds board w .build d := by
    obtain ⟨content, executable, found, digest⟩ := holds
    exact ⟨content, executable, guards.kept _ ⟨.build, rfl⟩ _ _ (same ▸ found), digest⟩
  rw [build_eq, bind_apply] at done
  rcases begun : startBuild s r app template w with ⟨e | r' | b, w₁⟩ <;> rw [begun] at done first
  · cases done
    exact .inl (before first rfl)
  · cases done
    exact .inl (before first rfl)
  · by_cases success : b.Succeeds s
    · exact .inr ⟨b, w₁, rfl, success⟩
    · obtain ⟨c, launch, started⟩ := start_of_startBuild begun
      have left := Tool.spares_of_start (launch ▸ spares) first.proper started
      have last := guards_endBuild (fun _ h => h.ends) left success
      rw [GuardsAt] at last
      exact .inl (before (first.trans last) (congrArg Prod.snd done).symm)

/-! ## What is reported -/

/-- The run has gone on, and reports this of the simulator. -/
def Reports (r : Run) (outcome : Stage.Outcome) (result : Except Error Run) : Prop :=
  ∃ r' x, result = .ok r' ∧ r'.results = r.results ++ [x] ∧ x.stage = .simulate ∧
    x.outcome = outcome

section Outcome

variable {log : Option String} {ending : Tool.Ending}

theorem simulationOutcome_executed_iff :
    (∃ code, simulationOutcome log ending = .ok (.executed, code)) ↔ ending = .exited (.code 0) := by
  cases ending with
  | exited status =>
    by_cases success : status = .code 0 <;> simp [simulationOutcome, Tool.ExitStatus.isSuccess, success]
  | interrupted status =>
    by_cases stopped : status.isInterrupt = true ∨ status.isSuccess = true <;>
      simp [simulationOutcome, stopped]
  | killed => simp [simulationOutcome]

/-- The ends after an interrupt that are no failure: by the interrupt, or with success. -/
def stoppedStatuses : List Tool.ExitStatus := [.signal 2, .code 130, .code 0]

theorem mem_stoppedStatuses_iff {status : Tool.ExitStatus} :
    status ∈ stoppedStatuses ↔ status.isInterrupt = true ∨ status.isSuccess = true := by
  simp [stoppedStatuses, Tool.ExitStatus.isInterrupt, Tool.ExitStatus.isSuccess,
    Tool.interruptSignal, or_assoc]

theorem simulationOutcome_timedOut_iff :
    (∃ code, simulationOutcome log ending = .ok (.timedOut, code)) ↔
      ∃ status ∈ stoppedStatuses, ending = .interrupted status := by
  simp only [mem_stoppedStatuses_iff]
  cases ending with
  | exited status => by_cases success : status.isSuccess = true <;> simp [simulationOutcome, success]
  | interrupted status =>
    by_cases stopped : status.isInterrupt = true ∨ status.isSuccess = true <;>
      simp [simulationOutcome, stopped]
  | killed => simp [simulationOutcome]

theorem simulationOutcome_cases (log : Option String) (ending : Tool.Ending) :
    (∃ code, simulationOutcome log ending = .ok (.executed, code)) ∨
    (∃ code, simulationOutcome log ending = .ok (.timedOut, code)) ∨
    ∃ detail, simulationOutcome log ending = .error (.simulationFailed detail log) := by
  unfold simulationOutcome
  split
  · split
    · exact .inl ⟨_, rfl⟩
    · exact .inr (.inr ⟨_, rfl⟩)
  · split
    · exact .inr (.inl ⟨_, rfl⟩)
    · exact .inr (.inr ⟨_, rfl⟩)
  · exact .inr (.inr ⟨_, rfl⟩)

end Outcome

theorem reports_judged {x : Except Error (Stage.Outcome × Option Int)} {log : Option String}
    {time : Nat} (same : r₁.results = r.results) (outcome : Stage.Outcome) :
    Reports r outcome (x.map fun x => r₁.record ⟨.simulate, x.1, x.2, log, [], time⟩) ↔
      ∃ code, x = .ok (outcome, code) := by
  constructor
  · rintro ⟨r', y, whole, added, -, rfl⟩
    cases x with
    | error e => cases whole
    | ok x =>
      cases whole
      change r₁.results ++ _ = _ at added
      rw [same] at added
      rw [← List.singleton_injective (List.append_cancel_left added)]
      exact ⟨_, rfl⟩
  · rintro ⟨code, rfl⟩
    exact ⟨_, ⟨.simulate, outcome, code, log, [], time⟩, rfl, congrArg (· ++ _) same, rfl, rfl⟩

/-- A simulator that has been started is reported as executed if it ended by itself with success, as
timed out if it ended after an interrupt and by it, or with success, and else the stage fails. -/
theorem judged_of_started {timeout : Option Nat} {seen : Tool.Supervised}
    (started : startSimulator s r w = (.ok (r₁, process, since), w₁))
    (watched : process.watched ⟨timeout, s.grace, s.stop .simulate⟩ = some seen) :
    let result := (simulate s r timeout w).1
    (Reports r .executed result ↔ seen = ⟨.exited (.code 0), []⟩) ∧
    (Reports r .timedOut result ↔
      ∃ status ∈ stoppedStatuses, seen = ⟨.interrupted status, [.interrupt, .kill]⟩) ∧
    ((∃ detail log, result = .error (.simulationFailed detail log)) ↔
      ¬ Reports r .executed result ∧ ¬ Reports r .timedOut result) := by
  intro result
  obtain ⟨time, w', done⟩ := simulate_of_started started timeout
  rw [Tool.Process.ending_of_watched watched] at done
  have judged := congrArg Prod.fst done
  have same := (startSimulator_eq_ok started).1
  rw [Tool.Process.watched, Tool.supervise_eq_some_iff] at watched
  rw [show result = _ from judged, reports_judged same, reports_judged same]
  refine ⟨?_, ?_, ?_⟩
  · rw [simulationOutcome_executed_iff]
    constructor
    · rcases seen with ⟨_, signals⟩
      rintro rfl
      rw [watched.signals_eq_nil]
    · rintro rfl
      rfl
  · rw [simulationOutcome_timedOut_iff]
    constructor
    · rcases seen with ⟨_, signals⟩
      rintro ⟨status, mem, rfl⟩
      exact ⟨status, mem, by rw [watched.signals_of_interrupted]⟩
    · rintro ⟨status, mem, rfl⟩
      exact ⟨status, mem, rfl⟩
  · obtain ⟨code, whole⟩ | ⟨code, whole⟩ | ⟨detail, whole⟩ :=
      simulationOutcome_cases (simulatorLog s r₁) seen.ending <;> simp [whole, Except.map]

/-- A build that is reported has been skipped, or west has ended by itself and reported success. -/
theorem succeeds_of_build {r' : Run} {w' : World} (done : build s r app template w = (.ok r', w')) :
    startBuild s r app template w = (.ok (.inl r'), w') ∨
      ∃ b w₁, startBuild s r app template w = (.ok (.inr b), w₁) ∧ b.Succeeds s := by
  rw [build_eq] at done
  obtain ⟨begun, w₁, started, ended⟩ := bind_eq_ok done
  cases begun with
  | inl r₁ =>
    cases ended
    exact .inl started
  | inr b => exact .inr ⟨b, w₁, started, endBuild_eq_ok ended⟩

/-- The first look at which anything happens decides how a watched process ends, and its group is
sent nothing if it has ended by then, and else an interrupt and a kill. So a simulator that has been
started is reported as executed if it ended by itself with success, as timed out if it was
interrupted and ended by that or with success, and else it fails; and a build is reported, and has
a digest put on record, only if west ended by itself with success. -/
theorem first_event_decides (s : Setup) (r : Run) (w : World) :
    (∀ grace polls seen, Tool.supervise grace polls = some seen ↔ Tool.Watched grace polls seen) ∧
    (∀ grace polls, Tool.supervise grace polls = none ↔ ∀ p ∈ polls, p.Quiet) ∧
    (∀ timeout e w₁, startSimulator s r w = (.error e, w₁) →
      simulate s r timeout w = (.error e, w₁)) ∧
    (∀ timeout r₁ process since w₁ seen, startSimulator s r w = (.ok (r₁, process, since), w₁) →
      process.watched ⟨timeout, s.grace, s.stop .simulate⟩ = some seen →
        let result := (simulate s r timeout w).1
        (Reports r .executed result ↔ seen = ⟨.exited (.code 0), []⟩) ∧
        (Reports r .timedOut result ↔
          ∃ status ∈ stoppedStatuses, seen = ⟨.interrupted status, [.interrupt, .kill]⟩) ∧
        ((∃ detail log, result = .error (.simulationFailed detail log)) ↔
          ¬ Reports r .executed result ∧ ¬ Reports r .timedOut result)) ∧
    ∀ app template result w', build s r app template w = (result, w') →
      (∀ r', result = .ok r' → startBuild s r app template w = (.ok (.inl r'), w') ∨
        ∃ b w₁, startBuild s r app template w = (.ok (.inr b), w₁) ∧ b.Succeeds s) ∧
      ∀ board d, r.Fits s.workspace board → s.launch.Spares (s.workspace.IsRecord board) →
        w.files.Proper → s.workspace.Holds board w' .build d →
          s.workspace.Holds board w .build d ∨
            ∃ b w₁, startBuild s r app template w = (.ok (.inr b), w₁) ∧ b.Succeeds s := by
  refine ⟨fun _ _ _ => Tool.supervise_eq_some_iff, fun _ _ => Tool.supervise_eq_none_iff,
    fun timeout e w₁ failed => simulate_of_not_started failed timeout,
    fun timeout r₁ process since w₁ seen started watched => judged_of_started started watched, ?_⟩
  rintro app template result w' done
  refine ⟨?_, fun board d fits spares proper holds => holds_of_build fits spares proper done holds⟩
  rintro r' rfl
  exact succeeds_of_build done

/-- A program that runs until it is interrupted. -/
def untilInterrupted : Tool.Launcher := fun _ w =>
  .ok ⟨fun stop _ => ⟨stop.map (·, .signal 2), [], w⟩, 0⟩

/-- A board that has been built, with the files of its simulator. -/
def builtBoard : World := worldOf [([".locks"], .dir), (["boards"], .dir), (["boards", "x"], .dir),
  (["builds"], .dir), (["builds", "x"], .dir), (["builds", "x", "x.resc"], textFile ""),
  (["builds", "x", "x.repl"], textFile ""), (["builds", "x", "zephyr"], .dir),
  (["builds", "x", "zephyr", "zephyr.elf"], textFile "")]

/-- A run of the board under its lock. -/
def lockedRun : Run :=
  ⟨"x", ⟨"/.locks/x.lock", "x", ⟨1, "build", World.tokenText 0⟩⟩, .ofDir "/builds/x/.stages", [], 0⟩

/-- Such a program as the simulator, and one that builds the board. -/
def patientSetup : Setup := { forgetfulSetup "x" with launch := untilInterrupted, grace := 100 }

/-- A simulator that is interrupted at its time, one that cannot be started, and a build that
succeeds and is put on record. -/
theorem first_event_decides_builtBoard :
    Reports lockedRun .timedOut (simulate patientSetup lockedRun (some 10) builtBoard).1 ∧
    (∃ e w₁, simulate patientSetup lockedRun none madeBoard = (.error e, w₁)) ∧
    ∃ b w₁ d, startBuild (forgetfulSetup "x") lockedRun "/boards" none builtBoard =
        (.ok (.inr b), w₁) ∧ b.Succeeds (forgetfulSetup "x") ∧
      ¬ Workspace.Holds ⟨"/"⟩ "x" builtBoard .build d ∧
      Workspace.Holds ⟨"/"⟩ "x"
        (build (forgetfulSetup "x") lockedRun "/boards" none builtBoard).2 .build d := by
  refine ⟨?_, ?_, ?_⟩
  · have watched : ((startSimulator patientSetup lockedRun builtBoard).1.toOption.bind fun x =>
        x.2.1.watched ⟨some 10, 100, none⟩) =
          some ⟨.interrupted (.signal 2), [.interrupt, .kill]⟩ := by decide +kernel
    rcases started : startSimulator patientSetup lockedRun builtBoard with
      ⟨e | ⟨r₁, process, since⟩, w₁⟩ <;> rw [started] at watched
    · cases watched
    · exact ((first_event_decides patientSetup lockedRun builtBoard).2.2.2.1 (some 10) r₁ process
        since w₁ _ started watched).2.1.mpr ⟨.signal 2, by decide, rfl⟩
  · have failed : (startSimulator patientSetup lockedRun madeBoard).1.toOption.isNone := by
      decide +kernel
    rcases started : startSimulator patientSetup lockedRun madeBoard with ⟨e | x, w₁⟩
    · exact ⟨e, w₁, (first_event_decides patientSetup lockedRun madeBoard).2.2.1 none e w₁ started⟩
    · rw [started] at failed
      cases failed
  · have recorded : (Stage.Cache.recorded?
        (build (forgetfulSetup "x") lockedRun "/boards" none builtBoard).2
        (Workspace.records ⟨"/"⟩ "x") .build).isSome = true := by decide +kernel
    obtain ⟨d, recorded⟩ := Option.isSome_iff_exists.mp recorded
    have holds := Workspace.holds_of_recorded? ⟨plain_root, by decide⟩ recorded
    have none_before : ¬ Workspace.Holds ⟨"/"⟩ "x" builtBoard .build d := by
      rintro ⟨content, executable, found, -⟩
      have none : builtBoard.files.find? (Workspace.recordPlace ⟨"/"⟩ "x" .build) = none := by
        decide +kernel
      rw [none] at found
      cases found
    rcases done : build (forgetfulSetup "x") lockedRun "/boards" none builtBoard with ⟨result, w'⟩
    rw [done] at holds
    have decided := (first_event_decides (forgetfulSetup "x") lockedRun builtBoard).2.2.2.2 "/boards"
      none result w' done
    have fits : lockedRun.Fits (forgetfulSetup "x").workspace "x" :=
      ⟨by decide, ⟨by decide, 0, rfl⟩, rfl⟩
    obtain ⟨b, w₁, started, success⟩ := (decided.2 "x" d fits
      (spares_only "x" .build builtBoard).orderly.tools (Tree.proper_of_isProper (by decide))
      holds).resolve_left none_before
    exact ⟨b, w₁, d, started, success, none_before, holds⟩

end Run

end BoardDesign
