import BoardDesign.Proofs.Editor.Answers

/-!
# Which stops a job sees

* `asks`, `raises`: the steps that raise a stop flag, as a message asks for it or as the session
  ends;
* `stops_after`: what a step does to a stop flag unless a job has just been accepted;
* `Follows`: what holds from the acceptance of a job on, with `Follows.after` for every step;
* `stops_iff_asked`: while a job works its flag is raised just when a stop has been asked for since
  the job was accepted, or the end of the session has come to the flag.
-/

namespace BoardDesign.Editor

variable {s s' : State} {payload : List UInt8} {incoming : List (List UInt8)} {delivered : Bool}
  {q r : Running} {job : Job} {w : World} {events : List Event}

/-- Where the reader raises the stop flag of a job at the end of a session. -/
def Job.stopping : Job → Reader
  | .build => .stoppingBuild
  | .run => .stoppingRun

/-- The end of the session has come to the stop flag of a job. Its first two steps are to raise the
two flags. -/
def Reader.hasStopped : Reader → Job → Bool
  | .stoppingRun, job => job = .build
  | .joining, _ | .returned, _ => true
  | .waiting, _ | .lowering _, _ | .starting _, _ | .replying _, _ | .stoppingBuild, _ => false

theorem hasStopped_of_goesOn {reader : Reader} (goesOn : reader.isOver = false) :
    reader.hasStopped job = false := by
  cases reader <;> first | rfl | cases goesOn

namespace State

/-- The step takes a message that asks for a stop of a job. -/
def asks (s : State) (job : Job) : Event → Prop
  | .reader _ => s.reader = .waiting ∧
    ∃ payload rest, s.incoming = payload :: rest ∧ stops? payload = some job
  | .job _ _ _ => False

/-- The step raises the stop flag of a job as the session ends. -/
def raises (s : State) (job : Job) : Event → Prop
  | .reader _ => s.reader = job.stopping
  | .job _ _ _ => False

theorem not_asks {e : Event} (busy : s.reader ≠ .waiting) : ¬ s.asks job e := by
  cases e with
  | reader delivered => exact fun asks => busy asks.1
  | job number delivered stop => exact id

/-! ## What a step does to a stop flag -/

theorem stops_raise (s : State) (raised : Option Job) (job : Job) :
    (s.raise raised).stops job = true ↔ s.stops job = true ∨ raised = some job := by
  rcases raised with _ | _ | _ <;> cases job <;> simp [raise, stops, setStop]

theorem Taken.stops (taken : Taken s payload s') (job : Job) :
    s'.stops job = true ↔ s.stops job = true ∨ stops? payload = some job := by
  cases taken with
  | passed => exact s.stops_raise _ job
  | replied => exact s.stops_raise _ job
  | accepted idle asked normal noStop =>
    rw [noStop]
    cases job <;> simp [State.stops]

/-- A reader that is not about to start a job lowers no flag. -/
theorem Reads.stops (reads : Reads s delivered s') (settled : s.reader.accepted? = none)
    (job : Job) : s'.stops job = true ↔
      s.stops job = true ∨ s.asks job (.reader delivered) ∨ s.raises job (.reader delivered) := by
  cases reads with
  | ended waits none => cases job <;> simp [asks, raises, waits, none, Job.stopping, State.stops]
  | took waits next taken =>
    rw [taken.stops]
    cases job <;> simp [asks, raises, waits, next, Job.stopping, State.stops]
  | lowered reader | started reader => simp [reader, Reader.accepted?] at settled
  | replied reader =>
    rw [send_eq]
    cases job <;> simp [asks, raises, reader, Job.stopping, State.stops]
  | stoppedBuild reader =>
    cases job <;> simp [asks, raises, reader, Job.stopping, State.stops, setStop]
  | stoppedRun reader =>
    cases job <;> simp [asks, raises, reader, Job.stopping, State.stops, setStop]
  | joined reader => cases job <;> simp [asks, raises, reader, Job.stopping, State.stops]
  | stays reader => cases job <;> simp [asks, raises, reader, Job.stopping]

theorem Reads.hasStopped (reads : Reads s delivered s') (job : Job) :
    s'.reader.hasStopped job = true ↔
      s.reader.hasStopped job = true ∨ s.raises job (.reader delivered) := by
  cases reads with
  | ended waits | lowered waits | started waits =>
    cases job <;> simp [raises, waits, Job.stopping, Reader.hasStopped]
  | took waits next taken =>
    rw [hasStopped_of_goesOn (taken.goesOn waits)]
    cases job <;> simp [raises, waits, Job.stopping, Reader.hasStopped]
  | replied reader =>
    cases delivered <;> cases job <;> simp [raises, reader, Job.stopping, Reader.hasStopped]
  | stoppedBuild reader =>
    cases job <;> simp [raises, reader, Job.stopping, Reader.hasStopped]
  | stoppedRun reader =>
    cases job <;> simp [raises, reader, Job.stopping, Reader.hasStopped]
  | joined reader =>
    cases running : s.running <;> cases job <;>
      simp [raises, reader, Job.stopping, Reader.hasStopped]
  | stays reader => cases job <;> simp [raises, reader, Job.stopping, Reader.hasStopped]

section Job

variable {before after : List Running}

theorem Advanced.same (advanced : Advanced before r after s delivered s') :
    s'.reader = s.reader ∧ s'.nextJob = s.nextJob ∧ ∀ job, s'.stops job = s.stops job := by
  cases advanced with
  | moved | cleared => exact ⟨rfl, rfl, fun job => by cases job <;> rfl⟩
  | answered =>
    rw [send_eq]
    exact ⟨rfl, rfl, fun job => by cases job <;> rfl⟩

/-- Every job after its step was there before, and counted as running if it does. -/
theorem Advanced.earlier (advanced : Advanced before r after s delivered s')
    (whole : s.running = before ++ r :: after) (mem : q ∈ s'.running) :
    ∃ p ∈ s.running, p.number = q.number ∧ p.call = q.call ∧
      (q.phase.counts = true → p.phase.counts = true) := by
  have others (mem : q ∈ before ++ after) : ∃ p ∈ s.running, p.number = q.number ∧
      p.call = q.call ∧ (q.phase.counts = true → p.phase.counts = true) := by
    refine ⟨q, ?_, rfl, rfl, id⟩
    rw [whole]
    exact List.mem_append.mpr ((List.mem_append.mp mem).imp_right (List.mem_cons_of_mem _))
  have own {phase : Phase} (counts : phase.counts = true → r.phase.counts = true)
      (mem : q ∈ before ++ { r with phase := phase } :: after) : ∃ p ∈ s.running,
      p.number = q.number ∧ p.call = q.call ∧ (q.phase.counts = true → p.phase.counts = true) := by
    rcases List.mem_append.mp mem with mem | mem
    · exact others (List.mem_append_left _ mem)
    · rcases List.mem_cons.mp mem with rfl | mem
      · exact ⟨r, by simp [whole], rfl, rfl, counts⟩
      · exact others (List.mem_append_right _ mem)
  cases advanced with
  | moved counts => exact own (fun counted => counts ▸ counted) mem
  | cleared counted => exact own (fun _ => counted) mem
  | answered => exact others mem

end Job

theorem Reads.earlier (reads : Reads s delivered s') :
    s.nextJob ≤ s'.nextJob ∧ ∀ q ∈ s'.running, q ∈ s.running ∨ q.number = s.nextJob := by
  cases reads with
  | ended | joined | stays | stoppedBuild | stoppedRun => exact ⟨Nat.le_refl _, fun q => .inl⟩
  | took waits next taken =>
    cases taken with
    | passed => exact ⟨by simp, fun q mem => .inl (by simpa using mem)⟩
    | replied => exact ⟨by simp [reply], fun q mem => .inl (by simpa [reply] using mem)⟩
    | accepted => exact ⟨Nat.le_refl _, fun q => .inl⟩
  | @lowered call => cases call.job <;> exact ⟨Nat.le_refl _, fun q => .inl⟩
  | started =>
    refine ⟨Nat.le_succ _, fun q mem => (List.mem_append.mp mem).imp_right fun new => ?_⟩
    rw [List.mem_singleton.mp new]
  | replied =>
    rw [send_eq]
    exact ⟨Nat.le_refl _, fun q => .inl⟩

/-- A job whose number is taken was there before the step. -/
theorem earlier_after (orderly : Orderly s) (b : Backend) (e : Event) (w : World) :
    s.nextJob ≤ (s.after b e w).1.nextJob ∧ ∀ q ∈ (s.after b e w).1.running,
      q.number < s.nextJob → ∃ p ∈ s.running, p.number = q.number ∧ p.call = q.call ∧
        (q.phase.counts = true → p.phase.counts = true) := by
  cases e with
  | reader delivered =>
    have earlier := (reads_read b s delivered w).earlier
    refine ⟨earlier.1, fun q mem old => ?_⟩
    rcases earlier.2 q mem with mem | new
    · exact ⟨q, mem, rfl, rfl, id⟩
    · exact absurd old (by omega)
  | job number delivered stop =>
    rcases orderly.after_job b number delivered stop w with
      ⟨-, same⟩ | ⟨before, r, after, whole, -, advanced⟩
    · rw [same]
      exact ⟨Nat.le_refl _, fun q mem _ => ⟨q, mem, rfl, rfl, id⟩⟩
    · exact ⟨Nat.le_of_eq advanced.same.2.1.symm, fun q mem _ => advanced.earlier whole mem⟩

/-- Jobs leave the reader and the stop flags as they are. -/
theorem same_after_job (orderly : Orderly s) (b : Backend) (number : Nat) (delivered : Bool)
    (stop : Stage → Option Nat) (w : World) :
    (s.after b (.job number delivered stop) w).1.reader = s.reader ∧
      (s.after b (.job number delivered stop) w).1.nextJob = s.nextJob ∧
      ∀ job, (s.after b (.job number delivered stop) w).1.stops job = s.stops job := by
  rcases orderly.after_job b number delivered stop w with
    ⟨-, same⟩ | ⟨before, r, after, whole, -, advanced⟩
  · rw [same]
    exact ⟨rfl, rfl, fun _ => rfl⟩
  · exact advanced.same

theorem stops_after (orderly : Orderly s) (settled : s.reader.accepted? = none) (b : Backend)
    (e : Event) (w : World) (job : Job) : (s.after b e w).1.stops job = true ↔
      s.stops job = true ∨ s.asks job e ∨ s.raises job e := by
  cases e with
  | reader delivered => exact (reads_read b s delivered w).stops settled job
  | job number delivered stop =>
    rw [(same_after_job orderly b number delivered stop w).2.2]
    simp [asks, raises]

theorem hasStopped_after (orderly : Orderly s) (b : Backend) (e : Event) (w : World) (job : Job) :
    (s.after b e w).1.reader.hasStopped job = true ↔
      s.reader.hasStopped job = true ∨ s.raises job e := by
  cases e with
  | reader delivered => exact (reads_read b s delivered w).hasStopped job
  | job number delivered stop =>
    rw [(same_after_job orderly b number delivered stop w).1]
    simp [raises]

end State

/-! ## From the acceptance of a job on -/

/-- A job that has been accepted: it is to be started under a number, or it has been started. While
it counts as running, its stop flag tells whether a stop has been asked for since. -/
inductive Follows (number : Nat) (call : JobCall) (asked : Prop) (s : State) : Prop
  | lowering (reader : s.reader = .lowering call) (next : s.nextJob = number) (notYet : ¬ asked)
  | starting (reader : s.reader = .starting call) (next : s.nextJob = number) (notYet : ¬ asked)
    (lowered : s.stops call.job = false)
  | started (earlier : number < s.nextJob)
    (is : ∀ r ∈ s.running, r.number = number → r.call = call)
    (flag : ∀ r ∈ s.running, r.number = number → r.phase.counts = true →
      (s.stops call.job = true ↔ asked ∨ s.reader.hasStopped call.job = true))

/-- While a job counts as running the reader is not about to start another. -/
theorem Orderly.settled (orderly : Orderly s) (mem : r ∈ s.running)
    (counts : r.phase.counts = true) : s.reader.accepted? = none := by
  have counted := orderly.counted
  have positive : 0 < s.running.countP (·.phase.counts) :=
    List.countP_pos_iff.mpr ⟨r, mem, counts⟩
  have busy := s.busy.toNat_le
  have none : s.reader.accepted?.toList.length = 0 := by omega
  simpa using none

section Follow

variable {number : Nat} {call : JobCall} {asked : Prop}

theorem Follows.after_of_started (orderly : Orderly s) (earlier : number < s.nextJob)
    (is : ∀ r ∈ s.running, r.number = number → r.call = call)
    (flag : ∀ r ∈ s.running, r.number = number → r.phase.counts = true →
      (s.stops call.job = true ↔ asked ∨ s.reader.hasStopped call.job = true))
    (b : Backend) (e : Event) (w : World) :
    Follows number call (asked ∨ s.asks call.job e) (s.after b e w).1 := by
  obtain ⟨more, old⟩ := State.earlier_after orderly b e w
  refine .started (Nat.lt_of_lt_of_le earlier more) ?_ ?_
  · rintro q mem rfl
    obtain ⟨p, mem, number, same, -⟩ := old q mem earlier
    exact same ▸ is p mem number
  · rintro q mem rfl counts
    obtain ⟨p, mem, number, -, counted⟩ := old q mem earlier
    have settled := orderly.settled mem (counted counts)
    rw [State.stops_after orderly settled, State.hasStopped_after orderly,
      flag p mem number (counted counts)]
    tauto

theorem Follows.after (follows : Follows number call asked s) (orderly : Orderly s)
    (b : Backend) (e : Event) (w : World) :
    Follows number call (asked ∨ s.asks call.job e) (s.after b e w).1 := by
  cases follows with
  | lowering reader next notYet =>
    have none : ¬ (asked ∨ s.asks call.job e) :=
      not_or.mpr ⟨notYet, State.not_asks (by simp [reader])⟩
    cases e with
    | reader delivered =>
      rw [State.after_lowering b delivered reader]
      refine .starting rfl ?_ none ?_
      · cases call.job <;> exact next
      · have lowered := s.stops_setStop call.job call.job false
        rw [if_pos rfl] at lowered
        cases kind : call.job <;> rw [kind] at lowered <;> exact lowered
    | job n delivered stop =>
      obtain ⟨sameReader, sameNext, -⟩ := State.same_after_job orderly b n delivered stop w
      exact .lowering (sameReader.trans reader) (sameNext.trans next) none
  | starting reader next notYet lowered =>
    have none : ¬ (asked ∨ s.asks call.job e) :=
      not_or.mpr ⟨notYet, State.not_asks (by simp [reader])⟩
    cases e with
    | reader delivered =>
      obtain rfl := next
      rw [State.after_starting b delivered reader]
      dsimp only [pure, StateT.pure]
      refine .started (Nat.lt_succ_self _) (fun r mem same => ?_) fun r mem same counts => ?_
      · rcases List.mem_append.mp mem with old | new
        · exact absurd same (Nat.ne_of_lt (orderly.below _ (List.mem_map_of_mem old)))
        · rw [List.mem_singleton.mp new]
      · refine iff_of_false ?_ (not_or.mpr ⟨none, by simp [Reader.hasStopped]⟩)
        cases kind : call.job <;> rw [kind] at lowered <;> simpa [State.stops] using lowered
    | job n delivered stop =>
      obtain ⟨sameReader, sameNext, sameStops⟩ := State.same_after_job orderly b n delivered stop w
      exact .starting (sameReader.trans reader) (sameNext.trans next) none
        ((sameStops _).trans lowered)
  | started earlier is flag => exact .after_of_started orderly earlier is flag b e w

/-- The job with the number is the one that follows. -/
theorem Follows.flag (follows : Follows number call asked s) (orderly : Orderly s)
    (mem : r ∈ s.running) (is : r.number = number) (counts : r.phase.counts = true) :
    r.call = call ∧ (s.stops call.job = true ↔ asked ∨ s.reader.hasStopped call.job = true) := by
  have below := orderly.below _ (List.mem_map_of_mem mem)
  cases follows with
  | lowering _ next => omega
  | starting _ next => omega
  | started _ calls flag => exact ⟨calls r mem is, flag r mem is counts⟩

/-- One of the steps takes a message that asks for a stop of a job. -/
def Asked (b : Backend) (job : Job) : List Event → State → World → Prop
  | [], _, _ => False
  | e :: events, s, w => s.asks job e ∨ Asked b job events (s.after b e w).1 (s.after b e w).2

theorem asked_append (b : Backend) (events more : List Event) (s : State) (w : World) :
    Asked b job (events ++ more) s w ↔ Asked b job events s w ∨
      Asked b job more (State.follow b events s w).1 (State.follow b events s w).2 := by
  induction events generalizing s w with
  | nil => exact (or_iff_right id).symm
  | cons e events ih => exact (or_congr_right (ih _ _)).trans or_assoc.symm

theorem Follows.follow (follows : Follows number call asked s) (orderly : Orderly s)
    (b : Backend) (events : List Event) (w : World) :
    Follows number call (asked ∨ Asked b call.job events s w) (State.follow b events s w).1 := by
  induction events generalizing s w asked with
  | nil =>
    rw [Asked, or_false]
    exact follows
  | cons e events ih =>
    have rest := ih (follows.after orderly b e w) (orderly.after b e w) (s.after b e w).2
    rwa [or_assoc] at rest

end Follow

/-- The end of a session that has come to a stop flag does not go back. -/
theorem hasStopped_follow (orderly : Orderly s) (b : Backend) (events : List Event)
    (stopped : s.reader.hasStopped job = true) :
    (State.follow b events s w).1.reader.hasStopped job = true := by
  have kept : Orderly (State.follow b events s w).1 ∧
      (State.follow b events s w).1.reader.hasStopped job = true := by
    refine State.follow_induction (P := fun s => Orderly s ∧ s.reader.hasStopped job = true) b
      ⟨orderly, stopped⟩ fun e _ s w kept => ?_
    exact ⟨kept.1.after b e w, (State.hasStopped_after kept.1 b e w job).mpr (.inl kept.2)⟩
  exact kept.2

/-- While an accepted job works its stop flag is raised just when a message since the acceptance
has asked for its stop, or the end of the session has come to the flag. Other steps leave the flag
as it is, and once raised it stays so as long as the job works. -/
theorem stops_iff_asked (b : Backend) (stopBuild stopRun : Bool) {s₁ : State} {w₁ : World}
    {earlier : List Event} {call : JobCall}
    (reached : State.follow b earlier (.opened incoming stopBuild stopRun) w = (s₁, w₁))
    (accepted : s₁.reader = .lowering call)
    (followed : s = (State.follow b events s₁ w₁).1)
    (works : r ∈ s.running ∧ r.number = s₁.nextJob ∧ r.phase.executing = true) :
    r.call = call ∧
    (s.stops call.job = true ↔
      Asked b call.job events s₁ w₁ ∨ s.reader.hasStopped call.job = true) ∧
    (∀ e v, ¬ s.asks call.job e → ¬ s.raises call.job e →
      (s.after b e v).1.stops call.job = s.stops call.job) ∧
    ∀ more s₂, s₂ = (State.follow b (events ++ more) s₁ w₁).1 →
      (∃ q ∈ s₂.running, q.number = s₁.nextJob ∧ q.phase.executing = true) →
      s.stops call.job = true → s₂.stops call.job = true := by
  have orderly₁ : Orderly s₁ := by
    have orderly : Orderly (State.follow b earlier (.opened incoming stopBuild stopRun) w).1 :=
      State.orderly_follow (orderly_opened ..) b
    rwa [reached] at orderly
  have accepts : Follows s₁.nextJob call False s₁ := .lowering accepted rfl id
  have follows := accepts.follow orderly₁ b
  simp only [false_or] at follows
  have orderly : Orderly s := followed ▸ State.orderly_follow orderly₁ b
  obtain ⟨mem, number, executing⟩ := works
  have counts := Phase.counts_of_executing executing
  obtain ⟨is, flag⟩ := Follows.flag (followed ▸ follows events w₁) orderly mem number counts
  refine ⟨is, flag, fun e v noStop noEnd => ?_, ?_⟩
  · have same := State.stops_after orderly (orderly.settled mem counts) b e v call.job
    rw [or_iff_left (not_or.mpr ⟨noStop, noEnd⟩)] at same
    exact Bool.eq_iff_iff.mpr same
  · rintro more s₂ followed₂ ⟨q, mem₂, number₂, executing₂⟩ raised
    have orderly₂ : Orderly s₂ := followed₂ ▸ State.orderly_follow orderly₁ b
    have flag₂ := (Follows.flag (followed₂ ▸ follows (events ++ more) w₁) orderly₂ mem₂ number₂
      (Phase.counts_of_executing executing₂)).2
    rw [flag₂, asked_append]
    rcases flag.mp raised with asked | stopped
    · exact .inl (.inl asked)
    · refine .inr ?_
      rw [followed₂, State.follow_append]
      exact hasStopped_follow (followed ▸ orderly) b more (followed ▸ stopped)

/-! ## A build that is stopped -/

def stopOf (id : Nat) (job : Job) : List UInt8 :=
  Message.payload (Message.request id "dataflow_stop" (.obj [("method", .str job.method)]))

/-- A session after another one, whose end has raised the flags. -/
def secondSession : State := .opened [callOf 2 .build, stopOf 3 .build] true true

def acceptedBuild : State :=
  { secondSession with
    incoming := [stopOf 3 .build]
    busy := true
    reader := .lowering ⟨.build, .int 2, .null⟩ }

/-- The build is started and works. -/
def workingSteps : List Event := [.reader true, .reader true, .job 0 true fun _ => none]

def workingBuild : Running := ⟨0, ⟨.build, .int 2, .null⟩, .working⟩

def buildAfter (events : List Event) : State :=
  (State.follow idleBackend events acceptedBuild bareWorld).1

theorem follow_acceptedBuild : State.follow idleBackend [.reader true] secondSession bareWorld =
    (acceptedBuild, bareWorld) := by
  have taken : secondSession.after idleBackend (.reader true) bareWorld =
      (acceptedBuild, bareWorld) := by
    rw [State.after_waiting idleBackend true rfl rfl, State.take_of_job _ _ (read?_callOf .build)]
    rfl
  rw [State.follow_cons, taken]
  rfl

/-- The flag that another session has left is lowered for the build, and raised by the stop. -/
theorem stops_iff_asked_build : (buildAfter workingSteps).stops .build = false ∧
    (buildAfter (workingSteps ++ [.reader true])).stops .build = true := by
  have asks : (buildAfter workingSteps).asks .build (.reader true) :=
    ⟨by decide +kernel, stopOf 3 .build, [], rfl, by decide +kernel⟩
  have asked : Asked idleBackend .build (workingSteps ++ [.reader true]) acceptedBuild bareWorld :=
    (asked_append ..).mpr (.inr (.inl asks))
  have accepted : acceptedBuild.reader = .lowering ⟨.build, .int 2, .null⟩ := rfl
  have followed : buildAfter (workingSteps ++ [.reader true]) =
    (State.follow idleBackend (workingSteps ++ [.reader true]) acceptedBuild bareWorld).1 := rfl
  have works : workingBuild ∈ (buildAfter (workingSteps ++ [.reader true])).running ∧
      workingBuild.number = acceptedBuild.nextJob ∧ workingBuild.phase.executing = true :=
    ⟨by decide +kernel, rfl, rfl⟩
  have holds := stops_iff_asked idleBackend true true follow_acceptedBuild accepted followed works
  exact ⟨by decide +kernel, holds.2.1.mpr (.inl asked)⟩

end BoardDesign.Editor
