import BoardDesign.Editor.Session
import BoardDesign.Proofs.Json.Normal
import Mathlib.Data.List.Nodup

/-!
# The steps of a session with the diagram editor

* `asked?`, `stops?`: what a message asks for; `answered?`: which call a message answers;
* `taken_take`: what becomes of a message;
* `advanced_advance`: what a step does to a job;
* `Orderly`: what holds of every session, whichever steps come;
* `Orderly.after`: every step keeps that;
* `follow`: the state after many steps.
-/

namespace BoardDesign.Editor

variable {s s' : State} {payload : List UInt8} {id : Json} {job : Job} {delivered : Bool}

/-! ## Messages -/

/-- The id of a call that is to be answered. -/
def Incoming.asked? : Incoming → Option Json
  | .request id _ _ => some id
  | .notification _ _ | .response _ => none

def asked? (payload : List UInt8) : Option Json := (Incoming.read? payload).bind Incoming.asked?

/-- The jobs that a call stops. -/
def stoppedBy? (method : String) (params : Json) : Option Job :=
  if method = "dataflow_stop" then ((params.field? "method").bind Json.str?).bind Job.ofMethod?
  else none

def Incoming.stops? : Incoming → Option Job
  | .request _ method params | .notification method params => stoppedBy? method params
  | .response _ => none

def stops? (payload : List UInt8) : Option Job := (Incoming.read? payload).bind Incoming.stops?

/-- The id of the call that a message answers. -/
def Message.answered? (message : Json) : Option Json :=
  match message.field? "method" with
  | none => message.field? "id"
  | some _ => none

@[simp] theorem Job.ofMethod?_method (job : Job) : Job.ofMethod? job.method = some job := by
  cases job <;> rfl

theorem Job.eq_method {method : String} (h : Job.ofMethod? method = some job) :
    method = job.method := by
  rw [Job.ofMethod?] at h
  have same := List.find?_some h
  exact (beq_iff_eq.mp same).symm

/-- A call that starts a job stops none. -/
theorem stoppedBy?_method (job : Job) (params : Json) : stoppedBy? job.method params = none := by
  cases job <;> rfl

namespace Message

@[simp] theorem answered?_response (id result : Json) :
    answered? (response id result) = some id.normal := by
  simp [answered?, response, version, Json.normal, Json.normalFields, Json.field?,
    findEntry_insertEntry, findEntry]

@[simp] theorem answered?_refused (id : Json) (r : Refusal) :
    answered? (refused id r) = some id.normal := by
  simp [answered?, refused, version, Json.normal, Json.normalFields, Json.field?,
    findEntry_insertEntry, findEntry]

@[simp] theorem answered?_request (id : Nat) (method : String) (params : Json) :
    answered? (request id method params) = none := by
  simp [answered?, request, version, Json.normal, Json.normalFields, Json.field?,
    findEntry_insertEntry]

end Message

section Read

variable {message : Incoming} (read : Incoming.read? payload = some message)
include read

theorem asked?_of_read : asked? payload = message.asked? := by rw [asked?, read, Option.bind_some]

theorem stops?_of_read : stops? payload = message.stops? := by rw [stops?, read, Option.bind_some]

end Read

theorem Incoming.normal_of_request {a params : Json} {method : String}
    (h : Incoming.ofJson a = .request id method params) : id.normal = id := by
  unfold Incoming.ofJson at h
  cases field : a.normal.field? "id" with
  | none =>
    simp only [field, Option.getD_none] at h
    split at h <;> cases h
  | some value =>
    simp only [field, Option.getD_some] at h
    split at h <;> cases h
    exact Json.normal_of_field? field

theorem normal_of_read? {params : Json} {method : String}
    (h : Incoming.read? payload = some (.request id method params)) : id.normal = id := by
  obtain ⟨a, -, is⟩ := Option.map_eq_some_iff.mp h
  exact Incoming.normal_of_request is

namespace State

/-! ## What becomes of a message -/

def raise (s : State) : Option Job → State
  | some job => s.setStop job true
  | none => s

theorem requestStop_eq (s : State) (method : Json) :
    s.requestStop (method.str?.getD "") = s.raise (method.str?.bind Job.ofMethod?) := by
  cases method.str? with
  | none => rfl
  | some name =>
    rw [requestStop, Option.getD_some, Option.bind_some]
    cases Job.ofMethod? name <;> rfl

/-- An answer given at once changes nothing but a stop flag. -/
theorem state_answer (b : Backend) (s : State) (method : String) (params : Json) (w : World) :
    (answer b s method params w).1.2 = s.raise (stoppedBy? method params) := by
  by_cases stop : method = "dataflow_stop"
  · subst stop
    rw [stoppedBy?, if_pos rfl]
    cases field : params.field? "method" with
    | none => simp only [answer, field]; rfl
    | some name =>
      simp only [answer, field]
      exact s.requestStop_eq name
  · rw [stoppedBy?, if_neg stop]
    unfold answer
    split
    · rfl
    · rfl
    · cases params.field? "dataflow" with
      | none =>
        dsimp only
        rfl
      | some dataflow =>
        dsimp only
        generalize b.save dataflow = saving
        rfl
    · rfl
    · exact absurd rfl stop
    · rfl
    · split <;> rfl

/-- A message taken: passed over, answered, or a job accepted for it. -/
inductive Taken (s : State) (payload : List UInt8) : State → Prop
  | passed (asked : asked? payload = none) : Taken s payload (s.raise (stops? payload))
  | replied {message id : Json} (asked : asked? payload = some id)
    (answers : Message.answered? message = some id) :
    Taken s payload ((s.raise (stops? payload)).reply message)
  | accepted {call : JobCall} (idle : s.busy = false) (asked : asked? payload = some call.id)
    (normal : call.id.normal = call.id) (noStop : stops? payload = none) :
    Taken s payload { s with busy := true, reader := .lowering call }

theorem taken_accept {params : Json} (asked : asked? payload = some id) (normal : id.normal = id)
    (noStop : stops? payload = none) : Taken s payload (s.accept job id params) := by
  have replied {message : Json} (answers : Message.answered? message = some id.normal) :
      Taken s payload (s.reply message) := by
    have taken : Taken s payload ((s.raise (stops? payload)).reply message) :=
      .replied asked (normal ▸ answers)
    rwa [noStop] at taken
  unfold accept
  split
  · exact replied (Message.answered?_refused _ _)
  · split
    · exact replied (Message.answered?_response _ _)
    · next idle => exact .accepted (Bool.eq_false_iff.mpr idle) asked normal noStop

theorem take_of_job {params : Json} (b : Backend) (w : World)
    (read : Incoming.read? payload = some (.request id job.method params)) :
    take b s payload w = (s.accept job id params, w) := by
  simp only [take, read, Job.ofMethod?_method]
  rfl

theorem taken_take (b : Backend) (s : State) (payload : List UInt8) (w : World) :
    Taken s payload (take b s payload w).1 := by
  have ignored (asked : asked? payload = none) (noStop : stops? payload = none) :
      Taken s payload s := by
    have taken : Taken s payload (s.raise (stops? payload)) := .passed asked
    rwa [noStop] at taken
  unfold take
  cases read : Incoming.read? payload with
  | none => exact ignored (by rw [asked?, read]; rfl) (by rw [stops?, read]; rfl)
  | some message =>
    have asked := asked?_of_read read
    have stops := stops?_of_read read
    cases message with
    | response id => exact ignored asked stops
    | notification method params =>
      have taken : Taken s payload (s.raise (stops? payload)) := .passed asked
      rw [stops, Incoming.stops?, ← state_answer b s method params w] at taken
      exact taken
    | request id method params =>
      have normal : id.normal = id := normal_of_read? read
      cases starts : Job.ofMethod? method with
      | some job =>
        obtain rfl := Job.eq_method starts
        simp only [starts]
        exact taken_accept asked normal (stops.trans (stoppedBy?_method job params))
      | none =>
        have same := state_answer b s method params w
        rw [show stoppedBy? method params = stops? payload from stops.symm] at same
        rcases done : answer b s method params w with ⟨⟨r | result, s'⟩, w'⟩ <;>
          rw [done] at same <;> obtain rfl : s' = s.raise (stops? payload) := same
        · simp only [starts, bind, StateT.bind, done]
          exact .replied asked (by rw [Message.answered?_refused, normal])
        · simp only [starts, bind, StateT.bind, done]
          exact .replied asked (by rw [Message.answered?_response, normal])

end State

namespace State

/-- A step of the reader. -/
inductive Reads (s : State) (delivered : Bool) : State → Prop
  | ended (waits : s.reader = .waiting) (none : s.incoming = []) :
    Reads s delivered { s with reader := .stoppingBuild }
  | took {payload : List UInt8} {rest : List (List UInt8)} {s' : State}
    (waits : s.reader = .waiting) (next : s.incoming = payload :: rest)
    (taken : Taken { s with incoming := rest } payload s') : Reads s delivered s'
  | lowered {call : JobCall} (reader : s.reader = .lowering call) :
    Reads s delivered { s.setStop call.job false with reader := .starting call }
  | started {call : JobCall} (reader : s.reader = .starting call) :
    Reads s delivered { s with
      reader := .waiting
      nextJob := s.nextJob + 1
      running := s.running ++ [⟨s.nextJob, call, .started⟩] }
  | replied {message : Json} (reader : s.reader = .replying message) :
    Reads s delivered { s.send delivered message with
      reader := if delivered then .waiting else .stoppingBuild }
  | stoppedBuild (reader : s.reader = .stoppingBuild) :
    Reads s delivered { s.setStop .build true with reader := .stoppingRun }
  | stoppedRun (reader : s.reader = .stoppingRun) :
    Reads s delivered { s.setStop .run true with reader := .joining }
  | joined (reader : s.reader = .joining) :
    Reads s delivered { s with reader := if s.running.isEmpty then .returned else .joining }
  | stays (reader : s.reader = .returned) : Reads s delivered s

theorem reads_read (b : Backend) (s : State) (delivered : Bool) (w : World) :
    Reads s delivered (s.read b delivered w).1 := by
  obtain ⟨incoming, reader⟩ := s
  cases reader with
  | waiting =>
    cases incoming with
    | nil => exact .ended rfl rfl
    | cons payload rest => exact .took rfl rfl (taken_take ..)
  | lowering call => exact .lowered rfl
  | starting call => exact .started rfl
  | replying message => exact .replied rfl
  | stoppingBuild => exact .stoppedBuild rfl
  | stoppingRun => exact .stoppedRun rfl
  | joining => exact .joined rfl
  | returned => exact .stays rfl

section Reader

variable {call : JobCall} {rest : List (List UInt8)} (b : Backend) (delivered : Bool)

theorem after_waiting (waits : s.reader = .waiting) (next : s.incoming = payload :: rest) :
    s.after b (.reader delivered) = take b { s with incoming := rest } payload := by
  obtain ⟨incoming, reader⟩ := s
  cases waits
  cases next
  rfl

theorem after_lowering (reader : s.reader = .lowering call) :
    s.after b (.reader delivered) =
      pure { s.setStop call.job false with reader := .starting call } := by
  obtain ⟨incoming, reader⟩ := s
  cases reader
  rfl

theorem after_starting (reader : s.reader = .starting call) :
    s.after b (.reader delivered) = pure
      { s with
        reader := .waiting
        nextJob := s.nextJob + 1
        running := s.running ++ [⟨s.nextJob, call, .started⟩] } := by
  obtain ⟨incoming, reader⟩ := s
  cases reader
  rfl

end Reader

end State

/-! ## What becomes of a job -/

namespace Phase

/-- The job has not told that it is done. -/
def counts : Phase → Bool
  | .started | .working | .reporting _ | .ended _ => true
  | .failed _ | .answering _ => false

def executing : Phase → Bool
  | .working | .reporting _ => true
  | .started | .ended _ | .failed _ | .answering _ => false

/-- The steps that a job has before it at most. -/
def left : Phase → Nat
  | .started => 5
  | .working => 4
  | .reporting _ | .ended (some _) => 3
  | .ended none | .failed _ => 2
  | .answering _ => 1

theorem counts_of_executing {phase : Phase} (h : phase.executing = true) : phase.counts = true := by
  cases phase <;> first | rfl | cases h

end Phase

namespace State

variable {before after : List Running} {r : Running}

/-- A step of a job between others: it comes further, it no longer counts as running, or its call
is answered. -/
inductive Advanced (before : List Running) (r : Running) (after : List Running) (s : State)
    (delivered : Bool) : State → Prop
  | moved {phase : Phase} {sent : List Json} {nextId : Nat} (counts : phase.counts = r.phase.counts)
    (less : phase.left < r.phase.left)
    (silent : sent.filterMap Message.answered? = s.sent.filterMap Message.answered?) :
    Advanced before r after s delivered
      { s with running := before ++ { r with phase := phase } :: after, sent, nextId }
  | cleared {phase : Phase} (counted : r.phase.counts = true) (done : phase.counts = false)
    (less : phase.left < r.phase.left) :
    Advanced before r after s delivered
      { s with running := before ++ { r with phase := phase } :: after, busy := false }
  | answered {result : Json} (answering : r.phase = .answering result) :
    Advanced before r after s delivered
      { s.send delivered (Message.response r.call.id result) with running := before ++ after }

theorem send_eq (s : State) (delivered : Bool) (message : Json) :
    s.send delivered message = { s with sent := (s.send delivered message).sent } := by
  cases delivered <;> rfl

/-- Calls to the editor answer none of its calls. -/
theorem silent_request (s : State) (delivered : Bool) (id : Nat) (method : String)
    (params : Json) : (s.send delivered (Message.request id method params)).sent.filterMap
      Message.answered? = s.sent.filterMap Message.answered? := by
  cases delivered
  · rfl
  · simp [send]

/-- What the work of a job comes to is told in its next phase. -/
theorem exists_phase_work (b : Backend) (s : State) (r : Running) (stop : Stage → Option Nat)
    (w : World) : ∃ phase, (work b s r stop w).1 = s.setPhase r.number phase ∧
      phase.counts = true ∧ phase.left = 3 := by
  unfold work
  generalize b.execute r.call.job r.call.dataflow
    (if s.stops r.call.job then stop else fun _ => none) = action
  rcases done : action w with ⟨f | report, w'⟩
  · refine ⟨.ended (some f), ?_, rfl, rfl⟩
    simp only [bind, StateT.bind, ExceptT.run, done]
    rfl
  · refine ⟨.reporting report.text, ?_, rfl, rfl⟩
    simp only [bind, StateT.bind, ExceptT.run, done]
    rfl

section Advance

variable (whole : s.running = before ++ r :: after)
  (others : ∀ q ∈ before ++ after, q.number ≠ r.number)
include whole others

theorem setPhase_eq (phase : Phase) : s.setPhase r.number phase =
    { s with running := before ++ { r with phase := phase } :: after } := by
  have kept (l : List Running) (h : ∀ q ∈ l, q ∈ before ++ after) :
      l.map (fun q => if q.number = r.number then { q with phase := phase } else q) = l :=
    (List.map_congr_left fun q mem => if_neg (others q (h q mem))).trans (List.map_id l)
  rw [setPhase, whole, List.map_append, List.map_cons, if_pos rfl,
    kept before fun q mem => List.mem_append_left _ mem,
    kept after fun q mem => List.mem_append_right _ mem]

theorem filter_running : s.running.filter (fun q => q.number ≠ r.number) = before ++ after := by
  rw [whole, List.filter_append, List.filter_cons_of_neg (by simp), ← List.filter_append]
  exact List.filter_eq_self.mpr fun q mem => decide_eq_true (others q mem)

theorem advanced_call {phase : Phase} (method : String) (params : Json)
    (counts : phase.counts = r.phase.counts) (less : phase.left < r.phase.left) :
    Advanced before r after s delivered
      ((s.call delivered method params).setPhase r.number phase) := by
  rw [setPhase_eq (s := s.call delivered method params) (by rw [call, send_eq]; exact whole) others,
    call, send_eq]
  exact .moved counts less (silent_request ..)

theorem advanced_advance (b : Backend) (stop : Stage → Option Nat) (w : World) :
    Advanced before r after s delivered (advance b s r delivered stop w).1 := by
  cases phase : r.phase with
  | started =>
    simp only [advance, phase]
    exact advanced_call whole others _ _ (by rw [phase]; rfl) (by simp [phase, Phase.left])
  | working =>
    obtain ⟨next, worked, counts, left⟩ := exists_phase_work b s r stop w
    simp only [advance, phase, worked, setPhase_eq whole others]
    exact .moved (by rw [counts, phase]; rfl) (by rw [left, phase]; decide) rfl
  | reporting text =>
    simp only [advance, phase]
    exact advanced_call whole others _ _ (by rw [phase]; rfl) (by simp [phase, Phase.left])
  | ended failure =>
    cases failure with
    | none =>
      simp only [advance, phase, setPhase_eq whole others]
      exact .cleared (by rw [phase]; rfl) rfl (by simp [phase, Phase.left])
    | some f =>
      simp only [advance, phase, setPhase_eq whole others]
      exact .cleared (by rw [phase]; rfl) rfl (by simp [phase, Phase.left])
  | failed f =>
    simp only [advance, phase]
    exact advanced_call whole others _ _ (by rw [phase]; rfl) (by simp [phase, Phase.left])
  | answering result =>
    simp only [advance, phase, filter_running whole others]
    exact .answered phase

end Advance

theorem exists_split {number : Nat} (distinct : (s.running.map (·.number)).Nodup)
    (found : s.running.find? (fun r => r.number = number) = some r) :
    ∃ before after, s.running = before ++ r :: after ∧ r.number = number ∧
      ∀ q ∈ before ++ after, q.number ≠ number := by
  obtain ⟨is, before, after, whole, others⟩ := List.find?_eq_some_iff_append.mp found
  obtain rfl : r.number = number := of_decide_eq_true is
  refine ⟨before, after, whole, rfl, fun q mem same => ?_⟩
  rw [whole, List.map_append, List.map_cons, List.nodup_middle, List.nodup_cons,
    ← List.map_append] at distinct
  exact distinct.1 (same ▸ List.mem_map_of_mem mem)

end State

/-! ## What holds of every session -/

/-- The call for which the reader is about to start a job. -/
def Reader.accepted? : Reader → Option JobCall
  | .lowering call | .starting call => some call
  | .waiting | .replying _ | .stoppingBuild | .stoppingRun | .joining | .returned => none

/-- The jobs have numbers of their own, and the one job that counts as running, if there is one, is
what the session is busy with. -/
structure Orderly (s : State) : Prop where
  distinct : (s.running.map (·.number)).Nodup
  below : ∀ n ∈ s.running.map (·.number), n < s.nextJob
  counted : s.reader.accepted?.toList.length + s.running.countP (·.phase.counts) = s.busy.toNat
  joined : s.reader = .returned → s.running = []

theorem orderly_opened (incoming : List (List UInt8)) (stopBuild stopRun : Bool) :
    Orderly (.opened incoming stopBuild stopRun) where
  distinct := List.nodup_nil
  below _ mem := absurd mem List.not_mem_nil
  counted := rfl
  joined _ := rfl

theorem Orderly.after_job (orderly : Orderly s) (b : Backend) (number : Nat) (delivered : Bool)
    (stop : Stage → Option Nat) (w : World) :
    (∀ r ∈ s.running, r.number ≠ number) ∧ (s.after b (.job number delivered stop) w).1 = s ∨
      ∃ before r after, s.running = before ++ r :: after ∧ r.number = number ∧
        s.Advanced before r after delivered (s.after b (.job number delivered stop) w).1 := by
  cases found : s.running.find? (fun r => r.number = number) with
  | none =>
    simp only [State.after, found]
    exact .inl ⟨fun r mem => by simpa using List.find?_eq_none.mp found r mem, rfl⟩
  | some r =>
    obtain ⟨before, after, whole, rfl, others⟩ := State.exists_split orderly.distinct found
    simp only [State.after, found]
    exact .inr ⟨before, r, after, whole, rfl, State.advanced_advance whole others b stop w⟩

namespace State

variable {before after : List Running} {r : Running}

@[simp] theorem reader_raise (s : State) (job : Option Job) : (s.raise job).reader = s.reader := by
  rcases job with _ | _ | _ <;> rfl

@[simp] theorem busy_raise (s : State) (job : Option Job) : (s.raise job).busy = s.busy := by
  rcases job with _ | _ | _ <;> rfl

@[simp] theorem running_raise (s : State) (job : Option Job) :
    (s.raise job).running = s.running := by
  rcases job with _ | _ | _ <;> rfl

@[simp] theorem nextJob_raise (s : State) (job : Option Job) :
    (s.raise job).nextJob = s.nextJob := by
  rcases job with _ | _ | _ <;> rfl

/-- The reader leaves the jobs as they are, but for those that it starts. -/
theorem orderly_of_reader (orderly : Orderly s) (running : s'.running = s.running)
    (nextJob : s'.nextJob = s.nextJob)
    (counted : s'.reader.accepted?.toList.length + s.busy.toNat =
      s.reader.accepted?.toList.length + s'.busy.toNat)
    (joined : s'.reader = .returned → s.running = []) : Orderly s' := by
  refine ⟨running ▸ orderly.distinct, ?_, ?_, fun is => running ▸ joined is⟩
  · rw [running, nextJob]
    exact orderly.below
  · have before := orderly.counted
    rw [running]
    omega

theorem Taken.orderly (taken : Taken s payload s') (waits : s.reader = .waiting)
    (orderly : Orderly s) : Orderly s' := by
  cases taken with
  | passed => exact orderly_of_reader orderly (by simp) (by simp) (by simp) (by simp [waits])
  | replied =>
    refine orderly_of_reader orderly ?_ ?_ ?_ nofun
    all_goals simp [reply, waits, Reader.accepted?]
  | accepted idle =>
    exact orderly_of_reader orderly rfl rfl (by simp [waits, idle, Reader.accepted?]) nofun

theorem Reads.orderly (reads : Reads s delivered s') (orderly : Orderly s) : Orderly s' := by
  cases reads with
  | ended waits none =>
    exact orderly_of_reader orderly rfl rfl (by simp [waits, Reader.accepted?]) nofun
  | took waits next taken =>
    refine taken.orderly waits ?_
    exact orderly_of_reader orderly rfl rfl rfl (by simp [waits])
  | @lowered call reader =>
    cases call.job <;>
      exact orderly_of_reader orderly rfl rfl (by simp [reader, Reader.accepted?, setStop]) nofun
  | @started call reader =>
    have numbers : (s.running ++ [(⟨s.nextJob, call, .started⟩ : Running)]).map (·.number) =
        s.running.map (·.number) ++ [s.nextJob] := by simp
    refine ⟨?_, ?_, ?_, nofun⟩
    · rw [numbers, List.nodup_append_comm, List.singleton_append, List.nodup_cons]
      exact ⟨fun mem => Nat.lt_irrefl _ (orderly.below _ mem), orderly.distinct⟩
    · rw [numbers]
      intro n mem
      rcases List.mem_append.mp mem with mem | mem
      · exact Nat.lt_succ_of_lt (orderly.below n mem)
      · rw [List.mem_singleton.mp mem]
        exact Nat.lt_succ_self _
    · have counted := orderly.counted
      rw [reader] at counted
      simpa [Reader.accepted?, Phase.counts, Nat.add_comm] using counted
  | replied reader =>
    cases delivered <;>
      exact orderly_of_reader orderly rfl rfl (by simp [reader, Reader.accepted?, send]) nofun
  | stoppedBuild reader =>
    exact orderly_of_reader orderly rfl rfl (by simp [reader, Reader.accepted?, setStop]) nofun
  | stoppedRun reader =>
    exact orderly_of_reader orderly rfl rfl (by simp [reader, Reader.accepted?, setStop]) nofun
  | joined reader =>
    cases running : s.running with
    | nil =>
      refine orderly_of_reader orderly running.symm rfl ?_ fun _ => running
      simp [reader, Reader.accepted?]
    | cons r more =>
      refine orderly_of_reader orderly running.symm rfl ?_ (by simp)
      simp [reader, Reader.accepted?]
  | stays => exact orderly

theorem Advanced.orderly (advanced : Advanced before r after s delivered s')
    (whole : s.running = before ++ r :: after) (orderly : Orderly s) : Orderly s' := by
  obtain ⟨distinct, below, counted, joined⟩ := orderly
  have goesOn {running : List Running} (returned : s.reader = .returned) : running = [] :=
    absurd (joined returned) (by simp [whole])
  rw [whole] at distinct below counted
  cases advanced with
  | moved counts =>
    refine ⟨by simpa using distinct, by simpa using below, ?_, goesOn⟩
    simpa [List.countP_append, List.countP_cons, counts] using counted
  | cleared counts done =>
    refine ⟨by simpa using distinct, by simpa using below, ?_, goesOn⟩
    have busy := s.busy.toNat_le
    simp only [List.countP_append, List.countP_cons, counts, done, if_true, Bool.false_eq_true,
      if_false, Bool.toNat_false] at counted ⊢
    omega
  | answered answering =>
    rw [send_eq]
    have part : (before ++ after).Sublist (before ++ r :: after) :=
      (List.Sublist.refl before).append (List.sublist_cons_self r after)
    refine ⟨(part.map _).nodup distinct, fun n mem => below n ((part.map _).subset mem), ?_,
      goesOn⟩
    simpa [List.countP_append, List.countP_cons, answering, Phase.counts] using counted

end State

theorem Orderly.after (orderly : Orderly s) (b : Backend) (e : Event) (w : World) :
    Orderly (s.after b e w).1 := by
  cases e with
  | reader delivered => exact (State.reads_read b s delivered w).orderly orderly
  | job number delivered stop =>
    rcases orderly.after_job b number delivered stop w with
      ⟨-, same⟩ | ⟨before, r, after, whole, -, advanced⟩
    · rwa [same]
    · exact advanced.orderly whole orderly

/-! ## Many steps -/

/-- The state after steps in this order. -/
def State.follow (b : Backend) : List Event → State → StateM World State
  | [], s => return s
  | e :: events, s => do follow b events (← s.after b e)

namespace State

variable {w : World} {events : List Event}

theorem follow_cons (b : Backend) (e : Event) (events : List Event) (s : State) (w : World) :
    follow b (e :: events) s w = follow b events (s.after b e w).1 (s.after b e w).2 := rfl

theorem follow_append (b : Backend) (events more : List Event) (s : State) (w : World) :
    follow b (events ++ more) s w =
      follow b more (follow b events s w).1 (follow b events s w).2 := by
  induction events generalizing s w with
  | nil => rfl
  | cons e events ih => exact ih _ _

/-- What every step keeps holds after many. -/
theorem follow_induction {P : State → Prop} (b : Backend) (start : P s)
    (step : ∀ e ∈ events, ∀ s w, P s → P (s.after b e w).1) : P (follow b events s w).1 := by
  induction events generalizing s w with
  | nil => exact start
  | cons e events ih =>
    exact ih (step e (.head _) s w start) fun e mem => step e (.tail _ mem)

theorem orderly_follow (orderly : Orderly s) (b : Backend) : Orderly (follow b events s w).1 :=
  follow_induction b orderly fun e _ _ w orderly => orderly.after b e w

end State

end BoardDesign.Editor
