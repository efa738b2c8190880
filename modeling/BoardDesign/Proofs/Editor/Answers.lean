import BoardDesign.Proofs.Editor.Steps
import Mathlib.Algebra.Ring.Nat
import Mathlib.Data.List.Count
import Mathlib.Data.List.Perm.Basic

/-!
# One answer for each call of the editor, and one job at a time

* `State.ids`: the ids of all calls, answered or not, taken or not;
* `perm_ids_after`: no step in which what is written is delivered adds one or loses one;
* `answers_of_returned`: at its end a session has answered every call once;
* `countP_executing_le_one`, `busy_iff`: jobs do not work at the same time;
* `reader_serve`: a session in which each job is done before the next message comes to its end.
-/

namespace BoardDesign.Editor

variable {s s' : State} {payload : List UInt8} {incoming : List (List UInt8)}
  {before after : List Running} {r : Running} {w : World} {events : List Event}

/-! ## Calls and answers -/

/-- The ids of the calls that the reader has taken and not answered. -/
def Reader.unanswered : Reader → List Json
  | .lowering call | .starting call => [call.id.normal]
  | .replying message => (Message.answered? message).toList
  | .waiting | .stoppingBuild | .stoppingRun | .joining | .returned => []

/-- The session is over. -/
def Reader.isOver : Reader → Bool
  | .stoppingBuild | .stoppingRun | .joining | .returned => true
  | .waiting | .lowering _ | .starting _ | .replying _ => false

def Event.delivered : Event → Bool
  | .reader delivered | .job _ delivered _ => delivered

namespace State

/-- The ids of the calls that have been answered, of those that a job or the reader is to answer,
and of those that have not been taken. -/
def ids (s : State) : List Json :=
  s.sent.filterMap Message.answered? ++ (s.reader.unanswered ++
    (s.running.map (·.call.id.normal) ++ s.incoming.filterMap asked?))

theorem filterMap_cons_toList {α β : Type} (f : α → Option β) (x : α) (xs : List α) :
    (x :: xs).filterMap f = (f x).toList ++ xs.filterMap f := by
  rw [List.filterMap_cons]
  cases f x <;> rfl

@[simp] theorem sent_raise (s : State) (job : Option Job) : (s.raise job).sent = s.sent := by
  rcases job with _ | _ | _ <;> rfl

@[simp] theorem incoming_raise (s : State) (job : Option Job) :
    (s.raise job).incoming = s.incoming := by
  rcases job with _ | _ | _ <;> rfl

theorem Reads.perm_ids (reads : Reads s true s') : s'.ids.Perm s.ids := by
  refine List.perm_iff_count.mpr fun id => ?_
  cases reads with
  | ended waits none => simp [ids, waits, Reader.unanswered]
  | @took payload rest _ waits next taken =>
    have taken_id := filterMap_cons_toList asked? payload rest
    cases taken with
    | passed asked => simp [ids, waits, Reader.unanswered, next, taken_id, asked]
    | replied asked answers =>
      simp [ids, reply, waits, Reader.unanswered, next, taken_id, asked, answers, List.count_cons]
      omega
    | accepted idle asked normal =>
      simp [ids, waits, Reader.unanswered, next, taken_id, asked, normal, List.count_cons]
      omega
  | @lowered call reader =>
    cases kind : call.job <;> simp [ids, reader, Reader.unanswered, setStop]
  | started reader =>
    simp [ids, reader, Reader.unanswered, List.count_cons]
    omega
  | replied reader => simp [ids, reader, Reader.unanswered, send, filterMap_cons_toList]
  | stoppedBuild reader => simp [ids, reader, Reader.unanswered, setStop]
  | stoppedRun reader => simp [ids, reader, Reader.unanswered, setStop]
  | joined reader => cases running : s.running <;> simp [ids, reader, running, Reader.unanswered]
  | stays => rfl

theorem Advanced.perm_ids (advanced : Advanced before r after s true s')
    (whole : s.running = before ++ r :: after) : s'.ids.Perm s.ids := by
  refine List.perm_iff_count.mpr fun id => ?_
  cases advanced with
  | moved counts less silent => simp [ids, whole, silent]
  | cleared => simp [ids, whole]
  | answered answering =>
    simp [ids, whole, send, List.count_cons]
    omega

/-- No call is lost or answered twice. -/
theorem perm_ids_after (orderly : Orderly s) (b : Backend) {e : Event} (w : World)
    (delivered : e.delivered = true) : (s.after b e w).1.ids.Perm s.ids := by
  cases e with
  | reader d =>
    obtain rfl : d = true := delivered
    exact (reads_read b s true w).perm_ids
  | job number d stop =>
    obtain rfl : d = true := delivered
    rcases orderly.after_job b number true stop w with
      ⟨-, same⟩ | ⟨before, r, after, whole, -, advanced⟩
    · rw [same]
    · exact advanced.perm_ids whole

/-- A session in which answers are delivered is over only when all messages have been taken. -/
def Drained (s : State) : Prop := s.reader.isOver = true → s.incoming = []

theorem Taken.goesOn (taken : Taken s payload s') (waits : s.reader = .waiting) :
    s'.reader.isOver = false := by
  cases taken with
  | passed => rw [reader_raise, waits]; rfl
  | replied => rfl
  | accepted => rfl

theorem Reads.drained (reads : Reads s true s') (drained : Drained s) : Drained s' := by
  intro isOver
  cases reads with
  | ended waits none => exact none
  | took waits next taken => exact absurd isOver (by rw [taken.goesOn waits]; decide)
  | lowered | started | replied => cases isOver
  | stoppedBuild reader => exact drained (by rw [reader]; rfl)
  | stoppedRun reader => exact drained (by rw [reader]; rfl)
  | joined reader => exact drained (by rw [reader]; rfl)
  | stays => exact drained isOver

theorem Advanced.drained {delivered : Bool} (advanced : Advanced before r after s delivered s')
    (drained : Drained s) : Drained s' := by
  cases advanced with
  | moved | cleared => exact drained
  | answered =>
    rw [send_eq]
    exact drained

theorem drained_after (orderly : Orderly s) (b : Backend) {e : Event} (w : World)
    (delivered : e.delivered = true) (drained : Drained s) : Drained (s.after b e w).1 := by
  cases e with
  | reader d =>
    obtain rfl : d = true := delivered
    exact (reads_read b s true w).drained drained
  | job number d stop =>
    rcases orderly.after_job b number d stop w with
      ⟨-, same⟩ | ⟨before, r, after, whole, -, advanced⟩
    · rwa [same]
    · exact advanced.drained drained

section Follow

variable (b : Backend) (stopBuild stopRun : Bool)
  (delivered : ∀ e ∈ events, e.delivered = true)
  (followed : s = (follow b events (.opened incoming stopBuild stopRun) w).1)
include delivered followed

/-- At every moment the calls of all messages are answered or still to be answered. -/
theorem perm_ids_follow : s.ids.Perm (incoming.filterMap asked?) := by
  have kept : Orderly s ∧ s.ids.Perm (incoming.filterMap asked?) := by
    rw [followed]
    refine follow_induction (P := fun s => Orderly s ∧ s.ids.Perm (incoming.filterMap asked?)) b
      ⟨orderly_opened .., .refl _⟩ fun e mem s w kept => ?_
    exact ⟨kept.1.after b e w, (perm_ids_after kept.1 b w (delivered e mem)).trans kept.2⟩
  exact kept.2

theorem drained_follow : Drained s := by
  have kept : Orderly s ∧ Drained s := by
    rw [followed]
    refine follow_induction (P := fun s => Orderly s ∧ Drained s) b
      ⟨orderly_opened .., nofun⟩ fun e mem s w kept => ?_
    exact ⟨kept.1.after b e w, drained_after kept.1 b w (delivered e mem) kept.2⟩
  exact kept.2

theorem answers_of_returned (returned : s.reader = .returned) :
    (s.sent.filterMap Message.answered?).Perm (incoming.filterMap asked?) := by
  have orderly : Orderly s := followed ▸ orderly_follow (orderly_opened ..) b
  have ids := perm_ids_follow b stopBuild stopRun delivered followed
  have taken : s.incoming = [] :=
    drained_follow b stopBuild stopRun delivered followed (by rw [returned]; rfl)
  simpa [State.ids, returned, Reader.unanswered, orderly.joined returned, taken] using ids

end Follow

end State

/-! ## One job at a time -/

theorem Orderly.countP_executing_le_one (orderly : Orderly s) :
    s.running.countP (·.phase.executing) ≤ 1 := by
  have executing : s.running.countP (·.phase.executing) ≤ s.running.countP (·.phase.counts) :=
    List.countP_mono_left fun r _ => Phase.counts_of_executing
  have counted := orderly.counted
  have busy := s.busy.toNat_le
  omega

/-- Between two messages the session is busy with a job that has not told that it is done. -/
theorem Orderly.busy_iff (orderly : Orderly s) (waits : s.reader = .waiting) :
    s.busy = true ↔ ∃ r ∈ s.running, r.phase.counts = true := by
  have counted : s.running.countP (·.phase.counts) = s.busy.toNat := by
    simpa [waits, Reader.accepted?] using orderly.counted
  rw [← List.countP_pos_iff (p := fun r : Running => r.phase.counts), counted]
  cases s.busy <;> decide

/-- A message that is no call to be answered is passed over or heard, and nothing else is done. -/
theorem State.Taken.unasked (taken : State.Taken s payload s') (asked : asked? payload = none) :
    s'.reader = s.reader ∧ s'.sent = s.sent ∧ s'.running = s.running := by
  cases taken with
  | passed => simp
  | replied other => simp [asked] at other
  | accepted idle other => simp [asked] at other

/-- When the next message starts a job the reader refuses it or accepts it, as it is busy or not. -/
theorem State.reader_take_of_job {id params dataflow : Json} {job : Job}
    (read : Incoming.read? payload = some (.request id job.method params))
    (given : params.field? "dataflow" = some dataflow) (b : Backend) (s : State) (w : World) :
    (State.take b s payload w).1.reader =
      if s.busy then .replying (Message.response id Message.busy)
      else .lowering ⟨job, id, dataflow⟩ := by
  rw [State.take_of_job b w read, State.accept, given]
  dsimp only
  split <;> rfl

/-! ## A session in which each job is done before the next message -/

/-- The steps of the reader that are left when no message is, with those of a job that it starts. -/
def Reader.left : Reader → Nat
  | .lowering _ => 11
  | .starting _ => 10
  | .replying _ => 5
  | .waiting => 4
  | .stoppingBuild => 3
  | .stoppingRun => 2
  | .joining => 1
  | .returned => 0

namespace State

/-- No more steps are left. -/
def left (s : State) : Nat :=
  s.incoming.length * stepsPerMessage + s.reader.left + (s.running.map (·.phase.left)).sum

theorem Reads.left_lt (reads : Reads s true s') (idle : s.running = [])
    (goesOn : s.reader ≠ .returned) : s'.left < s.left := by
  cases reads with
  | ended waits none => simp [left, waits, Reader.left]
  | took waits next taken =>
    cases taken <;> simp [left, waits, next, reply, Reader.left, stepsPerMessage, idle]
    all_goals omega
  | @lowered call reader => cases kind : call.job <;> simp [left, reader, Reader.left, setStop]
  | started reader => simp [left, reader, Reader.left, Phase.left, idle]
  | replied reader => simp [left, reader, Reader.left, send]
  | stoppedBuild reader => simp [left, reader, Reader.left, setStop]
  | stoppedRun reader => simp [left, reader, Reader.left, setStop]
  | joined reader => simp [left, reader, Reader.left, idle]
  | stays reader => exact absurd reader goesOn

theorem Advanced.left_lt {delivered : Bool} (advanced : Advanced before r after s delivered s')
    (whole : s.running = before ++ r :: after) : s'.left < s.left := by
  cases advanced with
  | moved counts less => simpa [left, whole] using less
  | cleared counted done less => simpa [left, whole] using less
  | answered answering =>
    rw [send_eq]
    simp [left, whole, answering, Phase.left]

theorem delivered_next (s : State) : s.next.delivered = true := by
  unfold next
  split <;> rfl

theorem left_after_next (orderly : Orderly s) (b : Backend) (w : World)
    (goesOn : s.reader ≠ .returned) : (s.after b s.next w).1.left < s.left := by
  cases idle : s.running with
  | nil =>
    rw [next, idle]
    exact (reads_read b s true w).left_lt idle goesOn
  | cons r rest =>
    rw [next, idle]
    rcases orderly.after_job b r.number true (fun _ => none) w with
      ⟨others, -⟩ | ⟨before, q, after, whole, -, advanced⟩
    · exact absurd rfl (others r (by rw [idle]; exact .head _))
    · exact advanced.left_lt whole

theorem after_next_of_returned (orderly : Orderly s) (b : Backend) (w : World)
    (returned : s.reader = .returned) : (s.after b s.next w).1 = s := by
  have idle := orderly.joined returned
  rw [next, idle]
  obtain ⟨incoming, reader⟩ := s
  cases returned
  rfl

/-- With all its steps a session comes to its end. -/
theorem reader_jobsFirst (b : Backend) {n : Nat} (orderly : Orderly s)
    (enough : s.reader ≠ .returned → s.left ≤ n) :
    (s.jobsFirst b n w).1.reader = .returned := by
  induction n generalizing s w with
  | zero =>
    by_contra goesOn
    have none : s.reader.left = 0 := by
      have few := enough goesOn
      rw [left] at few
      omega
    refine goesOn ?_
    change s.reader = .returned
    cases reader : s.reader <;> rw [reader] at none <;> first | rfl | cases none
  | succ n ih =>
    refine ih (orderly.after b s.next w) fun goesOn => ?_
    have wentOn : s.reader ≠ .returned := fun returned =>
      goesOn ((congrArg State.reader (after_next_of_returned orderly b w returned)).trans returned)
    exact Nat.le_of_lt_succ (Nat.lt_of_lt_of_le (left_after_next orderly b w wentOn)
      (enough wentOn))

theorem exists_follow_jobsFirst (b : Backend) (n : Nat) (s : State) (w : World) :
    ∃ events, (∀ e ∈ events, e.delivered = true) ∧ s.jobsFirst b n w = follow b events s w := by
  induction n generalizing s w with
  | zero => exact ⟨[], nofun, rfl⟩
  | succ n ih =>
    obtain ⟨events, delivered, same⟩ := ih (s.after b s.next w).1 (s.after b s.next w).2
    exact ⟨s.next :: events, List.forall_mem_cons.mpr ⟨s.delivered_next, delivered⟩, same⟩

end State

/-- Served in this way a session comes to its end, with one answer for each call that has come. -/
theorem serve_answers (b : Backend) (stream : List UInt8) (w : World) :
    (serve b stream w).1.reader = .returned ∧
      ((serve b stream w).1.sent.filterMap Message.answered?).Perm
        ((Frame.readAll stream).1.filterMap asked?) := by
  have orderly := orderly_opened (Frame.readAll stream).1 false false
  have returned : (serve b stream w).1.reader = .returned :=
    State.reader_jobsFirst b orderly fun _ => by
      simp [State.left, State.opened, Reader.left, closingSteps]
  obtain ⟨events, delivered, same⟩ := State.exists_follow_jobsFirst b
    ((Frame.readAll stream).1.length * stepsPerMessage + closingSteps)
    (.opened (Frame.readAll stream).1 false false) w
  exact ⟨returned, State.answers_of_returned b false false delivered
    (congrArg Prod.fst same) returned⟩

/-! ## One answer for each call -/

/-- At the end of a session every call has one answer. At every moment at most one job works, and
the next message is refused as busy just when it starts a job and another has not told that it is
done. -/
theorem one_answer_for_each_call (b : Backend) (stopBuild stopRun : Bool)
    (delivered : ∀ e ∈ events, e.delivered = true)
    (followed : s = (State.follow b events (.opened incoming stopBuild stopRun) w).1) :
    (s.reader = .returned →
      (s.sent.filterMap Message.answered?).Perm (incoming.filterMap asked?)) ∧
    s.running.countP (·.phase.executing) ≤ 1 ∧
    ∀ payload rest, s.reader = .waiting → s.incoming = payload :: rest → ∀ (d : Bool) (v : World),
      let s' := (s.after b (.reader d) v).1
      (asked? payload = none →
        s'.reader = .waiting ∧ s'.sent = s.sent ∧ s'.running = s.running) ∧
      ∀ (id : Json) (job : Job) (params dataflow : Json),
        Incoming.read? payload = some (.request id job.method params) →
        params.field? "dataflow" = some dataflow →
        (s'.reader = .replying (Message.response id Message.busy) ↔
          ∃ r ∈ s.running, r.phase.counts = true) ∧
        (s'.reader = .lowering ⟨job, id, dataflow⟩ ↔
          ¬ ∃ r ∈ s.running, r.phase.counts = true) := by
  have orderly : Orderly s := followed ▸ State.orderly_follow (orderly_opened ..) b
  refine ⟨State.answers_of_returned b stopBuild stopRun delivered followed,
    orderly.countP_executing_le_one, fun payload rest waits next d v => ?_⟩
  rw [State.after_waiting b d waits next]
  refine ⟨fun asked => ?_, fun id job params dataflow read given => ?_⟩
  · have unasked := (State.taken_take b { s with incoming := rest } payload v).unasked asked
    exact ⟨unasked.1.trans waits, unasked.2⟩
  · rw [State.reader_take_of_job read given, ← orderly.busy_iff waits]
    cases s.busy <;> simp

/-- A backend without programs. -/
def idleBackend : Backend where
  settings := ⟨⟨"/"⟩, none, none, none, "r", default, .empty, false⟩
  host := ⟨1, .empty, fun _ _ => .error .notFound, none⟩
  catalog := default
  application := .sources "app"

def bareWorld : World := ⟨⟨[]⟩, [], 0, [], 0, []⟩

/-- A job called for what is no document. -/
def callOf (id : Nat) (job : Job) : List UInt8 :=
  Message.payload (Message.request id job.method (.obj [("dataflow", .null)]))

/-- A build, what is no message, and a simulation. -/
def twoCalls : List (List UInt8) := [callOf 1 .build, [], callOf 2 .run]

/-- The build has started, and the simulation is the next message. -/
def startedSteps : List Event := List.replicate 4 (.reader true)

def startedState : State :=
  (State.follow idleBackend startedSteps (.opened twoCalls false false) bareWorld).1

theorem asked?_twoCalls : twoCalls.filterMap asked? = [.int 1, .int 2] := by decide +kernel

theorem read?_callOf (job : Job) : Incoming.read? (callOf 2 job) =
    some (.request (.int 2) job.method (.obj [("dataflow", .null)])) := by
  cases job <;> decide +kernel

/-- Both calls are answered; when the first job goes on the second is refused as busy. -/
theorem one_answer_for_two_calls :
    (∃ events s, s = (State.follow idleBackend events (.opened twoCalls false false) bareWorld).1 ∧
      (s.sent.filterMap Message.answered?).Perm [.int 1, .int 2]) ∧
    (startedState.after idleBackend (.reader true) bareWorld).1.reader =
      .replying (Message.response (.int 2) Message.busy) := by
  constructor
  · obtain ⟨events, delivered, same⟩ := State.exists_follow_jobsFirst idleBackend 28
      (.opened twoCalls false false) bareWorld
    have returned : (State.follow idleBackend events (.opened twoCalls false false)
        bareWorld).1.reader = .returned := by
      rw [← same]
      exact State.reader_jobsFirst idleBackend (orderly_opened ..) fun _ => by decide
    have answers := (one_answer_for_each_call idleBackend false false delivered rfl).1 returned
    rw [asked?_twoCalls] at answers
    exact ⟨events, _, rfl, answers⟩
  · have delivered : ∀ e ∈ startedSteps, e.delivered = true := by decide +kernel
    have followed : startedState =
      (State.follow idleBackend startedSteps (.opened twoCalls false false) bareWorld).1 := rfl
    have taken := (one_answer_for_each_call idleBackend false false delivered followed).2.2
      (callOf 2 .run) [] (by decide +kernel) (by decide +kernel) true bareWorld
    exact (taken.2 (.int 2) .run _ .null (read?_callOf .run) rfl).1.mpr (by decide +kernel)

end BoardDesign.Editor
