import BoardDesign.Proofs.Workspace.Exclusion

/-!
# Mutual exclusion and the theft of locks

A process that acquires a lock finds out that its holder does not run any more and removes the
lock file in two steps. Between them another process may do the same and acquire the lock, and
then it is its file that is removed.

As long as nobody steals a lock like that, one running process at most holds it. When somebody
does, both can come to hold it.

* `exists_follow_of_runs`: a process that goes on alone comes to what its work comes to;
* `Ordered.exists_follow_of_steals`: a thief comes to hold the lock beside the process it has robbed;
* `stale`, `contest`: a lock file left behind, and two processes that find it.
-/

namespace BoardDesign.Workspace

open Stage (Error)

variable {locksDir board : String} {p q : Nat} {w : World} {s s' t : System}

namespace System

theorem change_self (s : System) (p : Nat) : s.change p (s.activity p) s.world = s := by
  obtain ⟨w, activity⟩ := s
  simp only [change, System.mk.injEq, true_and]
  funext q
  split
  · rename_i same
    rw [same]
  · rfl

theorem change_change (s : System) (p : Nat) (a b : Activity) (w w' : World) :
    (s.change p a w).change p b w' = s.change p b w' := by
  simp only [change, System.mk.injEq, true_and]
  funext q
  split <;> rfl

theorem follow_append (s : System) (before after : List Move) :
    s.follow locksDir board (before ++ after) =
      (s.follow locksDir board before).bind fun t => t.follow locksDir board after := by
  induction before generalizing s with
  | nil => rfl
  | cons m rest ih =>
    rw [List.cons_append, follow, follow]
    cases s.move locksDir board m with
    | none => rfl
    | some t => exact ih t

end System

/-- A process that goes on alone comes to what its work comes to. -/
theorem exists_follow_of_runs (locksDir board : String) {r : Except Error Lock}
    {work : Work (Except Error Lock)} (runs : Runs p r w work s.world) (doing : s.activity p = .ofAcquire work) :
    ∃ more, s.follow locksDir board more = some (s.change p (.ofAcquire (.done r)) w) := by
  induction work generalizing s with
  | done a =>
    obtain ⟨rfl, rfl⟩ := runs
    exact ⟨[], by rw [← doing, System.change_self]; rfl⟩
  | step act next ih =>
    obtain ⟨alive, rest⟩ := runs
    obtain ⟨more, reached⟩ := ih s.world (s := s.change p (.ofAcquire (next s.world))
      (act s.world)) rest (by simp [System.change])
    refine ⟨.work p :: more, ?_⟩
    have moved : s.move locksDir board (.work p) =
        some (s.change p (.ofAcquire (next s.world)) (act s.world)) := by
      have begun : s.act locksDir board (.work p) =
          some (s.change p (.ofAcquire (next s.world)) (act s.world)) := by
        rw [System.act, doing]
        rfl
      exact (if_pos alive).trans begun
    rw [System.follow, moved, Option.bind_some, reached, System.change_change]

/-- A process that acquires the lock alone comes to what the call comes to. -/
theorem exists_follow_of_acquire (locksDir board : String) {l : Lock} {stage : Stage}
    (alive : p ∈ s.world.processes) (idle : s.activity p = .idle)
    (runs : Runs p (.ok l) w (Lock.acquire p locksDir board stage) s.world) :
    ∃ more, s.follow locksDir board more = some (s.change p (.holding l) w) := by
  have begun : s.act locksDir board (.acquire p stage) =
      some (s.change p (.ofAcquire (Lock.acquire p locksDir board stage)) s.world) := by
    rw [System.act, idle]
  obtain ⟨more, reached⟩ := exists_follow_of_runs locksDir board
    (s := s.change p (.ofAcquire (Lock.acquire p locksDir board stage)) s.world) runs
    (by simp [System.change])
  refine ⟨.acquire p stage :: more, ?_⟩
  have moved : s.move locksDir board (.acquire p stage) = _ := (if_pos alive).trans begun
  rw [System.follow, moved, Option.bind_some, reached, System.change_change]
  rfl

/-- Two processes that run and hold the lock. -/
theorem not_exclusive_of_change {l : Lock} (other : q ≠ p) (p_runs : p ∈ w.processes)
    (q_runs : q ∈ w.processes) (q_holds : (s.activity q).holds = true) :
    ¬ (s.change p (.holding l) w).Exclusive := by
  intro exclusive
  refine other (exclusive q p q_runs p_runs ?_ ?_)
  · simpa [System.change, other] using q_holds
  · simp [System.change, Activity.holds]

/-- Who has stolen a lock can go on until it holds the lock itself. -/
theorem Ordered.exists_follow_of_steals {number : Nat → Option Nat}
    (h : Ordered (Lock.pathFor locksDir board) s number) (steals : Steals locksDir board p q s s')
    (q_holds : (s.activity q).holds = true) (usable : Usable locksDir board s'.world) :
    ∃ more t, s'.follow locksDir board more = some t ∧ ¬ t.Exclusive := by
  obtain ⟨_, moves, other, q_runs, ⟨holder, names, rfl⟩, gone⟩ := steals
  unfold System.move at moves
  split at moves
  case isFalse => cases moves
  case isTrue p_runs =>
  obtain ⟨⟨a, w⟩, next, rfl⟩ := Option.map_eq_some_iff.mp moves
  obtain ⟨robbery, -, work, rfl, recovers⟩ | ⟨_, careful, -, -⟩ :=
    (h.conducts p p_runs).next h.files next
  case inr =>
    have still := careful.lock holder other q_runs names
    rw [show Lock.named? _ w = none from gone] at still
    cases still
  have p_runs' : p ∈ w.processes := robbery.processes.symm ▸ p_runs
  have q_runs' : holder.pid ∈ w.processes := robbery.processes.symm ▸ q_runs
  have q_holds' : ((s.change p (.ofAcquire work) w).activity holder.pid).holds = true := by
    simpa [System.change, other] using q_holds
  have doing : (s.change p (.ofAcquire work) w).activity p = .ofAcquire work := by
    simp [System.change]
  obtain ⟨l, w', processes, runs⟩ | ⟨e, runs⟩ := recovers p_runs'
  · -- The call of the thief goes on to its end.
    obtain ⟨more, reached⟩ := exists_follow_of_runs locksDir board
      runs doing
    exact ⟨more, _, reached, not_exclusive_of_change other (processes ▸ p_runs')
      (processes ▸ q_runs') q_holds'⟩
  · -- The call of the thief fails, and it calls again.
    obtain ⟨more, reached⟩ := exists_follow_of_runs locksDir board
      runs doing
    obtain ⟨l, w', processes, runs⟩ := runs_acquire .build robbery.vacant usable p_runs'
    obtain ⟨again, reached'⟩ := exists_follow_of_acquire locksDir board
      (s := ((s.change p (.ofAcquire work) w).change p .idle w)) p_runs'
      (by simp [System.change]) runs
    refine ⟨more ++ again, _, ?_, not_exclusive_of_change (s := (s.change p (.ofAcquire work)
      w).change p .idle w) (l := l) other (processes ▸ p_runs') (processes ▸ q_runs')
      (by simpa [System.change, other] using q_holds)⟩
    have idle : (s.change p (.ofAcquire work) w).follow locksDir board more =
        some ((s.change p (.ofAcquire work) w).change p .idle w) := reached
    rw [System.follow_append]
    simp only [idle, Option.bind_some]
    exact reached'

/-- As long as no process that acquires the lock removes the lock file of another one that runs,
one process at most holds it, in whatever order the processes move. Once the lock file of a
process that holds the lock is removed like that, both can come to hold it. -/
theorem exclusive_unless_stolen {moves : List Move} (start : Start locksDir board s)
    (run : s.follow locksDir board moves = some t)
    (honest : ∀ before p after, moves = before ++ .work p :: after →
      ∀ u v q, s.follow locksDir board before = some u → ¬ Steals locksDir board p q u v) :
    t.Exclusive ∧ ∀ p q u, Steals locksDir board p q t u → (t.activity q).holds = true →
      Usable locksDir board u.world →
        ∃ more v, u.follow locksDir board more = some v ∧ ¬ v.Exclusive := by
  obtain ⟨number, ordered⟩ := start.ordered
  obtain ⟨number', ordered⟩ := ordered.follow run honest
  exact ⟨ordered.exclusive, fun p q u steals holds usable =>
    ordered.exists_follow_of_steals steals holds usable⟩

/-! ## A lock that its holder has left behind -/

/-- Two processes find the lock file of a third one, which does not run any more. -/
def stale : System where
  world := { (default : World) with
    files := (File.Tree.empty.insert ["locks"] .dir).insert ["locks", "demo.lock"]
      (.file (Holder.bytes ⟨3, Stage.build.id, "old"⟩) false)
    processes := [1, 2] }
  activity _ := .idle

/-- Both find out that the holder does not run, and then one of them gets the lock. -/
def contest : List Move :=
  [.acquire 1 .build, .acquire 2 .build] ++ List.replicate 7 (.work 1) ++
    List.replicate 7 (.work 2) ++ List.replicate 4 (.work 1)

theorem stale_start : Start "locks" "demo" stale := by
  have empty : File.Tree.empty.Closed := by
    intro l name found
    simp [File.Tree.find?_of_ne, File.Tree.empty, File.Tree.lookup] at found
  have dir : (File.Tree.empty.insert ([] ++ ["locks"]) .dir).Closed :=
    empty.insert rfl fun _ => rfl
  have file : ((File.Tree.empty.insert ["locks"] .dir).insert (["locks"] ++ ["demo.lock"])
      (.file (Holder.bytes ⟨3, Stage.build.id, "old"⟩) false)).Closed := by
    refine dir.insert rfl fun same => ?_
    cases same
  exact ⟨file, by decide, fun p _ => .inl rfl⟩

/-- Whenever a process makes a step, the lock file is its own or that of a process that does not
run. -/
theorem contest_honest : ∀ i < 20,
    (stale.follow "locks" "demo" (contest.take i)).all (fun u =>
      (Lock.named? (Lock.pathFor "locks" "demo") u.world).all fun h =>
        decide (contest[i]? = some (.work h.pid)) || decide (h.pid ∉ u.world.processes)) =
      true := by
  decide +kernel

/-- A process that has found out that the holder of a lock does not run robs the next holder. -/
theorem exclusive_until_contest_ends :
    ∃ t u, stale.follow "locks" "demo" contest = some t ∧ t.Exclusive ∧
      Steals "locks" "demo" 2 1 t u ∧
      ∃ more v, u.follow "locks" "demo" more = some v ∧ ¬ v.Exclusive := by
  have ending : (stale.follow "locks" "demo" contest).any (fun t =>
      (match t.activity 2 with | .acquiring _ => true | _ => false) &&
      ((t.activity 1).holds && (decide (1 ∈ t.world.processes) &&
      ((Lock.named? (Lock.pathFor "locks" "demo") t.world).any (fun h => decide (h.pid = 1)) &&
      (t.move "locks" "demo" (.work 2)).any fun u =>
        (Lock.named? (Lock.pathFor "locks" "demo") u.world).isNone && (u.world.isDir "locks" &&
        (u.world.create (Lock.privatePath (Lock.pathFor "locks" "demo")
          (World.tokenText u.world.serial)) []).toOption.isSome))))) = true := by
    decide +kernel
  obtain ⟨t, reached, ending⟩ := (Option.any_eq_true _ _).mp ending
  simp only [Bool.and_eq_true, Option.any_eq_true, decide_eq_true_eq] at ending
  obtain ⟨acquiring, holds, runs, named, u, moves, gone, dir, created⟩ := ending
  have honest : ∀ before p after, contest = before ++ .work p :: after → ∀ u v q,
      stale.follow "locks" "demo" before = some u → ¬ Steals "locks" "demo" p q u v := by
    rintro before p after parts u v q reached ⟨-, -, other, runs, ⟨h, names, rfl⟩, -⟩
    have short : before.length < 20 := by
      have whole := congrArg List.length parts
      simp only [List.length_append, List.length_cons] at whole
      have twenty : contest.length = 20 := rfl
      omega
    have front : contest.take before.length = before := by rw [parts, List.take_left]
    have next : contest[before.length]? = some (.work p) := by rw [parts]; simp
    have checked := contest_honest before.length short
    rw [front, reached, Option.all_some, names, Option.all_some, next] at checked
    simp [Ne.symm other, runs] at checked
  have steals : Steals "locks" "demo" 2 1 t u := by
    refine ⟨?_, moves, by decide, runs, named, Option.isNone_iff_eq_none.mp gone⟩
    cases doing : t.activity 2 with
    | acquiring rest => exact ⟨rest, rfl⟩
    | idle | holding | changing | releasing => simp [doing] at acquiring
  have usable : Usable "locks" "demo" u.world := by
    refine ⟨dir, ?_⟩
    cases made : u.world.create (Lock.privatePath (Lock.pathFor "locks" "demo")
        (World.tokenText u.world.serial)) [] with
    | ok w => exact ⟨w, rfl⟩
    | error e => simp [made, Except.toOption] at created
  obtain ⟨exclusive, follows⟩ := exclusive_unless_stolen stale_start reached honest
  exact ⟨t, u, reached, exclusive, steals, follows 2 1 u steals holds usable⟩

/-- Two processes come to hold a lock that its holder has left behind. -/
theorem two_hold_a_stale_lock :
    Start "locks" "demo" stale ∧ ∃ t,
      stale.follow "locks" "demo" (contest ++ List.replicate 4 (.work 2)) = some t ∧
        ¬ t.Exclusive := by
  have ending : (stale.follow "locks" "demo" (contest ++ List.replicate 4 (.work 2))).any (fun t =>
      decide (1 ∈ t.world.processes) && (decide (2 ∈ t.world.processes) &&
      ((t.activity 1).holds && (t.activity 2).holds))) = true := by
    decide +kernel
  obtain ⟨t, reached, ending⟩ := (Option.any_eq_true _ _).mp ending
  simp only [Bool.and_eq_true, decide_eq_true_eq] at ending
  obtain ⟨first, second, holds, holds'⟩ := ending
  refine ⟨stale_start, t, reached, fun exclusive => ?_⟩
  exact absurd (exclusive 1 2 first second holds holds') (by decide)

end BoardDesign.Workspace
