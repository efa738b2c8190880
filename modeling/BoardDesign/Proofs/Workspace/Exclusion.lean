import BoardDesign.Proofs.Workspace.Calls

/-!
# At most one running process has the lock

* `Ordered`: what holds of every process that runs, whoever moves next;
* `Ordered.move`: a move that robs nobody keeps that;
* `Start.ordered`: it holds where runs begin;
* `Ordered.exclusive`: then one process at most holds the lock.
-/

namespace BoardDesign.Workspace

open Stage (Error)

variable {path : String} {p : Nat} {n n' : Option Nat} {w w' : World} {s s' : System}

/-- What is left of a call is sound, and who holds the lock has it. -/
def Conducts (path : String) (p : Nat) (n : Option Nat) (w : World) : Activity → Prop
  | .idle => True
  | .acquiring rest =>
    Sound path p (fun _ _ => True) (Recovers p) (fun r n w => ∀ l, r = .ok l → Has path p l n w)
      rest n w
  | .holding l => Has path p l n w
  | .changing l rest => Has path p l n w ∧ Sound path p (Has path p l) (fun _ _ => True)
      (fun r n w => (r = .ok l ∨ ∃ e, r = .error e) ∧ Has path p l n w) rest n w
  | .releasing l rest => Has path p l n w ∧
      Sound path p (Has path p l) (fun _ _ => True) (fun _ _ _ => True) rest n w

theorem Sound.now {α : Type} {during : Option Nat → World → Prop}
    {robbed : Work α → World → Prop} {post : α → Option Nat → World → Prop}
    {act : World → World} {next : World → Work α}
    (h : Sound path p during robbed post (.step act next) n w) (closed : w.files.Closed) :
    during n w :=
  (h w (.refl w) closed).1

theorem conducts_ofAcquire {t : Work (Except Error Lock)}
    (h : Sound path p (fun _ _ => True) (Recovers p)
      (fun r n w => ∀ l, r = .ok l → Has path p l n w) t n w) :
    Conducts path p n w (.ofAcquire t) := by
  cases t with
  | done r =>
    cases r with
    | ok l => exact h l rfl
    | error e => trivial
  | step act next => exact h

theorem conducts_ofChange {l : Lock} {t : Work (Except Error Lock)} (closed : w.files.Closed)
    (h : Sound path p (Has path p l) (fun _ _ => True)
      (fun r n w => (r = .ok l ∨ ∃ e, r = .error e) ∧ Has path p l n w) t n w) :
    Conducts path p n w (.ofChange l t) := by
  cases t with
  | done r =>
    obtain ⟨rfl | ⟨e, rfl⟩, has⟩ := h
    · exact has
    · exact has
  | step act next => exact ⟨h.now closed, h⟩

theorem conducts_ofRelease {l : Lock} {t : Work Unit} (closed : w.files.Closed)
    (h : Sound path p (Has path p l) (fun _ _ => True) (fun _ _ _ => True) t n w) :
    Conducts path p n w (.ofRelease l t) := by
  cases t with
  | done r => trivial
  | step act next => exact ⟨h.now closed, h⟩

theorem Conducts.spares {a : Activity} (h : Conducts path p n w a)
    (spared : Spares path p n w w') : Conducts path p n w' a := by
  cases a with
  | idle => trivial
  | acquiring rest =>
    exact Sound.spares h spared fun r has l same => (has l same).spares spared
  | holding l => exact Has.spares h spared
  | changing l rest =>
    exact ⟨h.1.spares spared, h.2.spares spared fun r done => ⟨done.1, done.2.spares spared⟩⟩
  | releasing l rest => exact ⟨h.1.spares spared, h.2.spares spared fun _ _ => trivial⟩

theorem Conducts.owns {a : Activity} (h : Conducts path p n w a) (holds : a.holds = true) :
    ∃ token, Owns path p token w := by
  cases a with
  | idle => cases holds
  | acquiring rest => cases holds
  | holding l => exact ⟨_, Has.owns h⟩
  | changing l rest => exact ⟨_, h.1.owns⟩
  | releasing l rest => exact ⟨_, h.1.owns⟩

/-- The next step of a call that goes on. -/
theorem Conducts.next {a a' : Activity} (h : Conducts path p n w a) (closed : w.files.Closed)
    (next : a.next? w = some (a', w')) :
    (Robbery path p w w' ∧ (∃ rest, a = .acquiring rest) ∧
        ∃ t, a' = .ofAcquire t ∧ Recovers p t w') ∨
      ∃ n', Careful path p n w w' ∧ Numbered n n' w w' ∧ Conducts path p n' w' a' := by
  cases a with
  | idle => cases next
  | holding l => cases next
  | acquiring rest =>
    cases rest with
    | done r => cases next
    | step act more =>
      cases next
      obtain ⟨-, ⟨robbery, recovers⟩ | ⟨n', careful, numbered, sound⟩⟩ := h w (.refl w) closed
      · exact .inl ⟨robbery, ⟨_, rfl⟩, _, rfl, recovers⟩
      · exact .inr ⟨n', careful, numbered, conducts_ofAcquire sound⟩
  | changing l rest =>
    cases rest with
    | done r => cases next
    | step act more =>
      cases next
      obtain ⟨has, ⟨robbery, -⟩ | ⟨n', careful, numbered, sound⟩⟩ := h.2 w (.refl w) closed
      · -- Its own lock file is there, so it is nobody else's.
        obtain ⟨_, other, runs, ⟨holder, names, rfl⟩, _⟩ := robbery.robs
        exact absurd names (has.owns.vacant holder other runs)
      · exact .inr ⟨n', careful, numbered, conducts_ofChange careful.closed sound⟩
  | releasing l rest =>
    cases rest with
    | done r => cases next
    | step act more =>
      cases next
      obtain ⟨has, ⟨robbery, -⟩ | ⟨n', careful, numbered, sound⟩⟩ := h.2 w (.refl w) closed
      · obtain ⟨_, other, runs, ⟨holder, names, rfl⟩, _⟩ := robbery.robs
        exact absurd names (has.owns.vacant holder other runs)
      · exact .inr ⟨n', careful, numbered, conducts_ofRelease careful.closed sound⟩

/-- What holds of all processes that run, whoever moves next. `number` tells which token is whose;
no two processes have the same. -/
structure Ordered (path : String) (s : System) (number : Nat → Option Nat) : Prop where
  files : s.world.files.Closed
  pids : ∀ p ∈ s.world.processes, p < Nat.pow 2 32
  given : ∀ p ∈ s.world.processes, ∀ k, number p = some k → k < s.world.serial
  apart : ∀ p ∈ s.world.processes, ∀ q ∈ s.world.processes, p ≠ q →
    ∀ k, number p = some k → number q ≠ some k
  conducts : ∀ p ∈ s.world.processes, Conducts path p (number p) s.world (s.activity p)

namespace Ordered

variable {number : Nat → Option Nat}

theorem exclusive (h : Ordered path s number) : s.Exclusive := by
  intro p q p_runs q_runs p_holds q_holds
  obtain ⟨_, first, names, rfl, _⟩ := (h.conducts p p_runs).owns p_holds
  obtain ⟨_, second, names', rfl, _⟩ := (h.conducts q q_runs).owns q_holds
  rw [names] at names'
  rw [Option.some.inj names']

/-- A process that is careful does something else now. -/
theorem change {a : Activity} (h : Ordered path s number) (runs : p ∈ s.world.processes)
    (careful : Careful path p (number p) s.world w) (numbered : Numbered (number p) n s.world w)
    (conducts : Conducts path p n w a) :
    Ordered path (s.change p a w) fun q => if q = p then n else number q := by
  have older : ∀ q ∈ s.world.processes, q ≠ p → ∀ k, number q = some k → n ≠ some k := by
    intro q q_runs other k mine same
    rcases numbered with rfl | ⟨rfl, _⟩
    · exact h.apart q q_runs p runs other k mine same
    · cases same
      exact Nat.lt_irrefl _ (h.given q q_runs _ mine)
  refine ⟨careful.closed, fun q q_runs => ?_, fun q q_runs k mine => ?_,
    fun q q_runs r r_runs other k mine => ?_, fun q q_runs => ?_⟩
  all_goals simp only [System.change, careful.processes] at q_runs ⊢
  · exact h.pids q q_runs
  · by_cases this : q = p
    · rw [if_pos this] at mine
      rcases numbered with rfl | ⟨rfl, new⟩
      · exact Nat.lt_of_lt_of_le (h.given p runs k mine) careful.serial
      · cases mine
        exact new
    · rw [if_neg this] at mine
      exact Nat.lt_of_lt_of_le (h.given q q_runs k mine) careful.serial
  · simp only [System.change, careful.processes] at r_runs
    by_cases this : q = p
    · rw [if_pos this] at mine
      rw [if_neg fun that => other (this.trans that.symm)]
      intro same
      exact older r r_runs (fun that => other (this.trans that.symm)) k same mine
    · rw [if_neg this] at mine
      by_cases that : r = p
      · rw [if_pos that]
        exact older q q_runs this k mine
      · rw [if_neg that]
        exact h.apart q q_runs r r_runs other k mine
  · by_cases this : q = p
    · rw [if_pos this, if_pos this, this]
      exact conducts
    · rw [if_neg this, if_neg this]
      exact (h.conducts q q_runs).spares
        (careful.spares this q_runs (h.apart q q_runs p runs this))

/-- A call begins. -/
theorem begin {a : Activity} {name : String} (named : Lock.Named path name)
    (h : Ordered path s number) (runs : p ∈ s.world.processes)
    (conducts : Conducts path p (number p) s.world a) :
    ∃ number', Ordered path (s.change p a s.world) number' :=
  ⟨_, h.change runs (careful_self named h.files) (.inl rfl)
    conducts⟩

/-- A process dies. -/
theorem die (h : Ordered path s number) {name : String} (named : Lock.Named path name) (p : Nat) :
    Ordered path { s with world := { s.world with
      processes := s.world.processes.filter fun q => q ≠ p } } number := by
  have runs : ∀ q, q ∈ s.world.processes.filter (fun q => q ≠ p) → q ∈ s.world.processes :=
    fun q mem => (List.mem_filter.mp mem).1
  have keeps : s.world.Keeps { s.world with
      processes := s.world.processes.filter fun q => q ≠ p } := ⟨rfl, fun _ dir => dir⟩
  refine ⟨h.files, fun q mem => h.pids q (runs q mem), fun q mem => h.given q (runs q mem),
    fun q q_mem r r_mem => h.apart q (runs q q_mem) r (runs r r_mem), fun q mem => ?_⟩
  exact (h.conducts q (runs q mem)).spares
    ⟨keeps, fun _ _ _ found => found, fun _ _ names => Lock.named?_keeps named keeps rfl names⟩

/-- A move that robs nobody leaves things in order. -/
theorem move {locksDir board : String} {m : Move}
    (h : Ordered (Lock.pathFor locksDir board) s number)
    (moved : s.move locksDir board m = some s')
    (honest : ∀ p, m = .work p → ∀ q, ¬ Steals locksDir board p q s s') :
    ∃ number', Ordered (Lock.pathFor locksDir board) s' number' := by
  obtain ⟨name, named⟩ := Lock.exists_named locksDir board
  have whole := moved
  unfold System.move at moved
  split at moved
  case isFalse => cases moved
  case isTrue runs =>
    cases m with
    | acquire p stage =>
      simp only [System.act] at moved
      split at moved
      · cases moved
        exact h.begin named runs (conducts_ofAcquire (sound_acquire locksDir board stage
          (h.pids p runs)))
      · cases moved
    | setStage p stage =>
      simp only [System.act] at moved
      split at moved
      · rename_i l holding
        cases moved
        have has := h.conducts p runs
        rw [holding] at has
        exact h.begin named runs (conducts_ofChange h.files
          (sound_setStage named (h.pids p runs) stage has))
      · cases moved
    | release p =>
      simp only [System.act] at moved
      split at moved
      · rename_i l holding
        cases moved
        have has := h.conducts p runs
        rw [holding] at has
        exact h.begin named runs (conducts_ofRelease h.files (sound_release named has))
      · cases moved
    | work p =>
      obtain ⟨⟨a, w⟩, next, rfl⟩ := Option.map_eq_some_iff.mp moved
      obtain ⟨⟨⟨q, robs⟩, _, _⟩, acquiring, _⟩ | ⟨n', careful, numbered, conducts⟩ :=
        (h.conducts p runs).next h.files next
      · exact absurd ⟨acquiring, whole, robs⟩ (honest p rfl q)
      · exact ⟨_, h.change runs careful numbered conducts⟩
    | die p =>
      cases moved
      exact ⟨number, h.die named p⟩

theorem follow {locksDir board : String} {moves : List Move}
    (h : Ordered (Lock.pathFor locksDir board) s number)
    (run : s.follow locksDir board moves = some s')
    (honest : ∀ before p after, moves = before ++ .work p :: after →
      ∀ u v q, s.follow locksDir board before = some u → ¬ Steals locksDir board p q u v) :
    ∃ number', Ordered (Lock.pathFor locksDir board) s' number' := by
  induction moves generalizing s number with
  | nil =>
    cases run
    exact ⟨number, h⟩
  | cons m rest ih =>
    obtain ⟨t, moved, run⟩ := Option.bind_eq_some_iff.mp run
    obtain ⟨number', h⟩ := h.move moved fun p same q =>
      honest [] p rest (by rw [same, List.nil_append]) s t q rfl
    refine ih h run fun before p after same u v q reached => ?_
    refine honest (m :: before) p after (by rw [same, List.cons_append]) u v q ?_
    rw [System.follow, moved]
    exact reached

end Ordered

/-- Where runs begin everything is in order. -/
theorem Start.ordered {locksDir board : String} (start : Start locksDir board s) :
    ∃ number, Ordered (Lock.pathFor locksDir board) s number := by
  by_cases someone : ∃ p ∈ s.world.processes, ∃ l, s.activity p = .holding l
  · obtain ⟨p, runs, l, holding⟩ := someone
    obtain idle | ⟨l', n, holding', place, pid, token, given, names⟩ := start.quiet p runs
    · rw [holding] at idle
      cases idle
    rw [holding] at holding'
    cases holding'
    refine ⟨fun q => if q = p then some n else none, start.files, start.numbers,
      fun q _ k mine => ?_, fun q _ r _ other k mine theirs => ?_, fun q q_runs => ?_⟩
    · split at mine
      · cases mine
        exact given
      · cases mine
    · by_cases this : q = p
      · rw [if_neg fun that => other (this.trans that.symm)] at theirs
        cases theirs
      · rw [if_neg this] at mine
        cases mine
    · by_cases this : q = p
      · rw [if_pos this, this, holding]
        exact ⟨place, pid, ⟨n, rfl, token⟩, ⟨_, place ▸ names, pid, rfl⟩⟩
      · obtain idle | ⟨l', m, holding', place', pid', -, -, names'⟩ := start.quiet q q_runs
        · rw [idle]
          trivial
        · -- The lock file names one process only.
          rw [place', ← place, names] at names'
          rw [← pid', ← Option.some.inj names', pid] at this
          exact absurd rfl this
  · refine ⟨fun _ => none, start.files, start.numbers, fun _ _ _ mine => ?_,
      fun _ _ _ _ _ _ mine => ?_, fun p runs => ?_⟩
    · cases mine
    · cases mine
    obtain idle | ⟨l, _, holding, _⟩ := start.quiet p runs
    · rw [idle]
      trivial
    · exact absurd ⟨p, runs, l, holding⟩ someone

end BoardDesign.Workspace
