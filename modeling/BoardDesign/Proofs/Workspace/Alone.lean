import BoardDesign.Proofs.Workspace.Steps

/-!
# A process that goes on alone

* `Runs`: what the work of a process comes to when nobody else moves;
* `runs_publish`, `runs_acquire`: a lock that nobody has is had by who goes on alone;
* `recovers_acquireWithin`: so is one that was taken from its holder, or nothing happens.
-/

namespace BoardDesign.Workspace

open File
open Stage (Error)

variable {α β ε : Type} {path name : String} {p k : Nat} {w w' w₁ w₂ : World}

/-- Work that process `p` does alone, while it runs, comes to a result in a world. -/
def Runs (p : Nat) (result : α) (last : World) : Work α → World → Prop
  | .done a, w => a = result ∧ w = last
  | .step act next, w => p ∈ w.processes ∧ Runs p result last (next w) (act w)

theorem Runs.bind {f : α → Work β} {a : α} {b : β} {w₁ w₂ : World} {t : Work α}
    (first : Runs p a w₁ t w) (second : Runs p b w₂ (f a) w₁) : Runs p b w₂ (t.bind f) w := by
  induction t generalizing w with
  | done a =>
    obtain ⟨rfl, rfl⟩ := first
    exact second
  | step act next ih => exact ⟨first.1, ih w first.2⟩

/-- Work that may fail after work that does not. -/
theorem Runs.bindSteps {f : α → Steps ε β} {a : α} {b : Except ε β} {t : Steps ε α}
    (first : Runs p (.ok a) w₁ t w) (second : Runs p b w₂ (f a) w₁) :
    Runs p b w₂ (t >>= f : Steps ε β) w :=
  Runs.bind first second

theorem Runs.bindFailed {f : α → Steps ε β} {e : ε} {t : Steps ε α}
    (first : Runs p (.error e) w₁ t w) : Runs p (.error e) w₁ (t >>= f : Steps ε β) w :=
  Runs.bind first ⟨rfl, rfl⟩

theorem runs_attempt {δ : Type} {a : Action δ α} {b : Except ε β} {f : Except δ α → Steps ε β}
    (alive : p ∈ w.processes) (rest : Runs p b w₂ (f (a w).1) (a w).2) :
    Runs p b w₂ (liftM (Work.attempt a) >>= f : Steps ε β) w :=
  ⟨alive, rest⟩

theorem runs_action {δ : Type} {account : δ → ε} {a : Action δ α} {r : Except δ α}
    (alive : p ∈ w.processes) (outcome : a w = (r, w₁)) :
    Runs p (r.mapError account) w₁ (Steps.atomic account a : Steps ε α) w := by
  rw [Lock.steps_atomic_eq]
  refine ⟨alive, ?_, congrArg Prod.snd outcome⟩
  dsimp only
  rw [outcome]

theorem runs_writePrivate {h : Holder} (alive : p ∈ w.processes)
    (created : w.create path h.bytes = .ok w₁) :
    Runs p (.ok ()) w₁ (Lock.writePrivate path h) w := by
  refine runs_action (r := .ok ()) alive ?_
  rw [Action.create, Action.changing, created]

theorem runs_writePrivate_failed {h : Holder} {fault : Fault} (alive : p ∈ w.processes)
    (failed : w.create path h.bytes = .error fault) :
    Runs p (.error (.file path fault)) w (Lock.writePrivate path h) w := by
  refine runs_action (r := .error fault) alive ?_
  rw [Action.create, Action.changing, failed]

theorem runs_remove (alive : p ∈ w.processes) (removed : w.removeFile path = .ok w₁) :
    Runs p (.ok ()) w₁ (Lock.remove path) w := by
  have outcome : Lock.removed path w = (.ok (), w₁) := by rw [Lock.removed, removed]
  rw [Lock.remove_eq]
  exact ⟨alive, congrArg Prod.fst outcome, congrArg Prod.snd outcome⟩

section Named

variable (named : Lock.Named path name)
include named

theorem runs_read (vacant : Vacant path w) (alive : p ∈ w.processes) :
    Runs p (.ok none) w (Lock.read path) w := by
  obtain ⟨l, other, leads, free⟩ := vacant
  have text : w.textAt path = .error .notFound := by
    rw [World.textAt, leads.bytesAt_of_free named.endsWithSlash free]
    rfl
  rw [Lock.read_eq]
  refine ⟨alive, ?_, rfl⟩
  dsimp only
  rw [text, Lock.outcome]

/-- Who can write its private file gets a lock that nobody has. -/
theorem runs_publish {h : Holder} (token : h.token = World.tokenText k)
    (vacant : Vacant path w) (alive : p ∈ w.processes)
    (created : w.create (Lock.privatePath path (World.tokenText k)) h.bytes = .ok w₁) :
    ∃ w', w'.processes = w.processes ∧ Runs p (.ok true) w' (Lock.publish path h) w := by
  obtain ⟨l, other, private', _, made⟩ := World.create_eq_ok created
  obtain ⟨m, last, leads, free⟩ := vacant
  have apart : m ++ [last] ≠ l ++ [other] := by
    rw [← private'.placeOf, ← leads.placeOf]
    exact Ne.symm (Lock.privatePlace_ne_place named k)
  have slash := named.endsWithSlash_privatePath (World.not_mem_tokenText (n := k) (.inl rfl))
  have keeps : w.Keeps w₁ := by
    rw [made]
    exact World.keeps_insert (by simp [*])
  have file : w₁.files.find? (l ++ [other]) = some (.file h.bytes false) := by
    rw [made, Tree.find?_insert (by simp), if_pos rfl]
  have free' : w₁.files.find? (m ++ [last]) = none := by
    rw [made, Tree.find?_insert (by simp), if_neg apart, free]
  -- The private file is linked to the place of the lock.
  have linked := (keeps.leads leads).link ((keeps.leads private').nodeAt slash file) free'
  generalize linkedTo : ({ w₁ with files := w₁.files.insert (m ++ [last]) (.file h.bytes false) } :
    World) = w₂ at linked
  have keeps' : w₁.Keeps w₂ := by
    rw [← linkedTo]
    exact World.keeps_insert (by simp [free'])
  have file' : w₂.files.find? (l ++ [other]) = some (.file h.bytes false) := by
    rw [← linkedTo, Tree.find?_insert (by simp), if_neg (Ne.symm apart), file]
  have removed := ((keeps.trans keeps').leads private').removeFile slash (by simp [file'])
    (by simp [file'])
  have processes : w₁.processes = w.processes := by rw [made]
  have processes' : w₂.processes = w.processes := by rw [← linkedTo, ← processes]
  refine ⟨{ w₂ with files := w₂.files.erase (l ++ [other]) }, processes', ?_⟩
  rw [Lock.publish, token]
  refine (runs_writePrivate alive created).bindSteps (runs_attempt (processes ▸ alive) ?_)
  rw [Action.link, Action.changing, linked]
  exact (runs_remove (processes' ▸ alive) removed).bindSteps ⟨rfl, rfl⟩

/-- Further tries for a lock that nobody has get it or change nothing. -/
theorem recovers_acquireWithin (board : String) {h : Holder} (token : h.token = World.tokenText k)
    (vacant : Vacant path w) (alive : p ∈ w.processes) (attempts : Nat) :
    (∃ w', w'.processes = w.processes ∧
      Runs p (.ok ()) w' (Lock.acquireWithin path board h attempts) w) ∨
      ∃ e, Runs p (.error e) w (Lock.acquireWithin path board h attempts) w := by
  cases attempts with
  | zero => exact .inr ⟨_, (runs_read named vacant alive).bindSteps ⟨rfl, rfl⟩⟩
  | succ attempts =>
    cases created : w.create (Lock.privatePath path (World.tokenText k)) h.bytes with
    | error fault =>
      rw [Lock.acquireWithin, Lock.publish, token]
      exact .inr ⟨_, (runs_writePrivate_failed alive created).bindFailed.bindFailed⟩
    | ok w₁ =>
      obtain ⟨w', processes, runs⟩ := runs_publish named token vacant alive created
      exact .inl ⟨w', processes, runs.bindSteps ⟨rfl, rfl⟩⟩

end Named

/-- Work after which process `p` has a lock, or which fails and changes nothing, if it goes on
alone. -/
def Recovers (p : Nat) (t : Work (Except Error Lock)) (w : World) : Prop :=
  p ∈ w.processes → (∃ l w', w'.processes = w.processes ∧ Runs p (.ok l) w' t w) ∨
    ∃ e, Runs p (.error e) w t w

/-- A process that goes on alone gets a lock that nobody has. -/
theorem runs_acquire {locksDir board : String} (stage : Stage)
    (vacant : Vacant (Lock.pathFor locksDir board) w)
    (usable : Usable locksDir board w) (alive : p ∈ w.processes) :
    ∃ l w', w'.processes = w.processes ∧
      Runs p (.ok l) w' (Lock.acquire p locksDir board stage) w := by
  obtain ⟨name, named⟩ := Lock.exists_named locksDir board
  obtain ⟨dir, _, made⟩ := usable
  obtain ⟨l, other, leads, free, -⟩ := World.create_eq_ok made
  obtain ⟨m, last, leads', free'⟩ := vacant
  have keeps : w.Keeps w.fresh.2 := ⟨rfl, fun _ dir => dir⟩
  have slash := named.endsWithSlash_privatePath (World.not_mem_tokenText (n := w.serial) (.inl rfl))
  have created := (keeps.leads leads).create slash (w := w.fresh.2) free
    (Holder.bytes ⟨p, stage.id, World.tokenText w.serial⟩)
  obtain ⟨w', processes, runs⟩ := runs_publish named (p := p) (w := w.fresh.2) (k := w.serial)
    rfl ⟨m, last, keeps.leads leads', free'⟩ alive created
  refine ⟨⟨Lock.pathFor locksDir board, board, ⟨p, stage.id, World.tokenText w.serial⟩⟩, w',
    processes, ?_⟩
  have made : Runs p (.ok ()) w
      (Steps.atomic (Error.file locksDir) (Action.makeDirs locksDir) : Steps Error Unit) w :=
    runs_action (r := .ok ()) alive (World.makeDirs_of_isDir dir)
  have token : Runs p (.ok (World.tokenText w.serial)) w.fresh.2 Lock.freshToken w :=
    ⟨alive, rfl, rfl⟩
  have within : Runs p (.ok ()) w' (Lock.acquireWithin (Lock.pathFor locksDir board) board
      ⟨p, stage.id, World.tokenText w.serial⟩ Lock.attempts) w.fresh.2 :=
    Runs.bindSteps (t := Lock.publish _ _) runs ⟨rfl, rfl⟩
  rw [Lock.acquire]
  exact made.bindSteps (token.bindSteps (within.bindSteps ⟨rfl, rfl⟩))

end BoardDesign.Workspace
