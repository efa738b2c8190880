import BoardDesign.Proofs.Workspace.Alone

/-!
# The calls on a lock are sound

* `sound_acquireWithin`, `sound_acquire`: who acquires the lock has it, and who robs somebody on
  the way can go on;
* `sound_setStage`, `sound_release`: the holder's calls rob nobody.
-/

namespace BoardDesign.Workspace

open File
open Stage (Error)

variable {path name : String} {p k : Nat} {n : Option Nat} {w w' : World}

section Named

variable (named : Lock.Named path name)
include named

theorem sound_acquireWithin {board : String} {h : Holder} (pid : h.pid = p)
    (small : p < Nat.pow 2 32) (token : h.token = World.tokenText k)
    {robbed : Work (Except Error Unit) → World → Prop}
    {post : Except Error Unit → Option Nat → World → Prop}
    (vacated : ∀ attempts w', Vacant path w' → robbed (Lock.acquireWithin path board h attempts) w')
    (won : ∀ w', Lock.named? path w' = some h → post (.ok ()) (some k) w')
    (failed : ∀ e w', post (.error e) (some k) w') (attempts : Nat) :
    Sound path p (fun _ _ => True) robbed post (Lock.acquireWithin path board h attempts) (some k)
      w := by
  induction attempts generalizing w with
  | zero =>
    refine Sound.bindSteps (sound_read named fun w' _ => ⟨trivial, ?_⟩)
    cases Lock.outcome path (w'.textAt path) with
    | error e => exact failed e w'
    | ok other =>
      cases other with
      | none => exact failed _ w'
      | some other => exact failed _ w'
  | succ attempts ih =>
    refine Sound.bindSteps (sound_publish named pid small token won (fun w₁ => ?_) failed)
    refine Sound.bindSteps (sound_read named fun w₂ _ => ⟨trivial, ?_⟩)
    cases Lock.outcome path (w₂.textAt path) with
    | error e => exact failed e w₂
    | ok other =>
      cases other with
      | none => exact ih
      | some other =>
        -- Whether the holder runs is found out before its file is removed, not when it is.
        dsimp only
        rw [Lock.isAlive_eq]
        refine Sound.bindSteps (sound_atomic fun w₃ _ closed => ⟨trivial, ?_, ?_⟩)
        · exact careful_self named closed
        · dsimp only
          split
          · exact failed _ w₃
          · refine Sound.bindSteps (sound_reclaim named (vacated attempts) fun r w₄ => ?_)
            cases r with
            | error e => exact failed e w₄
            | ok _ => exact ih

end Named

/-- The lock file names process `p` with a token. -/
def Owns (path : String) (p : Nat) (token : String) (w : World) : Prop :=
  ∃ h, Lock.named? path w = some h ∧ h.pid = p ∧ h.token = token

theorem Owns.spares {token : String} (h : Owns path p token w) (spared : Spares path p n w w') :
    Owns path p token w' := by
  obtain ⟨holder, names, pid, same⟩ := h
  exact ⟨holder, spared.lock holder pid names, pid, same⟩

theorem Owns.leaves {token : String} (h : Owns path p token w) (leaves : Leaves path w w') :
    Owns path p token w' := by
  obtain ⟨holder, names, pid, same⟩ := h
  exact ⟨holder, leaves.lock holder names, pid, same⟩

/-- What one process owns no other one has its file at. -/
theorem Owns.vacant {token : String} (h : Owns path p token w) (other : Holder)
    (apart : other.pid ≠ p) (_ : other.pid ∈ w.processes) : Lock.named? path w ≠ some other := by
  obtain ⟨holder, names, pid, _⟩ := h
  intro same
  rw [names] at same
  cases same
  exact apart pid

/-- Process `p` has a lock, and the lock file says so. -/
structure Has (path : String) (p : Nat) (l : Lock) (n : Option Nat) (w : World) : Prop where
  place : l.path = path
  pid : l.holder.pid = p
  token : ∃ k, n = some k ∧ l.holder.token = World.tokenText k
  owns : Owns path p l.holder.token w

theorem Has.spares {l : Lock} (h : Has path p l n w) (spared : Spares path p n w w') :
    Has path p l n w' :=
  ⟨h.place, h.pid, h.token, h.owns.spares spared⟩

theorem Has.leaves {l : Lock} (h : Has path p l n w) (leaves : Leaves path w w') :
    Has path p l n w' :=
  ⟨h.place, h.pid, h.token, h.owns.leaves leaves⟩

theorem sound_acquire (locksDir board : String) (stage : Stage) (small : p < Nat.pow 2 32) :
    Sound (Lock.pathFor locksDir board) p (fun _ _ => True) (Recovers p)
      (fun r n w => ∀ l, r = .ok l → Has (Lock.pathFor locksDir board) p l n w)
      (Lock.acquire p locksDir board stage) n w := by
  obtain ⟨name, named⟩ := Lock.exists_named locksDir board
  rw [Lock.acquire, Lock.steps_atomic_eq]
  refine Sound.bindSteps (sound_atomic fun w₁ _ closed => ⟨trivial, ?_, ?_⟩)
  · exact careful_of_touches named ((World.makeDirs_adds w₁ locksDir).touches closed) (by simp)
  · cases (Action.makeDirs locksDir w₁).1 with
    | error fault => simp [Except.mapError]
    | ok _ =>
      refine Sound.bindSteps fun w₂ _ closed => ⟨trivial, .inr ⟨some w₂.serial, ?_, ?_, ?_⟩⟩
      · have touches : w₂.Touches w₂.fresh.2 [] :=
          ⟨⟨rfl, fun _ dir => dir⟩, closed, rfl, Nat.le_succ _, fun _ _ _ found => found⟩
        exact careful_of_touches named touches (by simp)
      · exact .inr ⟨rfl, Nat.lt_succ_self _⟩
      · refine Sound.bindSteps (sound_acquireWithin
          (h := ⟨p, stage.id, World.tokenText w₂.serial⟩) named rfl small rfl
          (fun attempts w₃ vacant alive => ?_) (fun w₃ names => ?_) (fun e w₃ => ?_) Lock.attempts)
        · obtain ⟨w₄, processes, runs⟩ | ⟨e, runs⟩ := recovers_acquireWithin named board
            (h := ⟨p, stage.id, World.tokenText w₂.serial⟩) rfl vacant alive attempts
          · exact .inl ⟨_, w₄, processes, runs.bindSteps ⟨rfl, rfl⟩⟩
          · exact .inr ⟨e, runs.bindFailed⟩
        · rintro l same
          cases same
          exact ⟨rfl, rfl, ⟨w₂.serial, rfl, rfl⟩, ⟨_, names, rfl, rfl⟩⟩
        · rintro l same
          cases same

/-- A lock whose holder does something else now. -/
def Lock.turnedTo (l : Lock) (stage : Stage) : Lock :=
  { l with holder := { l.holder with stage := stage.id } }

theorem Has.turnedTo {l : Lock} (h : Has path p l n w) (stage : Stage) :
    Has path p (l.turnedTo stage) n w :=
  ⟨h.place, h.pid, h.token, h.owns⟩

theorem sound_setStage {l : Lock} {robbed : Work (Except Error Lock) → World → Prop}
    (named : Lock.Named path name) (small : p < Nat.pow 2 32)
    (stage : Stage) (has : Has path p l n w) :
    Sound path p (Has path p (l.turnedTo stage)) robbed
      (fun r n w => (r = .ok (l.turnedTo stage) ∨ ∃ e, r = .error e) ∧
        Has path p (l.turnedTo stage) n w)
      (l.setStage stage) n w := by
  obtain ⟨k, rfl, token⟩ := has.token
  have staging : Lock.privatePath l.path l.holder.token =
      Lock.privatePath path (World.tokenText k) := by rw [has.place, token]
  rw [Lock.setStage]
  dsimp only
  rw [staging, has.place]
  refine Sound.bindSteps (sound_writePrivate named
    (fun w₁ spared => (has.spares spared).turnedTo stage) ?_ ?_)
  · intro w₁ w₂ spared leaves written
    have has := (has.spares spared).leaves leaves
    rw [Lock.steps_atomic_eq]
    refine Sound.bindSteps (sound_atomic fun w₃ spared closed =>
      ⟨(has.spares spared).turnedTo stage, ?_⟩)
    have has := has.spares spared
    rw [Action.rename, Action.changing]
    cases renamed : w₃.rename (Lock.privatePath path (World.tokenText k)) path with
    | error fault =>
      refine ⟨careful_self named closed, ?_⟩
      exact ⟨.inr ⟨_, rfl⟩, has.turnedTo stage⟩
    | ok w₄ =>
      obtain ⟨careful, names⟩ := named?_of_rename
        (h := ⟨l.holder.pid, stage.id, l.holder.token⟩) named (has.pid ▸ small)
        (written.spares spared) renamed closed has.owns.vacant
      exact ⟨careful, .inl (by rw [← has.place]; rfl),
        ⟨has.place, has.pid, has.token, ⟨_, names, has.pid, rfl⟩⟩⟩
  · intro w₁ e spared
    exact ⟨.inr ⟨e, rfl⟩, (has.spares spared).turnedTo stage⟩

theorem sound_release {l : Lock} {robbed : Work Unit → World → Prop}
    (named : Lock.Named path name) (has : Has path p l n w) :
    Sound path p (Has path p l) robbed (fun _ _ _ => True) l.release n w := by
  rw [Lock.release, has.place]
  refine Sound.bind (sound_read named fun w₁ spared => ⟨has.spares spared, ?_⟩)
  have has := has.spares spared
  have done : Sound path p (Has path p l) robbed (fun _ _ _ => True) (pure () : Work Unit) n w₁ :=
    trivial
  cases Lock.outcome path (w₁.textAt path) with
  | error e => exact done
  | ok other =>
    cases other with
    | none => exact done
    | some h =>
      dsimp only
      split
      · refine Sound.bind (sound_atomic fun w₂ spared closed => ⟨has.spares spared, ?_⟩)
        refine ⟨?_, trivial⟩
        rw [Action.removeFile, Action.changing]
        cases removed : w₂.removeFile path with
        | error fault => exact careful_self named closed
        | ok w₃ => exact careful_of_removeFile named removed closed (has.spares spared).owns.vacant
      · exact done

end BoardDesign.Workspace
