import BoardDesign.Proofs.Workspace.Contest

/-!
# What work on a lock may rely on and what it does

Others act between the steps of a process. They spare what is its own (`Spares`), and it spares
what is theirs (`Careful`), unless it robs a running process of its lock file (`Robs`). Work that
goes on like that from step to step is `Sound`.

* `careful_of_touches`: who changes something at its own places only is careful;
* `Careful.spares`: what one process does is what another one relies on;
* `Sound.spares`, `Sound.bind`, `sound_atomic`: interrupted work, work after work, one step.
-/

namespace BoardDesign.Workspace

open File
open Stage (Error)

variable {α β : Type} {path : String} {p : Nat} {n n' : Option Nat} {w w' : World}

/-- What others do between two steps of process `p` whose token is the `n`-th. -/
structure Spares (path : String) (p : Nat) (n : Option Nat) (w w' : World) : Prop where
  keeps : w.Keeps w'
  own : ∀ k x, n = some k → w.files.find? (Lock.privatePlace path w k) = some x →
    w'.files.find? (Lock.privatePlace path w k) = some x
  lock : ∀ h, h.pid = p → Lock.named? path w = some h → Lock.named? path w' = some h

/-- What a step of process `p` whose token is the `n`-th leaves alone. -/
structure Careful (path : String) (p : Nat) (n : Option Nat) (w w' : World) : Prop where
  keeps : w.Keeps w'
  closed : w'.files.Closed
  processes : w'.processes = w.processes
  serial : w.serial ≤ w'.serial
  others : ∀ k x, n ≠ some k → w.files.find? (Lock.privatePlace path w k) = some x →
    w'.files.find? (Lock.privatePlace path w k) = some x
  lock : ∀ h, h.pid ≠ p → h.pid ∈ w.processes → Lock.named? path w = some h →
    Lock.named? path w' = some h

/-- The number of the token after a step: as before, or one that is new. -/
def Numbered (n n' : Option Nat) (w w' : World) : Prop :=
  n' = n ∨ n' = some w.serial ∧ w.serial < w'.serial

/-- There is nothing at the place of the lock file, but there may be. -/
def Vacant (path : String) (w : World) : Prop :=
  ∃ l name, w.Leads path l name ∧ w.files.find? (l ++ [name]) = none

/-- A step of process `p` robs somebody, and does nothing else. -/
structure Robbery (path : String) (p : Nat) (w w' : World) : Prop where
  robs : ∃ q, Robs path p q w w'
  vacant : Vacant path w'
  processes : w'.processes = w.processes

/-- Work that is careful from step to step, holds `during` before each of its steps and comes to
what `post` says. If a step of it robs somebody then `robbed` holds of what is left. -/
def Sound (path : String) (p : Nat) (during : Option Nat → World → Prop)
    (robbed : Work α → World → Prop) (post : α → Option Nat → World → Prop) :
    Work α → Option Nat → World → Prop
  | .done a, n, w => post a n w
  | .step act next, n, w => ∀ w', Spares path p n w w' → w'.files.Closed →
    during n w' ∧ ((Robbery path p w' (act w') ∧ robbed (next w') (act w')) ∨
      ∃ n', Careful path p n w' (act w') ∧ Numbered n n' w' (act w') ∧
        Sound path p during robbed post (next w') n' (act w'))

theorem privatePlace_keeps (keeps : w.Keeps w') (k : Nat) :
    Lock.privatePlace path w' k = Lock.privatePlace path w k :=
  keeps.placeOf _

theorem Spares.refl (w : World) : Spares path p n w w :=
  ⟨.refl w, fun _ _ _ found => found, fun _ _ names => names⟩

theorem Spares.trans {w'' : World} (h : Spares path p n w w') (h' : Spares path p n w' w'') :
    Spares path p n w w'' := by
  refine ⟨h.keeps.trans h'.keeps, fun k x own found => ?_, fun holder mine names =>
    h'.lock holder mine (h.lock holder mine names)⟩
  have later := h'.own k x own
  rw [privatePlace_keeps h.keeps] at later
  exact later (h.own k x own found)

/-- What one process does is what another one relies on. -/
theorem Careful.spares {q : Nat} {m : Option Nat} (h : Careful path p n w w') (other : q ≠ p)
    (runs : q ∈ w.processes) (apart : ∀ k, m = some k → n ≠ some k) : Spares path q m w w' :=
  ⟨h.keeps, fun k x own found => h.others k x (apart k own) found,
    fun holder mine names => h.lock holder (mine ▸ other) (mine ▸ runs) names⟩

/-- A change at the process's own places. The place of the lock is its own as long as no other
process that runs has its file there. -/
theorem careful_of_touches {name : String} {places : List Location} (named : Lock.Named path name)
    (h : w.Touches w' places)
    (own : ∀ l ∈ places, (∃ k, n = some k ∧ l = Lock.privatePlace path w k) ∨
      l = w.placeOf path ∧ ∀ h, h.pid ≠ p → h.pid ∈ w.processes → Lock.named? path w ≠ some h) :
    Careful path p n w w' := by
  refine ⟨h.keeps, h.closed, h.processes, h.serial, fun k x other found => ?_,
    fun holder other runs names => ?_⟩
  · refine h.rest _ x (fun mem => ?_) found
    rcases own _ mem with ⟨m, mine, same⟩ | ⟨same, _⟩
    · rw [mine] at other
      exact other (congrArg some (Lock.privatePlace_inj named same).symm)
    · exact Lock.privatePlace_ne_place named k same
  · refine Lock.named?_keeps named h.keeps ?_ names
    obtain ⟨l, content, executable, leads, file, _⟩ := Lock.exists_file_of_named? named names
    rw [leads.placeOf, file]
    refine h.rest _ _ (fun mem => ?_) file
    rw [← leads.placeOf] at mem
    rcases own _ mem with ⟨k, _, same⟩ | ⟨_, vacant⟩
    · exact Lock.privatePlace_ne_place named k same.symm
    · exact vacant holder other runs names

theorem careful_self {name : String} (named : Lock.Named path name) (closed : w.files.Closed) :
    Careful path p n w w :=
  careful_of_touches named (World.touches_self closed) (by simp)

/-! ## Rules -/

section Rules

variable {during : Option Nat → World → Prop} {robbed : Work α → World → Prop}
  {post : α → Option Nat → World → Prop}

/-- Work that others interrupt goes on to be sound. -/
theorem Sound.spares {t : Work α} (h : Sound path p during robbed post t n w)
    (spared : Spares path p n w w') (stable : ∀ a, post a n w → post a n w') :
    Sound path p during robbed post t n w' := by
  cases t with
  | done a => exact stable a h
  | step act next => exact fun w'' later closed => h w'' (spared.trans later) closed

theorem Sound.bind {f : α → Work β} {robbed : Work β → World → Prop}
    {post : β → Option Nat → World → Prop} {t : Work α}
    (h : Sound path p during (fun t => robbed (t.bind f))
      (fun a => Sound path p during robbed post (f a)) t n w) :
    Sound path p during robbed post (t.bind f) n w := by
  induction t generalizing n w with
  | done a => exact h
  | step act next ih =>
    intro w' spared closed
    obtain ⟨now, robs | ⟨n', careful, numbered, rest⟩⟩ := h w' spared closed
    · exact ⟨now, .inl robs⟩
    · exact ⟨now, .inr ⟨n', careful, numbered, ih w' rest⟩⟩

theorem Sound.mono {post' : α → Option Nat → World → Prop} {t : Work α}
    (h : Sound path p during robbed post t n w) (weaker : ∀ a n w, post a n w → post' a n w) :
    Sound path p during robbed post' t n w := by
  induction t generalizing n w with
  | done a => exact weaker a n w h
  | step act next ih =>
    intro w' spared closed
    obtain ⟨now, robs | ⟨n', careful, numbered, rest⟩⟩ := h w' spared closed
    · exact ⟨now, .inl robs⟩
    · exact ⟨now, .inr ⟨n', careful, numbered, ih w' rest⟩⟩

/-- One step that robs nobody and keeps the token. -/
theorem sound_atomic {f : World → α × World}
    (h : ∀ w', Spares path p n w w' → w'.files.Closed →
      during n w' ∧ Careful path p n w' (f w').2 ∧ post (f w').1 n (f w').2) :
    Sound path p during robbed post (.atomic f) n w := by
  intro w' spared closed
  obtain ⟨now, careful, done⟩ := h w' spared closed
  exact ⟨now, .inr ⟨n, careful, .inl rfl, done⟩⟩

end Rules

end BoardDesign.Workspace
