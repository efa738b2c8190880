import BoardDesign.File.World
/-!
Work on a world that others work on too, in steps that each happen as a whole.

`run` is what the work comes to when nobody else acts between its steps; `run_bind` says that
one piece of work after another runs like that as well. What may happen between the steps is open.
-/

namespace BoardDesign

/-- What is left of the work after a step depends on the world that the step found. -/
inductive Work (α : Type) where
  | done (result : α)
  | step (act : World → World) (next : World → Work α)

namespace Work

variable {α β : Type}

def bind : Work α → (α → Work β) → Work β
  | .done a, f => f a
  | .step act next, f => .step act fun w => (next w).bind f

instance : Monad Work where
  pure := .done
  bind := bind

/-- One step. -/
def atomic (f : World → α × World) : Work α := .step (fun w => (f w).2) fun w => .done (f w).1

/-- An action in one step, with its outcome as a value. -/
def attempt {ε : Type} (a : Action ε α) : Work (Except ε α) := atomic fun w => a w

def run : Work α → World → α × World
  | .done a, w => (a, w)
  | .step act next, w => (next w).run (act w)

theorem run_bind (t : Work α) (f : α → Work β) (w : World) :
    (t.bind f).run w = (f (t.run w).1).run (t.run w).2 := by
  induction t generalizing w with
  | done a => rfl
  | step act next ih => exact ih w (act w)

@[simp] theorem run_atomic (f : World → α × World) (w : World) : (atomic f).run w = f w := rfl

end Work

/-- Work in steps that may fail. -/
abbrev Steps (ε : Type) := ExceptT ε Work

namespace Steps

variable {ε δ α : Type}

/-- An action in one step. -/
def atomic (account : δ → ε) (a : Action δ α) : Steps ε α := do
  match ← (Work.attempt a : Work (Except δ α)) with
  | .ok x => return x
  | .error e => throw (account e)

/-- The work without anybody else acting. -/
def alone (t : Steps ε α) : Action ε α := fun w => Work.run t w

end Steps

end BoardDesign
