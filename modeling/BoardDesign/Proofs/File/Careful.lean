import BoardDesign.Proofs.File.Guards

/-!
# Actions that guard places

* `Action.Reads`: actions that leave the world as it is;
* `Action.Yields`: what an action results in;
* `Action.Guards`: actions that guard some places wherever they are done, and `Action.GuardsAt` for
  one world;
* `guards_bind` and its like: actions made of other actions;
* `guards_writeText` and its like: single operations.
-/

namespace BoardDesign.Action

open File

variable {ε δ α β : Type} {guarded : Location → Prop} {here : Location} {w : World}

/-- The action guards the places where it is done in this world. -/
def GuardsAt (guarded : Location → Prop) (a : Action ε α) (w : World) : Prop :=
  World.Guards guarded w (a w).2

/-- The action guards the places in every world with this working directory. -/
def Guards (guarded : Location → Prop) (here : Location) (a : Action ε α) : Prop :=
  ∀ w, w.files.Proper → w.here = here → GuardsAt guarded a w

/-- The action leaves the world as it is. -/
def Reads (a : Action ε α) : Prop := ∀ w, (a w).2 = w

theorem bind_apply (a : Action ε α) (f : α → Action ε β) (w : World) :
    (a >>= f) w = match a w with
      | (.ok x, w') => f x w'
      | (.error e, w') => (.error e, w') := by
  change (ExceptT.bind a f : Action ε β) w = _
  simp only [ExceptT.bind, ExceptT.mk, bind, StateT.bind]
  rcases a w with ⟨_ | _, _⟩ <;> rfl

theorem changing_of_mapError {f : World → Except ε World} {account : ε → δ} {w' : World}
    (h : (changing f).mapError account w = (.ok (), w')) : f w = .ok w' := by
  unfold mapError changing at h
  cases done : f w with
  | error e =>
    rw [done] at h
    cases h
  | ok w'' =>
    rw [done] at h
    cases h
    rfl

theorem reading_of_mapError {f : World → Except ε α} {account : ε → δ} {x : α} {w' : World}
    (h : (reading f).mapError account w = (.ok x, w')) : f w = .ok x := by
  unfold mapError reading at h
  cases done : f w with
  | error e =>
    simp only [done] at h
    cases h
  | ok y =>
    simp only [done] at h
    cases h
    rfl

theorem ofExcept_of_mapError {r : Except ε α} {account : ε → δ} {x : α} {w' : World}
    (h : ofExcept (r.mapError account) w = (.ok x, w')) : r = .ok x := by
  cases r with
  | error e => cases h
  | ok y =>
    cases h
    rfl

theorem bind_eq_ok {a : Action ε α} {f : α → Action ε β} {y : β} {w' : World}
    (h : (a >>= f) w = (.ok y, w')) : ∃ x w₁, a w = (.ok x, w₁) ∧ f x w₁ = (.ok y, w') := by
  rw [bind_apply] at h
  rcases done : a w with ⟨_ | x, w₁⟩ <;> rw [done] at h
  · cases h
  · exact ⟨x, w₁, rfl, h⟩

/-- A list of steps fails at one of them, after those before it have been done. -/
theorem foldlM_eq_error {f : β → α → Action ε β} {xs : List α} {y : β} {e : ε} {w' : World}
    (h : xs.foldlM f y w = (.error e, w')) : ∃ before x after y₁ w₁, xs = before ++ x :: after ∧
      before.foldlM f y w = (.ok y₁, w₁) ∧ f y₁ x w₁ = (.error e, w') := by
  induction xs generalizing y w with
  | nil => cases h
  | cons x rest ih =>
    rw [List.foldlM_cons, bind_apply] at h
    rcases first : f y x w with ⟨e' | y', w₁⟩ <;> rw [first] at h
    · cases h
      exact ⟨[], x, rest, y, w, rfl, rfl, first⟩
    · obtain ⟨before, z, after, y₁, w₂, rfl, passed, failed⟩ := ih h
      refine ⟨x :: before, z, after, y₁, w₂, rfl, ?_, failed⟩
      rw [List.foldlM_cons, bind_apply, first]
      exact passed

theorem mapError_eq_ok {a : Action ε α} {account : ε → δ} {x : α} {w' : World}
    (h : a.mapError account w = (.ok x, w')) : a w = (.ok x, w') := by
  unfold mapError at h
  split at h
  · rename_i done
    cases h
    exact done
  · cases h

theorem mapM_mapError_eq_ok {f : β → Action ε α} {account : β → ε → δ} {xs : List β} {ys : List α}
    {w' : World} (h : (xs.mapM fun x => (f x).mapError (account x)) w = (.ok ys, w')) :
    xs.mapM f w = (.ok ys, w') := by
  induction xs generalizing w ys w' with
  | nil =>
    cases h
    rfl
  | cons x rest ih =>
    rw [List.mapM_cons] at h ⊢
    obtain ⟨y, w₁, first, h⟩ := bind_eq_ok h
    obtain ⟨ys', w₂, others, h⟩ := bind_eq_ok h
    cases h
    rw [bind_apply, mapError_eq_ok first]
    change ((rest.mapM f) >>= _) w₁ = _
    rw [bind_apply, ih others]
    rfl

/-- What goes on after a check that has not failed. -/
theorem unless_eq_ok {c : Prop} [Decidable c] {e : ε} {f : PUnit → Action ε α} {x : α} {w' : World}
    (h : (if c then throw e >>= f else f ⟨⟩) w = (.ok x, w')) : ¬ c ∧ f ⟨⟩ w = (.ok x, w') := by
  split at h
  · cases h
  · rename_i holds
    exact ⟨holds, h⟩

/-! ## Actions that only read -/

theorem Reads.same {a : Action ε α} (h : Reads a) {r : Except ε α} {w' : World}
    (done : a w = (r, w')) : w' = w := by
  have left := h w
  rwa [done] at left

theorem Reads.done {a : Action ε α} (h : Reads a) {r : Except ε α} (result : (a w).1 = r) :
    a w = (r, w) := Prod.ext result (h w)

namespace Reads

theorem pure (x : α) : Reads (Pure.pure x : Action ε α) := fun _ => rfl

theorem throw (e : ε) : Reads (MonadExcept.throw e : Action ε α) := fun _ => rfl

theorem ask (f : World → α) : Reads (Action.ask f : Action ε α) := fun _ => rfl

theorem reading (f : World → Except ε α) : Reads (Action.reading f) := fun _ => rfl

theorem ofExcept (r : Except ε α) : Reads (Action.ofExcept r) := fun _ => rfl

theorem bind {a : Action ε α} {f : α → Action ε β} (h : Reads a) (h' : ∀ x, Reads (f x)) :
    Reads (a >>= f) := by
  intro w
  have first := h w
  rw [bind_apply]
  rcases done : a w with ⟨_ | x, w'⟩ <;> rw [done] at first
  · exact first
  · exact (h' x w').trans first

theorem mapError {a : Action ε α} (h : Reads a) (f : ε → δ) : Reads (Action.mapError f a) := by
  intro w
  have first := h w
  rw [Action.mapError]
  rcases done : a w with ⟨_ | x, w'⟩ <;> rw [done] at first <;> exact first

theorem attempt {a : Action ε α} (h : Reads a) : Reads (Action.attempt a : Action δ _) := h

theorem forM {xs : List β} {f : β → Action ε PUnit} (h : ∀ x ∈ xs, Reads (f x)) :
    Reads (xs.forM f) := by
  induction xs with
  | nil => exact pure _
  | cons x rest ih => exact (h x (.head rest)).bind fun _ => ih fun y mem => h y (.tail x mem)

theorem mapM {xs : List β} {f : β → Action ε α} (h : ∀ x ∈ xs, Reads (f x)) :
    Reads (xs.mapM f) := by
  induction xs with
  | nil => exact pure _
  | cons x rest ih =>
    rw [List.mapM_cons]
    refine (h x (.head rest)).bind fun _ => ?_
    exact (ih fun y mem => h y (.tail x mem)).bind fun _ => pure _

end Reads

/-! ## What actions result in -/

/-- Whatever the action results in has the property. -/
def Yields (P : α → Prop) (a : Action ε α) : Prop := ∀ w x w', a w = (.ok x, w') → P x

variable {P : α → Prop}

theorem yields_pure {x : α} (h : P x) : Yields P (pure x : Action ε α) := by
  intro w y w' done
  cases done
  exact h

theorem yields_throw (e : ε) : Yields P (throw e : Action ε α) := by
  intro w y w' done
  cases done

theorem Yields.bind {Q : β → Prop} {a : Action ε β} {f : β → Action ε α} (h : Yields Q a)
    (h' : ∀ x, Q x → Yields P (f x)) : Yields P (a >>= f) := by
  intro w y w' done
  rw [bind_apply] at done
  split at done
  · rename_i first
    exact h' _ (h _ _ _ first) _ y w' done
  · cases done

theorem yields_bind {a : Action ε β} {f : β → Action ε α} (h : ∀ x, Yields P (f x)) :
    Yields P (a >>= f) :=
  Yields.bind (Q := fun _ => True) (fun _ _ _ _ => trivial) fun x _ => h x

theorem yields_mapM {xs : List β} {f : β → Action ε α} (h : ∀ x ∈ xs, Yields P (f x)) :
    Yields (fun ys => ∀ y ∈ ys, P y) (xs.mapM f) := by
  induction xs with
  | nil => exact yields_pure nofun
  | cons x rest ih =>
    rw [List.mapM_cons]
    refine (h x (.head rest)).bind fun y first => ?_
    refine (ih fun z mem => h z (.tail x mem)).bind fun ys others => ?_
    exact yields_pure (List.forall_mem_cons.mpr ⟨first, others⟩)

/-! ## Actions in one world -/

theorem Reads.guardsAt {a : Action ε α} (h : Reads a) (proper : w.files.Proper) :
    GuardsAt guarded a w := by
  rw [GuardsAt, h w]
  exact World.guards_self proper

theorem guardsAt_bind {a : Action ε α} {f : α → Action ε β} (h : GuardsAt guarded a w)
    (h' : ∀ x w', a w = (.ok x, w') → World.Guards guarded w w' → GuardsAt guarded (f x) w') :
    GuardsAt guarded (a >>= f) w := by
  rw [GuardsAt] at h ⊢
  rw [bind_apply]
  rcases done : a w with ⟨_ | x, w'⟩ <;> rw [done] at h
  · exact h
  · exact h.trans (h' x w' done h)

theorem guardsAt_mapError {a : Action ε α} (h : GuardsAt guarded a w) (f : ε → δ) :
    GuardsAt guarded (a.mapError f) w := by
  rw [GuardsAt] at h ⊢
  rw [mapError]
  rcases done : a w with ⟨_ | x, w'⟩ <;> rw [done] at h <;> exact h

theorem guardsAt_changing {f : World → Except ε World} (proper : w.files.Proper)
    (h : ∀ w', f w = .ok w' → World.Guards guarded w w') : GuardsAt guarded (changing f) w := by
  rw [GuardsAt, changing]
  cases done : f w with
  | error e => exact World.guards_self proper
  | ok w' => exact h w' done

/-! ## Actions in every world -/

theorem Guards.of_done {a : Action ε α} {r : Except ε α} {w' : World}
    (h : Guards guarded w.here a) (proper : w.files.Proper) (done : a w = (r, w')) :
    World.Guards guarded w w' := by
  have guards := h w proper rfl
  rwa [GuardsAt, done] at guards

theorem Reads.guards {a : Action ε α} (h : Reads a) : Guards guarded here a :=
  fun _ proper _ => h.guardsAt proper

theorem Guards.mono {a : Action ε α} {guarded' : Location → Prop} (h : Guards guarded here a)
    (fewer : ∀ l, guarded' l → guarded l) : Guards guarded' here a :=
  fun w proper same => (h w proper same).mono fewer

theorem guards_pure (x : α) : Guards guarded here (pure x : Action ε α) := (Reads.pure x).guards

theorem guards_throw (e : ε) : Guards guarded here (throw e : Action ε α) := (Reads.throw e).guards

theorem guards_bind {a : Action ε α} {f : α → Action ε β} (h : Guards guarded here a)
    (h' : ∀ x, Guards guarded here (f x)) : Guards guarded here (a >>= f) :=
  fun w proper same => guardsAt_bind (h w proper same) fun x w' _ guards =>
    h' x w' guards.proper (guards.here.trans same)

/-- An action after which the rest follows, if a condition holds. -/
theorem guards_when {c : Prop} [Decidable c] {a : Action ε PUnit} {f : PUnit → Action ε α}
    (h : Guards guarded here a) (h' : ∀ x, Guards guarded here (f x)) :
    Guards guarded here (if c then a >>= f else f ⟨⟩) := by
  split
  · exact guards_bind h h'
  · exact h' _

theorem guards_ite {c : Prop} [Decidable c] {a b : Action ε α} (h : Guards guarded here a)
    (h' : Guards guarded here b) : Guards guarded here (if c then a else b) := by
  split
  · exact h
  · exact h'

theorem guards_mapError {a : Action ε α} (h : Guards guarded here a) (f : ε → δ) :
    Guards guarded here (a.mapError f) :=
  fun w proper same => guardsAt_mapError (h w proper same) f

theorem guards_attempt {a : Action ε α} (h : Guards guarded here a) :
    Guards guarded here (a.attempt : Action δ _) :=
  fun w proper same => h w proper same

theorem guards_ignoring {a : Action ε α} (h : Guards guarded here a) :
    Guards guarded here (a.ignoring : Action δ _) :=
  fun w proper same => h w proper same

theorem guards_forM {xs : List β} {f : β → Action ε PUnit}
    (h : ∀ x ∈ xs, Guards guarded here (f x)) : Guards guarded here (xs.forM f) := by
  induction xs with
  | nil => exact guards_pure _
  | cons x rest ih =>
    exact guards_bind (h x (.head rest)) fun _ => ih fun y mem => h y (.tail x mem)

theorem guards_mapM {xs : List β} {f : β → Action ε α}
    (h : ∀ x ∈ xs, Guards guarded here (f x)) : Guards guarded here (xs.mapM f) := by
  induction xs with
  | nil => exact guards_pure _
  | cons x rest ih =>
    rw [List.mapM_cons]
    refine guards_bind (h x (.head rest)) fun y => ?_
    exact guards_bind (ih fun z mem => h z (.tail x mem)) fun _ => guards_pure _

/-! ## Single operations -/

theorem guards_writeBytes {path : String} (content : List UInt8)
    (free : ¬ guarded (World.placeFrom here path)) :
    Guards guarded here (writeBytes path content) := by
  rintro w proper rfl
  exact guardsAt_changing proper fun _ done => World.guards_write proper done free

theorem guards_create {path : String} (content : List UInt8)
    (free : ¬ guarded (World.placeFrom here path)) :
    Guards guarded here (create path content) := by
  rintro w proper rfl
  exact guardsAt_changing proper fun _ done => World.guards_create proper done free

theorem guards_link (source : String) {target : String}
    (free : ¬ guarded (World.placeFrom here target)) :
    Guards guarded here (link source target) := by
  rintro w proper rfl
  exact guardsAt_changing proper fun _ done => World.guards_link proper done free

theorem guards_copy (source : String) {target : String}
    (free : ¬ guarded (World.placeFrom here target)) :
    Guards guarded here (copy source target) := by
  rintro w proper rfl
  exact guardsAt_changing proper fun _ done => World.guards_copy proper done free

theorem guards_makeDir (path : String) : Guards guarded here (makeDir path) := fun _ proper _ =>
  guardsAt_changing proper fun _ done => World.guards_makeDir proper done

theorem guards_makeDirs (path : String) : Guards guarded here (makeDirs path) := fun _ proper _ =>
  World.guards_makeDirsFrom proper _

theorem guards_removeFile (path : String) : Guards guarded here (removeFile path) :=
  fun _ proper _ => guardsAt_changing proper fun _ done => World.guards_removeFile proper done

theorem guards_removeDir (path : String) : Guards guarded here (removeDir path) :=
  fun _ proper _ => World.guards_removeDir proper path

/-- A rename guards every place that does not lie at or below the new one. -/
theorem guards_rename (source : String) {target : String}
    (free : ∀ rest, ¬ guarded (World.placeFrom here target ++ rest)) :
    Guards guarded here (rename source target) := by
  rintro w proper rfl
  exact guardsAt_changing proper fun _ done => World.guards_rename proper done fun rest mem =>
    absurd mem (free rest)

end BoardDesign.Action
