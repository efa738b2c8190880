import BoardDesign.Proofs.Run.History

/-!
# When the result of an earlier run is used again

A stage is skipped if its record holds the digest of its inputs, and the record is written by the
run that has made the outputs. So what a skipped stage leaves was made from inputs with the same
digest.

* `Run.Stages`: a stage that a run has gone through, and how it ended;
* `Stages.skipped`, `Stages.executed`: what has happened to the record, and what was made when;
* `fileAt?_of_invalidate`, `stored`: what the cache does to the files besides its record.
-/

namespace BoardDesign

open File File.Path World Action
open Stage (EndsAsRecord Error)

variable {w w' : World} {r r' : Run} {stage : Stage} {d : ContentHash} {other : String}

/-! ## Records and other files -/

namespace Stage.Cache

variable {c : Cache}

@[simp] theorem hashPath_count (c : Cache) (hit : Bool) (stage : Stage) :
    (c.count hit).hashPath stage = c.hashPath stage := by
  cases hit <;> rfl

theorem endsAsRecord_hashPath (c : Cache) (stage : Stage) (here : Location) :
    EndsAsRecord (placeFrom here (c.hashPath stage)) :=
  ⟨_, stage, c.placeFrom_hashPath stage here⟩

theorem invalidate_eq_ok (h : c.invalidate stage w = (.ok (), w')) :
    w' = w ∨ w.removeFile (c.hashPath stage) = .ok w' := by
  rcases invalidate_cases c stage w with ⟨w₁, removed, done⟩ | ⟨-, done⟩ | ⟨fault, -, -, failed⟩
  · cases done.symm.trans h
    exact .inr removed
  · cases done.symm.trans h
    exact .inl rfl
  · cases failed.symm.trans h

theorem fileAt?_of_invalidate (h : c.invalidate stage w = (.ok (), w'))
    (noRecord : ¬ EndsAsRecord (w.placeOf other)) : w'.fileAt? other = w.fileAt? other := by
  rcases invalidate_eq_ok h with rfl | removed
  · rfl
  · refine fileAt?_removeFile removed fun same => noRecord ?_
    rw [same]
    exact endsAsRecord_hashPath c stage w.here

theorem recorded?_of_write
    (h : w.write (c.hashPath stage) (Text.Utf8.bytes (d.text ++ "\n")) = .ok w') :
    recorded? w' c stage = some d := by
  have text : w'.textAt (c.hashPath stage) = .ok (d.text ++ "\n") :=
    textAt_of_bytesAt (bytesAt_of_write h) (Text.Utf8.text?_bytes _)
  rw [recorded?, text]
  exact d.ofText?_line

/-- What has been put on record is there, and other files are as they were. -/
theorem stored (h : c.store stage d w = (.ok (), w')) :
    w'.here = w.here ∧ recorded? w' c stage = some d ∧
      ∀ other content, ¬ EndsAsRecord (w.placeOf other) → w.fileAt? other = some content →
        w'.fileAt? other = some content := by
  obtain ⟨⟨⟩, w₁, made, wrote⟩ := bind_eq_ok h
  have adds : w.Adds w₁ := by
    have dirs := mapError_eq_ok made
    have left : (w.makeDirs c.dir).2 = w₁ := congrArg Prod.snd dirs
    exact left ▸ makeDirs_adds w c.dir
  have written := changing_of_mapError wrote
  refine ⟨(here_write written).trans adds.keeps.here, recorded?_of_write written, ?_⟩
  intro other content noRecord there
  have place : w₁.placeOf other = w.placeOf other := adds.keeps.placeOf other
  rw [fileAt?_write written, if_neg, adds.fileAt? there]
  intro same
  rw [place] at same
  rw [same] at noRecord
  exact noRecord (endsAsRecord_hashPath c stage w₁.here)

end Stage.Cache

/-! ## Stages gone through -/

namespace Run

variable {task : Run → Action Error Task} {t : Task} {outcome : Stage.Outcome}

/-- A stage that a run has gone through with a task, and how it ended. -/
structure Stages (r : Run) (stage : Stage) (task : Run → Action Error Task) (w : World) (t : Task)
    (outcome : Stage.Outcome) (r' : Run) (w' : World) : Prop where
  done : r.staged stage task w = (.ok r', w')
  made : ∃ r₁ w₁, r.enter stage w = (.ok r₁, w₁) ∧ (task r₁ w₁).1 = .ok t
  result : ∃ x, r'.results = r.results ++ [x] ∧ x.outcome = outcome

theorem enter_eq_ok (h : r.enter stage w = (.ok r', w')) :
    r'.board = r.board ∧ r'.cache = r.cache ∧ r'.results = r.results := by
  obtain ⟨lock, w₁, -, same⟩ := bind_eq_ok h
  cases same
  exact ⟨rfl, rfl, rfl⟩

/-- A task with the cache around it is skipped if its digest is on record, or it is run. -/
theorem perform_eq_ok (h : r.perform t w = (.ok r', w')) :
    (w' = w ∧ Stage.Cache.recorded? w r.cache t.stage = some t.inputs.hash ∧
      r'.results = r.results ++ [.ofCache t.stage t.outputs]) ∨
    ∃ r₁ w₁ x w₂, r₁.board = r.board ∧ r.cache.invalidate t.stage w = (.ok (), w₁) ∧
      t.body r₁ w₁ = (.ok x, w₂) ∧ r.cache.store t.stage t.inputs.hash w₂ = (.ok (), w') ∧
      r'.results = r.results ++ [x] := by
  obtain ⟨⟨hit, r₁⟩, w₁, checked, performed⟩ := bind_eq_ok h
  obtain ⟨⟨hit', cache⟩, w₂, looked, decided⟩ := bind_eq_ok checked
  cases looked
  cases holds : Stage.Cache.holds w r.cache t.stage t.inputs.hash t.outputs with
  | true =>
    simp only [holds, if_true] at decided
    cases decided
    cases performed
    refine .inl ⟨rfl, ?_, rfl⟩
    simp only [Stage.Cache.holds, Bool.and_eq_true, beq_iff_eq] at holds
    exact holds.1.2
  | false =>
    simp only [holds, Bool.false_eq_true, if_false] at decided
    obtain ⟨⟨⟩, w₃, taken, same⟩ := bind_eq_ok decided
    cases same
    simp only [Bool.false_eq_true, if_false] at performed
    obtain ⟨x, w₄, ran, storing⟩ := bind_eq_ok performed
    obtain ⟨⟨⟩, w₅, saved, recorded⟩ := bind_eq_ok storing
    cases recorded
    exact .inr ⟨{ r with cache := r.cache.count false }, _, x, w₄, rfl, taken, ran, saved, rfl⟩

theorem timed_eq_ok {α : Type} {a : Action Error α} {x : α} {time : Nat}
    (h : timed a w = (.ok (x, time), w')) : a w = (.ok x, w') := by
  obtain ⟨before, w₁, asked, timed⟩ := bind_eq_ok h
  obtain rfl : w₁ = w := (Reads.ask _).same asked
  obtain ⟨y, w₂, done, ended⟩ := bind_eq_ok timed
  obtain ⟨after, w₃, asked', result⟩ := bind_eq_ok ended
  obtain rfl : w₃ = w₂ := (Reads.ask _).same asked'
  cases result
  exact done

theorem stages_of_staged (h : r.staged stage task w = (.ok r', w'))
    (result : ∃ x, r'.results = r.results ++ [x] ∧ x.outcome = outcome) :
    ∃ t, r.Stages stage task w t outcome r' w' := by
  obtain ⟨r₁, w₁, entered, tasked⟩ := bind_eq_ok h
  obtain ⟨t, w₂, made, performed⟩ := bind_eq_ok tasked
  exact ⟨t, h, ⟨r₁, w₁, entered, congrArg Prod.fst made⟩, result⟩

/-- How the stages of a run ended. -/
def outcomes (result : Except Error Run) : List Stage.Outcome :=
  match result with
  | .ok r => r.results.map (·.outcome)
  | .error _ => []

/-- A stage is skipped when its record holds the digest of its inputs and its outputs are there. -/
theorem stages_of_holds {r₁ : Run} {w₁ : World} (entered : r.enter stage w = (.ok r₁, w₁))
    (made : task r₁ w₁ = (.ok t, w₁))
    (holds : Stage.Cache.holds w₁ r.cache t.stage t.inputs.hash t.outputs = true) :
    ∃ r', r.Stages stage task w t .cached r' w₁ := by
  obtain ⟨-, cache, results⟩ := enter_eq_ok entered
  let r₂ : Run := { r₁ with cache := r₁.cache.count true }.record (.ofCache t.stage t.outputs)
  have looked : r₁.cache.lookup t.stage t.inputs.hash t.outputs w₁ =
      (.ok (true, r₁.cache.count true), w₁) := by
    rw [← cache] at holds
    rw [Stage.Cache.lookup, Action.ask]
    simp only [holds]
  have performed : r₁.perform t w₁ = (.ok r₂, w₁) := by
    rw [perform, bind_apply, checkCache, bind_apply, looked]
    rfl
  refine ⟨r₂, ?_, ⟨r₁, w₁, entered, congrArg Prod.fst made⟩, .ofCache t.stage t.outputs, ?_, rfl⟩
  · rw [staged, bind_apply, entered]
    simp only [bind_apply, made, performed]
  · rw [← results]
    rfl

theorem exists_stages (fresh : r.results = [])
    (h : outcomes (r.staged stage task w).1 = [outcome]) :
    ∃ t r' w', r.Stages stage task w t outcome r' w' := by
  rcases done : r.staged stage task w with ⟨e | r', w'⟩ <;> rw [done] at h
  · cases h
  · obtain ⟨x, results, outcome⟩ := List.map_eq_singleton_iff.mp h
    have added : r'.results = r.results ++ [x] := by rw [fresh, results, List.nil_append]
    obtain ⟨t, stages⟩ := stages_of_staged done ⟨x, added, outcome⟩
    exact ⟨t, r', w', stages⟩

namespace Stages

theorem performs (h : r.Stages stage task w t outcome r' w') (reads : ∀ r, Reads (task r)) :
    ∃ r₁ w₁, r.enter stage w = (.ok r₁, w₁) ∧ task r₁ w₁ = (.ok t, w₁) ∧
      r₁.perform t w₁ = (.ok r', w') := by
  obtain ⟨r₁, w₁, entered, made⟩ := h.made
  obtain ⟨r₂, w₂, entered', tasked⟩ := bind_eq_ok h.done
  cases entered.symm.trans entered'
  obtain ⟨t', w₃, made', performed⟩ := bind_eq_ok tasked
  have done := (reads r₁).done made
  cases done.symm.trans made'
  exact ⟨r₁, w₁, entered, done, performed⟩

/-- When a stage has been skipped its record holds the digest of its inputs. -/
theorem skipped (h : r.Stages stage task w t .cached r' w') (reads : ∀ r, Reads (task r))
    (ran : ∀ r, Yields (·.outcome = .executed) (t.body r)) :
    (∃ r₁, r.enter stage w = (.ok r₁, w') ∧ task r₁ w' = (.ok t, w')) ∧
      Stage.Cache.recorded? w' r.cache t.stage = some t.inputs.hash := by
  obtain ⟨r₁, w₁, entered, made, performed⟩ := h.performs reads
  obtain ⟨-, cache, results⟩ := enter_eq_ok entered
  rcases perform_eq_ok performed with ⟨rfl, recorded, -⟩ | ⟨r₂, w₂, x, w₃, -, -, body, -, added⟩
  · exact ⟨⟨r₁, entered, made⟩, cache ▸ recorded⟩
  · obtain ⟨y, whole, outcome⟩ := h.result
    rw [added, results] at whole
    have same := List.singleton_injective (List.append_cancel_left whole)
    rw [← same, ran r₂ _ _ _ body] at outcome
    cases outcome

/-- When a stage has been executed its body was run without a record, and then the digest of its
inputs was put on record. -/
theorem executed (h : r.Stages stage task w t .executed r' w') (reads : ∀ r, Reads (task r)) :
    ∃ r₁ w₁ r₂ w₂ x w₃, r.enter stage w = (.ok r₁, w₁) ∧ task r₁ w₁ = (.ok t, w₁) ∧
      r₂.board = r.board ∧ r.cache.invalidate t.stage w₁ = (.ok (), w₂) ∧
      t.body r₂ w₂ = (.ok x, w₃) ∧ r.cache.store t.stage t.inputs.hash w₃ = (.ok (), w') := by
  obtain ⟨r₁, w₁, entered, made, performed⟩ := h.performs reads
  obtain ⟨board, cache, results⟩ := enter_eq_ok entered
  rcases perform_eq_ok performed with ⟨-, -, added⟩ | ⟨r₂, w₂, x, w₃, board', taken, body, saved, -⟩
  · obtain ⟨y, whole, outcome⟩ := h.result
    rw [added, results] at whole
    have same := List.singleton_injective (List.append_cancel_left whole)
    rw [← same] at outcome
    cases outcome
  · rw [cache] at taken saved
    exact ⟨r₁, w₁, r₂, w₂, x, w₃, entered, made, board'.trans board, taken, body, saved⟩

end Stages

end Run

end BoardDesign
