import BoardDesign.Proofs.Run.Spared

/-!
# What happens to the stages of a board in a run

A stage with a record is skipped, or its body is started and ends. The journal of a run tells
which of this happens in which world.

* `Request.journal`: the events of a run with the worlds in which they happen;
* `SucceededLast`: the last time that a stage was started it was for a digest, and it succeeded;
* `Earned`: the records of a board are those of stages that succeeded last;
* `goes_perform`: a task with the cache around it leaves only records that are earned.
-/

namespace BoardDesign

open File File.Path World Action
open Stage (EndsAsRecord Error)

/-- What happens to a stage. -/
inductive Event where
  | skipped (stage : Stage) (digest : ContentHash)
  | started (stage : Stage) (digest : ContentHash)
  | ended (stage : Stage) (success : Bool)
deriving DecidableEq, Repr

/-- Events with the worlds in which they happen. -/
abbrev Journal := List (Event × World)

def Journal.events (j : Journal) : List Event := j.map (·.1)

theorem Journal.events_append (j j' : Journal) : (j ++ j').events = j.events ++ j'.events :=
  List.map_append

namespace Run

/-- The task is skipped, or its body is started in one world and ends in another one. -/
def Task.journal (t : Task) (r : Run) (w : World) : Journal :=
  match r.checkCache t.stage t.inputs.hash t.outputs w with
  | (.ok (true, _), w) => [(.skipped t.stage t.inputs.hash, w)]
  | (.ok (false, r), w) =>
    let ended := t.body r w
    [(.started t.stage t.inputs.hash, w), (.ended t.stage ended.1.isOk, ended.2)]
  | (.error _, _) => []

def stagedJournal (r : Run) (stage : Stage) (task : Run → Action Error Task) (w : World) : Journal :=
  match r.enter stage w with
  | (.ok r, w) =>
    match task r w with
    | (.ok t, w) => t.journal r w
    | (.error _, _) => []
  | (.error _, _) => []

end Run

namespace Request

/-- The task of a stage of a request, if it is a stage that has a record. -/
def task? (s : Setup) (q : Request) : Stage → Option (Run → Action Error Run.Task)
  | .prepareBoard => q.design.map (Run.boardTask s)
  | .build => q.appDir?.map fun app => Run.buildTask s app (q.template.map (·.templateDir))
  | .prepareSimulatorFiles => some (Run.simulatorTask s q.templatesDir)
  | .simulate => none

def stageJournal (s : Setup) (q : Request) (r : Run) (stage : Stage) (w : World) : Journal :=
  match q.task? s stage with
  | some task => r.stagedJournal stage task w
  | none => []

/-- The events of some stages, up to the first failure. -/
def journalFrom (s : Setup) (q : Request) : List Stage → Run → World → Journal
  | [], _, _ => []
  | stage :: rest, r, w =>
    q.stageJournal s r stage w ++
      match q.runStage s r stage w with
      | (.ok r, w) => journalFrom s q rest r w
      | (.error _, _) => []

def journal (s : Setup) (q : Request) (w : World) : Journal :=
  match Run.start s q.board q.first w with
  | (.ok r, w) => q.journalFrom s (Stage.range q.first q.last) r w
  | (.error _, _) => []

end Request

/-! ## Histories of one stage -/

variable {stage stage' : Stage} {d d' : ContentHash} {e : Event} {es more : List Event}

/-- The last time that the stage was started it was for inputs with the digest, and it succeeded. -/
def SucceededLast (stage : Stage) (d : ContentHash) (es : List Event) : Prop :=
  ∃ before after, es = before ++ .started stage d :: .ended stage true :: after ∧
    ∀ d', .started stage d' ∉ after

theorem SucceededLast.append (h : SucceededLast stage d es)
    (quiet : ∀ d', .started stage d' ∉ more) : SucceededLast stage d (es ++ more) := by
  obtain ⟨before, after, rfl, last⟩ := h
  refine ⟨before, after ++ more, by simp, fun d' mem => ?_⟩
  exact (List.mem_append.mp mem).elim (last d') (quiet d')

theorem SucceededLast.mem (h : SucceededLast stage d es) : .started stage d ∈ es := by
  obtain ⟨before, after, rfl, -⟩ := h
  simp

/-- A stage that failed when it was last started has not succeeded last. -/
theorem not_succeededLast_of_failed :
    ¬ SucceededLast stage d (es ++ [.started stage d', .ended stage false]) := by
  rintro ⟨before, after, whole, last⟩
  have backward := congrArg List.reverse whole
  simp only [List.reverse_append, List.reverse_cons, List.reverse_nil, List.nil_append,
    List.append_assoc, List.cons_append] at backward
  have last' : .started stage d' ∉ after.reverse := fun mem => last d' (List.mem_reverse.mp mem)
  generalize after.reverse = after at backward last'
  rcases after with _ | ⟨x, _ | ⟨y, more⟩⟩
  · cases backward
  · cases backward
  · obtain rfl := (List.cons.inj (List.cons.inj backward).2).1
    exact last' (.tail _ (.head _))

theorem succeededLast_ended (es : List Event) :
    SucceededLast stage d (es ++ [.started stage d] ++ [.ended stage true]) :=
  ⟨es, [], by simp, by simp⟩

/-! ## Records that are earned -/

namespace Workspace

variable {ws : Workspace} {board : String} {w w' : World} {here : Location} {r r' : Run} {t : Run.Task}

/-- The digest that the content of a record stands for. -/
def digestOf (content : List UInt8) : Option ContentHash :=
  (Text.Utf8.text? content).bind ContentHash.ofText?

theorem digestOf_text (d : ContentHash) : digestOf (Text.Utf8.bytes (d.text ++ "\n")) = some d := by
  rw [digestOf, Text.Utf8.text?_bytes, Option.bind_some]
  exact d.ofText?_line

/-- The record of a stage holds a digest. -/
def Holds (ws : Workspace) (board : String) (w : World) (stage : Stage) (d : ContentHash) : Prop :=
  ∃ content executable, w.files.find? (ws.recordPlace board stage) =
    some (.file content executable) ∧ digestOf content = some d

/-- Every record of a board holds the digest of the inputs for which its stage succeeded when it
was last started. -/
structure Earned (ws : Workspace) (board : String) (es : List Event) (w : World) : Prop where
  proper : w.files.Proper
  succeeded : ∀ stage d, ws.Holds board w stage d → SucceededLast stage d es

namespace Earned

theorem guards (h : ws.Earned board es w) (guards : World.Guards (ws.IsRecord board) w w') :
    ws.Earned board es w' := by
  refine ⟨guards.proper, fun stage d ⟨content, x, found, digest⟩ => ?_⟩
  exact h.succeeded stage d ⟨content, x, guards.kept _ ⟨stage, rfl⟩ _ _ found, digest⟩

theorem append (h : ws.Earned board es w) (more : List Event) (quiet : ∀ stage d, .started stage d ∉ more) :
    ws.Earned board (es ++ more) w :=
  ⟨h.proper, fun stage d holds => (h.succeeded stage d holds).append (quiet stage)⟩

/-- A stage without a record may be started. -/
theorem started (h : ws.Earned board es w)
    (none : w.files.find? (ws.recordPlace board stage) = none) (d : ContentHash) :
    ws.Earned board (es ++ [.started stage d]) w := by
  refine ⟨h.proper, fun stage' d' holds => ?_⟩
  refine (h.succeeded stage' d' holds).append fun d'' mem => ?_
  cases List.mem_singleton.mp mem
  obtain ⟨content, x, found, -⟩ := holds
  rw [none] at found
  cases found

end Earned

theorem guards_invalidate (c : Stage.Cache) (stage : Stage) {guarded : Location → Prop} :
    Action.Guards guarded here (c.invalidate stage) := by
  refine guards_bind (guards_attempt (guards_removeFile _)) fun removed => ?_
  split
  · exact guards_pure _
  · exact guards_pure _
  · exact guards_throw _

section Records

variable (ordinary : ws.Ordinary board)
include ordinary

theorem placeOf_hashPath (w : World) (stage : Stage) :
    w.placeOf ((ws.records board).hashPath stage) = ws.recordPlace board stage := by
  rw [placeOf_eq, (ordinary.hashPath stage).placeFrom, recordPlace,
    (ordinary.hashPath stage).placeFrom]

/-- What is read from a record is what the file at its place holds. -/
theorem holds_of_recorded? (h : Stage.Cache.recorded? w (ws.records board) stage = some d) :
    ws.Holds board w stage d := by
  obtain ⟨text, read, digest⟩ := Option.bind_eq_some_iff.mp h
  have whole : w.textAt ((ws.records board).hashPath stage) = .ok text := by
    cases outcome : w.textAt ((ws.records board).hashPath stage) with
    | error e =>
      rw [outcome] at read
      cases read
    | ok text' =>
      rw [outcome] at read
      cases read
      rfl
  rw [textAt, bytesAt] at whole
  cases node : w.nodeAt ((ws.records board).hashPath stage) with
  | error e => simp [node, bind, Except.bind] at whole
  | ok n =>
    cases n with
    | dir => simp [node, bind, Except.bind] at whole
    | file content executable =>
      simp only [node, bind, Except.bind] at whole
      split at whole
      · rename_i text' decoded
        cases whole
        obtain ⟨l, located, there⟩ := nodeAt_eq_ok node
        obtain rfl := (locate_eq_ok located).trans (placeOf_hashPath ordinary w stage)
        refine ⟨content, executable, ?_, by rw [digestOf, decoded, Option.bind_some, digest]⟩
        cases found : w.files.find? (ws.recordPlace board stage) with
        | none =>
          rw [found] at there
          cases there
        | some n =>
          rw [found] at there
          exact congrArg some there.symm
      · cases whole

/-- When a record has been taken away there is none. -/
theorem find?_of_invalidate (proper : w.files.Proper)
    (done : (ws.records board).invalidate stage w = (.ok (), w')) :
    w'.files.find? (ws.recordPlace board stage) = none := by
  have named : ws.recordPlace board stage ≠ [] := by simp [recordPlace_eq]
  rw [Stage.Cache.invalidate, bind_apply, attempt, Action.removeFile, changing] at done
  cases removed : w.removeFile ((ws.records board).hashPath stage) with
  | ok w₁ =>
    rw [removed] at done
    cases done
    obtain ⟨l, located, -, rfl⟩ := removeFile_eq_ok removed
    obtain rfl := (locate_eq_ok located).trans (placeOf_hashPath ordinary w stage)
    rw [Tree.find?_erase named, if_pos rfl]
  | error fault =>
    rw [removed] at done
    cases fault <;> cases done
    rw [← placeOf_hashPath ordinary w stage]
    refine (ordinary.hashPath stage).find?_of_notFound proper.closed ?_
    unfold World.removeFile at removed
    cases located : w.locate ((ws.records board).hashPath stage) with
    | error e => simpa [located, bind, Except.bind] using removed
    | ok l =>
      simp only [located, bind, Except.bind] at removed
      split at removed <;> cases removed

/-- The record of a stage that has succeeded is earned. -/
theorem earned_write (earned : ws.Earned board es w) (succeeded : SucceededLast stage d es)
    (done : w.write ((ws.records board).hashPath stage) (Text.Utf8.bytes (d.text ++ "\n")) =
      .ok w') : ws.Earned board es w' ∧ w'.here = w.here := by
  have others : World.Guards (fun l => ws.IsRecord board l ∧ l ≠ ws.recordPlace board stage)
      w w' := guards_write earned.proper done fun h => h.2 (placeOf_hashPath ordinary w stage)
  refine ⟨⟨others.proper, fun stage' d' ⟨content, x, found, digest⟩ => ?_⟩, others.here⟩
  by_cases same : stage' = stage
  · subst same
    obtain ⟨l, name, executable, leads, -, rfl⟩ := write_eq_ok done
    rw [← placeOf_hashPath ordinary w, leads.placeOf, Tree.find?_insert (by simp), if_pos rfl] at found
    cases found
    rw [digestOf_text] at digest
    exact Option.some.inj digest ▸ succeeded
  · have before := others.kept _ ⟨⟨stage', rfl⟩, fun place => same (recordPlace_inj place)⟩ _ _ found
    exact earned.succeeded stage' d' ⟨content, x, before, digest⟩

theorem earned_store (earned : ws.Earned board es w) (succeeded : SucceededLast stage d es) :
    ws.Earned board es ((ws.records board).store stage d w).2 ∧
      ((ws.records board).store stage d w).2.here = w.here := by
  have made : GuardsAt (ws.IsRecord board) ((Action.makeDirs (ws.records board).dir).mapError
      (Error.file (ws.records board).dir)) w :=
    guards_mapError (guards_makeDirs _) _ w earned.proper rfl
  rw [GuardsAt] at made
  rw [Stage.Cache.store, bind_apply]
  rcases first : (Action.makeDirs (ws.records board).dir).mapError
    (Error.file (ws.records board).dir) w with ⟨_ | _, w₁⟩ <;> rw [first] at made
  · exact ⟨earned.guards made, made.here⟩
  dsimp only
  rw [mapError, writeText, writeBytes, changing]
  cases written : w₁.write ((ws.records board).hashPath stage)
      (Text.Utf8.bytes (d.text ++ "\n")) with
  | error e => exact ⟨earned.guards made, made.here⟩
  | ok w₂ =>
    obtain ⟨earned', here'⟩ := earned_write ordinary (earned.guards made) succeeded written
    exact ⟨earned', here'.trans made.here⟩

end Records

end Workspace

/-! ## What a run earns -/

/-- A stage is only skipped if it succeeded when it was last started. -/
def Fair (es : List Event) : Event → Prop
  | .skipped stage d => SucceededLast stage d es
  | _ => True

/-- The result of a stage that has a record tells what has happened to it. -/
def Told (x : Stage.Result) (es : List Event) : Prop :=
  match x.outcome with
  | .cached => ∃ d, .skipped x.stage d ∈ es
  | .executed => x.stage.cacheable → .ended x.stage true ∈ es
  | .timedOut => True

theorem Told.mono {x : Stage.Result} (h : Told x es) (fewer : ∀ e ∈ es, e ∈ more) : Told x more := by
  unfold Told at h ⊢
  split at h
  · exact h.imp fun d mem => fewer _ mem
  · exact fun cacheable => fewer _ (h cacheable)
  · trivial

variable {ws : Workspace} {board : String} {w w' w₁ : World} {r r' : Run} {t : Run.Task}
  {j j' : Journal}

/-- After some events, each event of a journal is fair and the records are earned when it happens,
and in the world that is left. -/
def Earns (ws : Workspace) (board : String) : List Event → Journal → World → Prop
  | es, [], w => ws.Earned board es w
  | es, (e, w₁) :: rest, w =>
    Fair es e ∧ ws.Earned board (es ++ [e]) w₁ ∧ Earns ws board (es ++ [e]) rest w

namespace Earns

theorem append (h : Earns ws board es j w₁) (h' : Earns ws board (es ++ j.events) j' w) :
    Earns ws board es (j ++ j') w := by
  induction j generalizing es with
  | nil => simpa [Journal.events] using h'
  | cons first rest ih =>
    refine ⟨h.1, h.2.1, ih h.2.2 ?_⟩
    simpa [Journal.events] using h'

theorem earned (h : Earns ws board es j w) : ws.Earned board (es ++ j.events) w := by
  induction j generalizing es with
  | nil => simpa [Journal.events, Earns] using h
  | cons first rest ih => simpa [Journal.events] using ih h.2.2

theorem guards (h : Earns ws board es j w) (guards : World.Guards (ws.IsRecord board) w w') :
    Earns ws board es j w' := by
  induction j generalizing es with
  | nil => exact Workspace.Earned.guards h guards
  | cons first rest ih => exact ⟨h.1, h.2.1, ih h.2.2⟩

/-- What holds when an event of the journal happens. -/
theorem during {before after : Journal} (h : Earns ws board es (before ++ (e, w₁) :: after) w) :
    Fair (es ++ before.events) e ∧ ws.Earned board (es ++ before.events ++ [e]) w₁ := by
  induction before generalizing es with
  | nil => simpa [Journal.events] using And.intro h.1 h.2.1
  | cons first rest ih => simpa [Journal.events] using ih h.2.2

end Earns

/-- What a part of a run comes to: the events are in its journal, and the records are earned. -/
structure Goes (ws : Workspace) (board : String) (es : List Event) (r : Run) (w : World)
    (j : Journal) (result : Except Error Run) (w' : World) : Prop where
  earns : Earns ws board es j w'
  here : w'.here = w.here
  fits : ∀ r', result = .ok r' → r'.Fits ws board
  told : ∀ r', result = .ok r' → ∀ x ∈ r'.results, x ∈ r.results ∨ Told x j.events

theorem Goes.failed {e : Error} (earns : Earns ws board es j w') (here : w'.here = w.here) :
    Goes ws board es r w j (.error e) w' :=
  ⟨earns, here, by simp, by simp⟩

theorem goes_error {e : Error} (earned : ws.Earned board es w)
    (guards : World.Guards (ws.IsRecord board) w w') : Goes ws board es r w [] (.error e) w' :=
  .failed (earned.guards guards) guards.here

namespace Run

theorem fits_record {x : Stage.Result} (fits : r.Fits ws board) : (r.record x).Fits ws board :=
  ⟨fits.dir, fits.lock, fits.board⟩

theorem checkCache_apply (fits : r.Fits ws board) (d : ContentHash) (outputs : List String)
    (w : World) : r.checkCache stage d outputs w =
      if Stage.Cache.holds w (ws.records board) stage d outputs then
        (.ok (true, { r with cache := r.cache.count true }.record (.ofCache stage outputs)), w)
      else
        match (ws.records board).invalidate stage w with
        | (.ok _, w') => (.ok (false, { r with cache := r.cache.count false }), w')
        | (.error e, w') => (.error e, w') := by
  obtain ⟨name, lock, ⟨dir, hits, misses⟩, results, started⟩ := r
  obtain rfl : dir = ws.stagesDir board := fits.dir
  rw [checkCache, bind_apply]
  have looked : (⟨ws.stagesDir board, hits, misses⟩ : Stage.Cache).lookup stage d outputs w =
      (.ok (Stage.Cache.holds w (ws.records board) stage d outputs,
        (⟨ws.stagesDir board, hits, misses⟩ : Stage.Cache).count
          (Stage.Cache.holds w (ws.records board) stage d outputs)), w) := rfl
  rw [looked]
  cases Stage.Cache.holds w (ws.records board) stage d outputs with
  | true => rfl
  | false =>
    have taken : (⟨ws.stagesDir board, hits, misses + 1⟩ : Stage.Cache).invalidate stage =
        (ws.records board).invalidate stage := rfl
    simp only [Stage.Cache.count, Bool.false_eq_true, if_false]
    rw [bind_apply, taken]
    rcases (ws.records board).invalidate stage w with ⟨_ | _, _⟩ <;> rfl

/-- The check of a stage takes its record away unless it finds the digest there. -/
theorem checkCache_cases (stage : Stage) (ordinary : ws.Ordinary board) (fits : r.Fits ws board)
    (proper : w.files.Proper) (d : ContentHash) (outputs : List String) :
    (∃ r', r.checkCache stage d outputs w = (.ok (true, r'), w) ∧ r'.Fits ws board ∧
        r'.results = r.results ++ [.ofCache stage outputs] ∧ ws.Holds board w stage d) ∨
      (∃ r' w', r.checkCache stage d outputs w = (.ok (false, r'), w') ∧ r'.Fits ws board ∧
        r'.results = r.results ∧ World.Guards (ws.IsRecord board) w w' ∧
        w'.files.find? (ws.recordPlace board stage) = none) ∨
      ∃ error w', r.checkCache stage d outputs w = (.error error, w') ∧
        World.Guards (ws.IsRecord board) w w' := by
  have taken : GuardsAt (ws.IsRecord board) ((ws.records board).invalidate stage) w :=
    Workspace.guards_invalidate _ _ w proper rfl
  rw [checkCache_apply fits]
  by_cases hit : Stage.Cache.holds w (ws.records board) stage d outputs = true
  · refine .inl ⟨_, if_pos hit, ⟨fits.dir, fits.lock, fits.board⟩, rfl, ?_⟩
    simp only [Stage.Cache.holds, Bool.and_eq_true, beq_iff_eq] at hit
    exact Workspace.holds_of_recorded? ordinary hit.1.2
  · rw [if_neg hit]
    rw [GuardsAt] at taken
    rcases done : (ws.records board).invalidate stage w with ⟨e | _, w'⟩ <;> rw [done] at taken
    · exact .inr (.inr ⟨e, w', rfl, taken⟩)
    · exact .inr (.inl ⟨_, w', rfl, ⟨fits.dir, fits.lock, fits.board⟩, rfl, taken,
        Workspace.find?_of_invalidate ordinary proper done⟩)

/-- A task with the cache around it leaves only records that are earned. -/
theorem goes_perform (ordinary : ws.Ordinary board) (fits : r.Fits ws board)
    (conducts : t.Conducts (ws.IsRecord board) stage) (earned : ws.Earned board es w) :
    Goes ws board es r w (t.journal r w) (r.perform t w).1 (r.perform t w).2 := by
  rw [perform, bind_apply, Task.journal]
  obtain ⟨r₁, checked, fits₁, results, holds⟩ | ⟨r₁, w₁, checked, fits₁, results, guards, none⟩ |
    ⟨e, w₁, checked, guards⟩ := checkCache_cases t.stage ordinary fits earned.proper
      t.inputs.hash t.outputs
  · -- The record holds the digest, so the stage succeeded last for these inputs.
    rw [checked]
    have still := earned.append [.skipped t.stage t.inputs.hash] (by simp)
    refine ⟨⟨earned.succeeded _ _ holds, still, still⟩, rfl, ?_, ?_⟩
    · rintro _ ⟨⟩
      exact fits₁
    · rintro _ ⟨⟩ x mem
      rw [results] at mem
      rcases List.mem_append.mp mem with old | new
      · exact .inl old
      · rw [List.mem_singleton.mp new]
        exact .inr ⟨t.inputs.hash, List.mem_singleton_self _⟩
  · -- The record is away when the body is started.
    rw [checked]
    have started := (earned.guards guards).started none t.inputs.hash
    have body := conducts.guards r₁ w₁.here w₁ started.proper rfl
    rw [GuardsAt] at body
    dsimp only
    rw [if_neg Bool.false_ne_true, bind_apply]
    rcases done : t.body r₁ w₁ with ⟨e | x, w₂⟩ <;> rw [done] at body
    · have ended := (started.guards body).append [.ended t.stage false] (by simp)
      exact .failed ⟨trivial, started, trivial, ended, ended⟩ (body.here.trans guards.here)
    · have ended := (started.guards body).append [.ended t.stage true] (by simp)
      have cache : r₁.cache.store = (ws.records board).store := by
        funext stage d
        rw [Stage.Cache.store, Stage.Cache.store, Stage.Cache.hashPath, fits₁.dir]
        rfl
      obtain ⟨stored, here⟩ := Workspace.earned_store ordinary ended (succeededLast_ended es)
      dsimp only at stored here ⊢
      rw [cache, bind_apply]
      have here' := here.trans (body.here.trans guards.here)
      rcases saved : (ws.records board).store t.stage t.inputs.hash w₂ with ⟨_ | _, w₃⟩ <;>
        rw [saved] at stored here'
      · exact .failed ⟨trivial, started, trivial, ended, stored⟩ here'
      · obtain ⟨own, outcome⟩ := conducts.yields r₁ w₁ x w₂ done
        refine ⟨⟨trivial, started, trivial, ended, stored⟩, here', ?_, ?_⟩
        · rintro _ ⟨⟩
          exact fits_record fits₁
        · rintro _ ⟨⟩ y mem
          rcases List.mem_append.mp mem with old | new
          · exact .inl (results ▸ old)
          · rw [List.mem_singleton.mp new, Told, outcome, own]
            exact .inr fun _ => by simp [Journal.events, Except.isOk, Except.toBool]
  · rw [checked]
    exact goes_error earned guards

end Run

end BoardDesign
