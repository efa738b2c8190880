import BoardDesign.Proofs.Workspace.Conduct

/-!
# The steps of the work on a lock

* `read_eq`, `remove_eq` and their like: what each step of the work does;
* `sound_read`, `sound_writePrivate` and their like: every step is sound;
* `sound_publish`: who has published its file has the lock;
* `sound_reclaim`: the removal of a lock file is sound, though it may rob somebody.
-/

namespace BoardDesign.Workspace

open File
open Stage (Error)

namespace Lock

/-- What is made of the text of a lock file. -/
def outcome (path : String) : Except Fault String → Except Error (Option Holder)
  | .error .notFound => .ok none
  | .error fault => .error (.file path fault)
  | .ok text =>
    match (Json.parse text).bind Holder.ofJson? with
    | some h => .ok (some h)
    | none => .error (.unreadableLock path)

/-- What is made of the removal of a file. -/
def removed (path : String) (w : World) : Except Error Unit × World :=
  match w.removeFile path with
  | .ok w' => (.ok (), w')
  | .error .notFound => (.ok (), w)
  | .error fault => (.error (.file path fault), w)

theorem read_eq (path : String) :
    read path = (Work.atomic fun w => (outcome path (w.textAt path), w) : Work _) := by
  refine congrArg (Work.step _) (funext fun w => ?_)
  change Work.bind (Work.done (Except.ok (w.textAt path))) _ =
    Work.done (outcome path (w.textAt path))
  generalize w.textAt path = r
  rcases r with fault | text
  · cases fault <;> rfl
  · rw [outcome]
    cases holder : (Json.parse text).bind Holder.ofJson? with
    | none => simp [Work.bind, ExceptT.bindCont, holder]; rfl
    | some h => simp [Work.bind, ExceptT.bindCont, holder]; rfl


theorem remove_eq (path : String) : remove path = (Work.atomic (removed path) : Work _) := by
  refine congrArg₂ Work.step (funext fun w => ?_) (funext fun w => ?_)
  · change (Action.changing (·.removeFile path) w : Except Fault Unit × World).2 = _
    rw [Action.changing, removed]
    cases w.removeFile path with
    | ok w' => rfl
    | error fault => cases fault <;> rfl
  · change Work.bind (Work.done (Except.ok
      (Action.changing (·.removeFile path) w : Except Fault Unit × World).1)) _ =
        Work.done (removed path w).1
    rw [Action.changing, removed]
    cases w.removeFile path with
    | ok w' => rfl
    | error fault => cases fault <;> rfl

theorem steps_atomic_eq {α δ ε : Type} (account : δ → ε) (a : Action δ α) :
    Steps.atomic account a =
      (Work.atomic fun w => ((a w).1.mapError account, (a w).2) : Work _) := by
  refine congrArg (Work.step _) (funext fun w => ?_)
  change Work.bind (Work.done (Except.ok (a w).1)) _ = Work.done ((a w).1.mapError account)
  cases (a w).1 <;> rfl

theorem isAlive_eq (pid : Nat) :
    isAlive pid = (Work.atomic fun w => (.ok (decide (pid ∈ w.processes)), w) : Work _) := rfl

end Lock

variable {α β ε : Type} {path name : String} {p k : Nat} {n : Option Nat} {w w' : World}
  {during : Option Nat → World → Prop}

/-- Work that may fail after work that may fail. -/
theorem Sound.bindSteps {robbed : Work (Except ε β) → World → Prop}
    {post : Except ε β → Option Nat → World → Prop} {t : Steps ε α} {f : α → Steps ε β}
    (h : Sound path p during (fun t => robbed (Work.bind t (ExceptT.bindCont f)))
      (fun r n w => match r with
        | .ok a => Sound path p during robbed post (f a) n w
        | .error e => post (.error e) n w) t n w) :
    Sound path p during robbed post (t >>= f : Steps ε β) n w := by
  refine Sound.bind (h.mono fun r n w done => ?_)
  cases r with
  | ok a => exact done
  | error e => exact done

/-- Work that goes on with the outcome of an action, whatever it is. -/
theorem sound_attempt {robbed : Work (Except ε β) → World → Prop} {δ : Type} {a : Action δ α}
    {post : Except ε β → Option Nat → World → Prop} {f : Except δ α → Steps ε β}
    (h : ∀ w', Spares path p n w w' → w'.files.Closed → during n w' ∧
      Careful path p n w' (a w').2 ∧ Sound path p during robbed post (f (a w').1) n (a w').2) :
    Sound path p during robbed post (liftM (Work.attempt a) >>= f : Steps ε β) n w :=
  Sound.bindSteps (t := (Work.atomic fun w => (.ok (a w).1, (a w).2) : Work _)) (sound_atomic h)

/-- The private file of the `k`-th token is there. -/
def Written (path : String) (k : Nat) (content : List UInt8) (w : World) : Prop :=
  ∃ l name executable, w.Leads (Lock.privatePath path (World.tokenText k)) l name ∧
    w.files.find? (l ++ [name]) = some (.file content executable)

theorem Written.spares {content : List UInt8} (h : Written path k content w)
    (spared : Spares path p (some k) w w') : Written path k content w' := by
  obtain ⟨l, name, executable, leads, file⟩ := h
  refine ⟨l, name, executable, spared.keeps.leads leads, ?_⟩
  have own := spared.own k (.file content executable) rfl
  rw [Lock.privatePlace, leads.placeOf] at own
  exact own file

/-- A lock file that names somebody is left as it is. -/
structure Leaves (path : String) (w w' : World) : Prop where
  keeps : w.Keeps w'
  lock : ∀ h, Lock.named? path w = some h → Lock.named? path w' = some h

section Named

variable (named : Lock.Named path name)
include named

theorem Vacant.named?_eq_none (h : Vacant path w) : Lock.named? path w = none := by
  obtain ⟨l, other, leads, free⟩ := h
  obtain rfl := named.name_eq leads
  exact Lock.named?_of_free named leads free

theorem leaves_of_touches {places : List Location} (h : w.Touches w' places)
    (elsewhere : w.placeOf path ∉ places) : Leaves path w w' := by
  refine ⟨h.keeps, fun holder names => Lock.named?_keeps named h.keeps ?_ names⟩
  obtain ⟨l, content, executable, leads, file, _⟩ := Lock.exists_file_of_named? named names
  rw [leads.placeOf] at elsewhere ⊢
  rw [file, h.rest _ _ elsewhere file]

theorem sound_read {robbed : Work (Except Error (Option Holder)) → World → Prop}
    {post : Except Error (Option Holder) → Option Nat → World → Prop}
    (h : ∀ w', Spares path p n w w' →
      during n w' ∧ post (Lock.outcome path (w'.textAt path)) n w') :
    Sound path p during robbed post (Lock.read path) n w := by
  rw [Lock.read_eq]
  refine sound_atomic fun w' spared closed => ?_
  obtain ⟨now, done⟩ := h w' spared
  exact ⟨now, careful_self named closed, done⟩

theorem sound_writePrivate {h : Holder} {robbed : Work (Except Error Unit) → World → Prop}
    {post : Except Error Unit → Option Nat → World → Prop}
    (now : ∀ w', Spares path p (some k) w w' → during (some k) w')
    (made : ∀ w' w'', Spares path p (some k) w w' → Leaves path w' w'' →
      Written path k h.bytes w'' → post (.ok ()) (some k) w'')
    (failed : ∀ w' e, Spares path p (some k) w w' → post (.error e) (some k) w') :
    Sound path p during robbed post
      (Lock.writePrivate (Lock.privatePath path (World.tokenText k)) h) (some k) w := by
  rw [Lock.writePrivate, Lock.steps_atomic_eq]
  refine sound_atomic fun w' spared closed => ⟨now w' spared, ?_⟩
  rw [Action.create, Action.changing]
  cases created : w'.create (Lock.privatePath path (World.tokenText k)) h.bytes with
  | error e =>
    exact ⟨careful_self named closed, failed w' _ spared⟩
  | ok w'' =>
    obtain ⟨l, other, leads, free, rfl⟩ := World.create_eq_ok created
    have touches := World.touches_insert closed h.bytes false leads.dir_find? free
    have place : l ++ [other] = Lock.privatePlace path w' k := leads.placeOf.symm
    refine ⟨careful_of_touches named touches ?_, made w' _ spared ?_ ?_⟩
    · simp only [List.mem_singleton, forall_eq]
      exact .inl ⟨k, rfl, place⟩
    · refine leaves_of_touches named touches ?_
      rw [List.mem_singleton, place]
      exact Ne.symm (Lock.privatePlace_ne_place named k)
    · refine ⟨l, other, false, touches.keeps.leads leads, ?_⟩
      rw [Tree.find?_insert (by simp), if_pos rfl]

theorem sound_removePrivate {robbed : Work (Except Error Unit) → World → Prop}
    {post : Except Error Unit → Option Nat → World → Prop}
    (now : ∀ w', Spares path p (some k) w w' → during (some k) w')
    (done : ∀ r w' w'', Spares path p (some k) w w' → Leaves path w' w'' →
      post r (some k) w'') :
    Sound path p during robbed post
      (Lock.remove (Lock.privatePath path (World.tokenText k))) (some k) w := by
  rw [Lock.remove_eq]
  refine sound_atomic fun w' spared closed => ⟨now w' spared, ?_⟩
  have unchanged : ∀ r, Careful path p (some k) w' w' ∧ post r (some k) w' := fun r =>
    ⟨careful_self named closed,
      done r w' w' spared ⟨.refl w', fun _ names => names⟩⟩
  rw [Lock.removed]
  cases erased : w'.removeFile (Lock.privatePath path (World.tokenText k)) with
  | error fault => cases fault <;> exact unchanged _
  | ok w'' =>
    obtain ⟨l, located, noDir, rfl⟩ := World.removeFile_eq_ok erased
    have place : l = Lock.privatePlace path w' k := World.locate_eq_ok located
    have touches := World.touches_erase closed noDir
    refine ⟨careful_of_touches named touches ?_, done _ w' _ spared ?_⟩
    · simp only [List.mem_singleton, forall_eq]
      exact .inl ⟨k, rfl, place⟩
    · refine leaves_of_touches named touches ?_
      rw [List.mem_singleton, place]
      exact Ne.symm (Lock.privatePlace_ne_place named k)

/-- A private file that is linked to the place of the lock names its holder there. -/
theorem named?_of_link {h : Holder} (small : h.pid < Nat.pow 2 32)
    (written : Written path k h.bytes w)
    (linked : w.link (Lock.privatePath path (World.tokenText k)) path = .ok w')
    (closed : w.files.Closed) :
    Careful path p n w w' ∧ Lock.named? path w' = some h := by
  obtain ⟨l, name', executable, private', file⟩ := written
  obtain ⟨node, m, other, source, leads, free, rfl⟩ := World.link_eq_ok linked
  obtain rfl := named.name_eq leads
  have slash := named.endsWithSlash_privatePath (World.not_mem_tokenText (n := k) (.inl rfl))
  rw [private'.nodeAt slash file] at source
  cases source
  have touches := World.touches_insert closed h.bytes executable leads.dir_find? free
  refine ⟨careful_of_touches named touches ?_, ?_⟩
  · simp only [List.mem_singleton, forall_eq]
    refine .inr ⟨leads.placeOf.symm, fun holder _ _ names => ?_⟩
    rw [Lock.named?_of_free named leads free] at names
    cases names
  · rw [Lock.named?_of_file named (touches.keeps.leads leads)
      (by rw [Tree.find?_insert (by simp), if_pos rfl]), Holder.ofBytes?_bytes small]

/-- A private file that is moved to the place of the lock names its holder there. -/
theorem named?_of_rename {h : Holder} (small : h.pid < Nat.pow 2 32)
    (written : Written path k h.bytes w)
    (renamed : w.rename (Lock.privatePath path (World.tokenText k)) path = .ok w')
    (closed : w.files.Closed) (vacant : ∀ h : Holder, h.pid ≠ p → h.pid ∈ w.processes →
      Lock.named? path w ≠ some h) :
    Careful path p (some k) w w' ∧ Lock.named? path w' = some h := by
  obtain ⟨l, other, executable, private', file⟩ := written
  rw [← private'.placeOf] at file
  have apart : Lock.privatePlace path w k ≠ w.placeOf path := Lock.privatePlace_ne_place named k
  obtain ⟨m, last, leads, noDir, rfl⟩ := World.rename_eq_ok renamed file apart
  obtain rfl := named.name_eq leads
  rw [leads.placeOf] at apart
  have touches := World.touches_moveFile closed file leads.dir_find? noDir apart
  refine ⟨careful_of_touches named touches ?_, ?_⟩
  · simp only [List.mem_cons, List.not_mem_nil, or_false, forall_eq_or_imp, forall_eq]
    exact ⟨.inl ⟨k, rfl, rfl⟩, .inr ⟨leads.placeOf.symm, vacant⟩⟩
  · rw [Lock.named?_of_file named (touches.keeps.leads leads)
      (by rw [closed.find?_moveFile file noDir apart, Tree.find?_insert (by simp), if_pos rfl]),
      Holder.ofBytes?_bytes small]

/-- Who has published its file has the lock. -/
theorem sound_publish {h : Holder} (pid : h.pid = p) (small : p < Nat.pow 2 32)
    (token : h.token = World.tokenText k) {robbed : Work (Except Error Bool) → World → Prop}
    {post : Except Error Bool → Option Nat → World → Prop}
    (won : ∀ w', Lock.named? path w' = some h → post (.ok true) (some k) w')
    (lost : ∀ w', post (.ok false) (some k) w')
    (failed : ∀ e w', post (.error e) (some k) w') :
    Sound path p (fun _ _ => True) robbed post (Lock.publish path h) (some k) w := by
  rw [Lock.publish, token]
  refine Sound.bindSteps (sound_writePrivate named (fun _ _ => trivial) ?_
    fun w' e _ => failed e w')
  intro w₀ w₁ _ _ written
  refine sound_attempt fun w₂ spared closed => ⟨trivial, ?_⟩
  rw [Action.link, Action.changing]
  cases linked : w₂.link (Lock.privatePath path (World.tokenText k)) path with
  | error fault =>
    refine ⟨careful_self named closed, ?_⟩
    refine Sound.bindSteps (sound_removePrivate named (fun _ _ => trivial) fun r _ w₄ _ _ => ?_)
    cases r with
    | error e => exact failed e w₄
    | ok _ =>
      cases fault
      case «exists» => exact lost w₄
      all_goals exact failed _ w₄
  | ok w₃ =>
    obtain ⟨careful, names⟩ := named?_of_link named (pid.symm ▸ small) (written.spares spared)
      linked closed
    refine ⟨careful, ?_⟩
    refine Sound.bindSteps (sound_removePrivate named (fun _ _ => trivial)
      fun r _ w₅ spared leaves => ?_)
    cases r with
    | error e => exact failed e w₅
    | ok _ => exact won w₅ (leaves.lock h (spared.lock h pid names))

theorem careful_of_removeFile (removed : w.removeFile path = .ok w') (closed : w.files.Closed)
    (vacant : ∀ h : Holder, h.pid ≠ p → h.pid ∈ w.processes → Lock.named? path w ≠ some h) :
    Careful path p n w w' := by
  obtain ⟨l, located, noDir, rfl⟩ := World.removeFile_eq_ok removed
  refine careful_of_touches named (World.touches_erase closed noDir) ?_
  simp only [List.mem_singleton, forall_eq]
  exact .inr ⟨World.locate_eq_ok located, vacant⟩

/-- The removal of a lock file robs nobody but a process that runs and has its file there. -/
theorem sound_reclaim {robbed : Work (Except Error Unit) → World → Prop}
    {post : Except Error Unit → Option Nat → World → Prop}
    (vacated : ∀ w', Vacant path w' → robbed (.done (.ok ())) w')
    (done : ∀ r w', post r n w') :
    Sound path p (fun _ _ => True) robbed post (Lock.remove path) n w := by
  rw [Lock.remove_eq]
  intro w' _ closed
  refine ⟨trivial, ?_⟩
  dsimp only
  have unchanged : ∀ r, ∃ n', Careful path p n w' w' ∧ Numbered n n' w' w' ∧
      Sound path p (fun _ _ => True) robbed post (.done r) n' w' := fun r =>
    ⟨n, careful_self named closed, .inl rfl, done r w'⟩
  rw [Lock.removed]
  cases erased : w'.removeFile path with
  | error fault => cases fault <;> exact .inr (unchanged _)
  | ok w'' =>
    by_cases vacant : ∀ h : Holder, h.pid ≠ p → h.pid ∈ w'.processes →
        Lock.named? path w' ≠ some h
    · exact .inr ⟨n, careful_of_removeFile named erased closed vacant, .inl rfl, done _ _⟩
    · push Not at vacant
      obtain ⟨h, other, runs, names⟩ := vacant
      obtain ⟨l, located, noDir, rfl⟩ := World.removeFile_eq_ok erased
      obtain ⟨m, _, _, leads, _, _⟩ := Lock.exists_file_of_named? named names
      have free : Vacant path { w' with files := w'.files.erase l } := by
        refine ⟨m, name, (World.keeps_erase noDir).leads leads, ?_⟩
        rw [World.locate_eq_ok located, leads.placeOf, Tree.find?_erase (by simp), if_pos rfl]
      exact .inl ⟨⟨⟨h.pid, other, runs, ⟨h, names, rfl⟩, free.named?_eq_none named⟩, free, rfl⟩,
        vacated _ free⟩

end Named

end BoardDesign.Workspace
