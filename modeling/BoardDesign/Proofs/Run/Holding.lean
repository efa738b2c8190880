import BoardDesign.Proofs.File.Passing
import BoardDesign.Proofs.Run.Spared
import BoardDesign.Proofs.Workspace.Alone

/-!
# A lock that is held alone

What becomes of the lock of a board when nobody else acts.

* `Published`: the outcomes of an attempt to put a lock file into its place;
* `alike_of_refused`: who does not get the lock leaves everything as it was;
* `held_of_acquire`: who gets it has its file there;
* `held_of_setStage`, `free_of_release`: the file stays until the lock is given up, and then there
  is none.
-/

namespace BoardDesign

open File File.Path World Action
open Stage (EndsAsRecord Error)

variable {ε δ α : Type} {w w' w₁ w₂ w₃ : World} {path name : String} {k : Nat}

namespace World

theorem step_ne_exists (w : World) (l : Location) (name : String) :
    w.step l name ≠ .error .exists := by
  unfold step
  split
  · simp
  split
  · simp
  split
  · simp
  split
  · simp
  split <;> simp

theorem walk_ne_exists (w : World) (l : Location) (names : List String) :
    w.walk l names ≠ .error .exists := by
  induction names generalizing l with
  | nil => simp [walk]
  | cons name rest ih =>
    rw [walk]
    cases first : w.step l name with
    | error e =>
      intro same
      cases same
      exact step_ne_exists w l name first
    | ok k => exact ih k

/-- Where something may be made under a name is found, or the way there cannot be gone. -/
theorem locateNew_cases {before : List String} (whole : names path = before ++ [name])
    (noDots : name ≠ "." ∧ name ≠ "..") :
    (∃ l, w.locateNew path = .ok (.inr (l, name))) ∨
      ∃ e, w.locateNew path = .error e ∧ e ≠ .exists := by
  have parts : (names path).reverse = name :: before.reverse := by simp [whole]
  unfold locateNew
  cases begins : w.origin path with
  | error e =>
    refine .inr ⟨e, rfl, ?_⟩
    rintro rfl
    unfold origin at begins
    split at begins
    · cases begins
    split at begins
    · cases begins
    split at begins <;> cases begins
  | ok start =>
    simp only [bind, Except.bind, parts, List.reverse_reverse]
    cases walked : w.walk start before with
    | error e => exact .inr ⟨e, rfl, fun same => walk_ne_exists w start before (same ▸ walked)⟩
    | ok l =>
      simp only [noDots.1, noDots.2, decide_false, Bool.or_self, Bool.false_eq_true, if_false]
      split
      · exact .inr ⟨_, rfl, by simp⟩
      · split
        · exact .inr ⟨_, rfl, by simp⟩
        · exact .inl ⟨l, rfl⟩

end World

/-- The same things lie at the same places. -/
structure World.Alike (w w' : World) : Prop where
  here : w'.here = w.here
  same : ∀ l, w'.files.find? l = w.files.find? l

theorem World.Alike.refl (w : World) : w.Alike w := ⟨rfl, fun _ => rfl⟩

theorem World.Alike.trans (h : w.Alike w₁) (h' : w₁.Alike w₂) : w.Alike w₂ :=
  ⟨h'.here.trans h.here, fun l => (h'.same l).trans (h.same l)⟩

theorem World.Alike.keeps (h : w.Alike w') : w.Keeps w' :=
  ⟨h.here, fun l dir => (h.same l).trans dir⟩

/-- The same things lie at all places but one. -/
structure World.AlikeBut (place : Location) (w w' : World) : Prop where
  here : w'.here = w.here
  same : ∀ l, l ≠ place → w'.files.find? l = w.files.find? l

namespace Workspace

/-- The lock file of a holder with a token. -/
def OwnFile (token : String) (n : Node) : Prop :=
  ∃ h : Holder, ∃ executable, n = .file h.bytes executable ∧ h.token = token ∧
    h.pid < Nat.pow 2 32

namespace Lock

theorem alone_read (path : String) (w : World) :
    (read path).alone w = (outcome path (w.textAt path), w) := by
  rw [read_eq]
  rfl

theorem alone_remove (path : String) (w : World) : (remove path).alone w = removed path w := by
  rw [remove_eq]
  rfl

theorem alone_attempt (a : Action δ α) (w : World) :
    (liftM (Work.attempt a) : Steps ε _).alone w = (.ok (a w).1, (a w).2) := rfl

/-! ## Attempts -/

/-- The private file of a holder can be written. -/
def Writable (path token : String) (w : World) : Prop := Vacant (privatePath path token) w

/-- The private file of a holder has been written, and can be removed without a trace. -/
structure Wrote (path : String) (h : Holder) (w w₁ : World) : Prop where
  keeps : w.Keeps w₁
  writable : Writable path h.token w
  node : w₁.nodeAt (privatePath path h.token) = .ok (.file h.bytes false)
  others : ∀ m, m ≠ w.placeOf (privatePath path h.token) → w₁.files.find? m = w.files.find? m
  removed : ∃ v, w₁.removeFile (privatePath path h.token) = .ok v ∧ w.Alike v ∧ w₁.Keeps v

/-- What comes of an attempt to put a lock file into its place. -/
inductive Published (path : String) (h : Holder) (w : World) : Except Error Bool × World → Prop
  | failed {e : Error} {v : World} (alike : w.Alike v) : Published path h w (.error e, v)
  | lost {l : Location} {name : String} {n : Node} {v : World} (alike : w.Alike v)
      (writable : Writable path h.token v) (leads : v.Leads path l name)
      (found : v.files.find? (l ++ [name]) = some n) : Published path h w (.ok false, v)
  | won {v : World} (but : w.AlikeBut (w.placeOf path) v)
      (found : v.files.find? (w.placeOf path) = some (.file h.bytes false)) :
      Published path h w (.ok true, v)

section Named

variable {h : Holder} (named : Named path name)
include named

theorem wrote_of_create (token : h.token = tokenText k)
    (created : w.create (privatePath path h.token) h.bytes = .ok w₁) : Wrote path h w w₁ := by
  obtain ⟨l, other, leads, free, rfl⟩ := create_eq_ok created
  have slash := named.endsWithSlash_privatePath (not_mem_tokenText (n := k) (.inl rfl))
  rw [← token] at slash
  have keeps : w.Keeps { w with files := w.files.insert (l ++ [other]) (.file h.bytes false) } :=
    keeps_insert (by simp [free])
  have file := find?_insert' (t := w.files) (n := .file h.bytes false) (l := l ++ [other]) (by simp)
  have here := (file (l ++ [other])).trans (if_pos rfl)
  have noDir : (w.files.insert (l ++ [other]) (.file h.bytes false)).find? (l ++ [other]) ≠
      some .dir := by simp [here]
  refine ⟨keeps, ⟨l, other, leads, free⟩, (keeps.leads leads).nodeAt slash here,
    fun m apart => ?_, _, (keeps.leads leads).removeFile slash noDir (by simp [here]),
    ⟨rfl, fun m => ?_⟩, keeps_erase noDir⟩
  · rw [leads.placeOf] at apart
    exact (file m).trans (if_neg apart)
  · by_cases root : m = []
    · simp [root]
    rw [Tree.find?_erase root]
    by_cases same : m = l ++ [other]
    · rw [if_pos same, same, free]
    · rw [if_neg same]
      exact (file m).trans (if_neg same)

/-- A link that fails because there is something finds it where the lock file belongs. -/
theorem occupied_of_link {source : String} {n : Node} (there : w.nodeAt source = .ok n)
    (failed : w.link source path = .error .exists) :
    ∃ l n, w.Leads path l name ∧ w.files.find? (l ++ [name]) = some n := by
  obtain ⟨before, whole⟩ := named.exists_names
  unfold World.link at failed
  simp only [there, bind, Except.bind] at failed
  rcases locateNew_cases (w := w) whole named.no_dots with ⟨l, located⟩ | ⟨e, located, other⟩ <;>
    rw [located] at failed <;> dsimp only at failed
  · split at failed
    · rename_i found
      obtain ⟨n, found⟩ := Option.isSome_iff_exists.mp found
      exact ⟨l, n, leads_of_locateNew located, found⟩
    · cases failed
  · cases failed
    exact absurd rfl other

section Created

variable (token : h.token = tokenText k)
  (created : w.create (privatePath path h.token) h.bytes = .ok w₁)
include token created

omit named token in
theorem alone_writePrivate :
    (writePrivate (privatePath path h.token) h).alone w = (.ok (), w₁) := by
  rw [writePrivate, Steps.alone_atomic, mapError, Action.create, changing, created]

theorem won_of_link (linked : w₁.link (privatePath path h.token) path = .ok w₂) :
    ∃ v, (publish path h).alone w = (.ok true, v) ∧ w.AlikeBut (w.placeOf path) v ∧
      v.files.find? (w.placeOf path) = some (.file h.bytes false) := by
  obtain ⟨keeps, -, node, others, -⟩ := wrote_of_create named token created
  obtain ⟨n, m, last, there, leads, free, made⟩ := link_eq_ok linked
  cases node.symm.trans there
  obtain ⟨l, other, leads', unused, written⟩ := create_eq_ok created
  have slash := named.endsWithSlash_privatePath (not_mem_tokenText (n := k) (.inl rfl))
  rw [← token] at slash
  have apart : m ++ [last] ≠ l ++ [other] := by
    rw [← leads.placeOf, keeps.placeOf, ← leads'.placeOf, token]
    exact Ne.symm (privatePlace_ne_place named k)
  have file : w₁.files.find? (l ++ [other]) = some (.file h.bytes false) := by
    rw [written]
    exact (find?_insert' (by simp) _).trans (if_pos rfl)
  have found (place : Location) :
      w₂.files.find? place = if place = m ++ [last] then some (.file h.bytes false)
        else w₁.files.find? place := by
    rw [made]
    exact find?_insert' (by simp) _
  have keeps' : w₁.Keeps w₂ := made ▸ keeps_insert (by simp [free])
  have file' : w₂.files.find? (l ++ [other]) = some (.file h.bytes false) := by
    rw [found, if_neg apart.symm, file]
  have removed := ((keeps.trans keeps').leads leads').removeFile slash (by simp [file'])
    (by simp [file'])
  refine ⟨{ w₂ with files := w₂.files.erase (l ++ [other]) }, ?_, ?_, ?_⟩
  · rw [publish, Steps.alone_bind, bind_apply, alone_writePrivate created]
    dsimp only
    rw [Steps.alone_bind, bind_apply, alone_attempt, Action.link, changing, linked]
    dsimp only
    rw [Steps.alone_bind, bind_apply, alone_remove, Lock.removed, removed]
    rfl
  · refine ⟨(keeps.trans keeps').here, fun place off => ?_⟩
    rw [← keeps.placeOf, leads.placeOf] at off
    by_cases root : place = []
    · simp [root]
    rw [Tree.find?_erase root]
    by_cases own : place = l ++ [other]
    · rw [if_pos own, own, unused]
    · rw [if_neg own, found, if_neg off, others place (leads'.placeOf ▸ own)]
  · rw [← keeps.placeOf, leads.placeOf, Tree.find?_erase (by simp), if_neg apart, found, if_pos rfl]

theorem published_of_created : Published path h w ((publish path h).alone w) := by
  obtain ⟨keeps, ⟨l, other, leads, free⟩, node, others, v, removed, alike, back⟩ :=
    wrote_of_create named token created
  cases linked : w₁.link (privatePath path h.token) path with
  | ok w₂ =>
    obtain ⟨v, outcome, but, found⟩ := won_of_link named token created linked
    rw [outcome]
    exact .won but found
  | error fault =>
    rw [publish, Steps.alone_bind, bind_apply, alone_writePrivate created]
    dsimp only
    rw [Steps.alone_bind, bind_apply, alone_attempt, Action.link, changing, linked]
    dsimp only
    rw [Steps.alone_bind, bind_apply, alone_remove, Lock.removed, removed]
    cases fault
    case «exists» =>
      obtain ⟨m, n, leads', found⟩ := occupied_of_link named node linked
      refine .lost alike ⟨l, other, alike.keeps.leads leads, (alike.same _).trans free⟩
        (back.leads leads') (n := n) ?_
      have apart : m ++ [name] ≠ w.placeOf (privatePath path h.token) := by
        rw [← leads'.placeOf, keeps.placeOf, token]
        exact Ne.symm (privatePlace_ne_place named k)
      rw [alike.same, ← others _ apart, found]
    all_goals exact .failed alike

end Created

/-- Whoever can write its private file gets a lock that nobody has. -/
theorem won_of_vacant (token : h.token = tokenText k) (writable : Writable path h.token w)
    (vacant : Vacant path w) :
    ∃ v, (publish path h).alone w = (.ok true, v) ∧ w.AlikeBut (w.placeOf path) v ∧
      v.files.find? (w.placeOf path) = some (.file h.bytes false) := by
  obtain ⟨l, other, leads, free⟩ := writable
  have slash := named.endsWithSlash_privatePath (not_mem_tokenText (n := k) (.inl rfl))
  rw [← token] at slash
  have created := leads.create slash free h.bytes
  obtain ⟨keeps, -, node, others, -⟩ := wrote_of_create named token created
  obtain ⟨m, last, leads', free'⟩ := vacant
  have apart : m ++ [last] ≠ w.placeOf (privatePath path h.token) := by
    rw [← leads'.placeOf, token]
    exact Ne.symm (privatePlace_ne_place named k)
  exact won_of_link named token created
    ((keeps.leads leads').link node ((others _ apart).trans free'))

theorem published_publish (token : h.token = tokenText k) (w : World) :
    Published path h w ((publish path h).alone w) := by
  cases created : w.create (privatePath path h.token) h.bytes with
  | error fault =>
    rw [publish, Steps.alone_bind, bind_apply, writePrivate, Steps.alone_atomic, mapError,
      Action.create, changing, created]
    exact .failed (.refl w)
  | ok w₁ => exact published_of_created named token created

/-- What is read where something lies is never that nothing is there, and a holder is read from a
file. -/
theorem read_of_found {l : Location} {n : Node} (leads : w.Leads path l name)
    (found : w.files.find? (l ++ [name]) = some n) :
    (∃ e, outcome path (w.textAt path) = .error e) ∨
      n ≠ .dir ∧ ∃ other, outcome path (w.textAt path) = .ok (some other) := by
  have node := leads.nodeAt named.endsWithSlash found
  cases n with
  | dir =>
    have text : w.textAt path = .error .isDirectory := by
      simp [textAt, bytesAt, node, bind, Except.bind]
    exact .inl ⟨.file path .isDirectory, by rw [text]; rfl⟩
  | file content executable =>
    cases decoded : Text.Utf8.text? content with
    | none =>
      have text : w.textAt path = .error .notText := by
        simp [textAt, bytesAt, node, decoded, bind, Except.bind]
      exact .inl ⟨.file path .notText, by rw [text]; rfl⟩
    | some s =>
      have text : w.textAt path = .ok s := by
        simp [textAt, bytesAt, node, decoded, bind, Except.bind]
      rw [text]
      cases holder : (Json.parse s).bind Holder.ofJson? with
      | none => exact .inl ⟨.unreadableLock path, by simp [outcome, holder]⟩
      | some other => exact .inr ⟨by simp, other, by simp [outcome, holder]⟩

/-- Who gets the lock has its file there, and who does not leaves everything as it was: a lock that
is taken away from a holder that does not run is had at the second attempt. -/
theorem acquireWithin_cases (board : String) (token : h.token = tokenText k) (more : Nat)
    (w : World) :
    (∃ e v, (acquireWithin path board h (more + 2)).alone w = (.error e, v) ∧ w.Alike v) ∨
      ∃ v, (acquireWithin path board h (more + 2)).alone w = (.ok (), v) ∧
        w.AlikeBut (w.placeOf path) v ∧
        v.files.find? (w.placeOf path) = some (.file h.bytes false) := by
  have published := published_publish named token w
  rw [acquireWithin, Steps.alone_bind, bind_apply]
  generalize (publish path h).alone w = result at published
  cases published with
  | failed alike => exact .inl ⟨_, _, rfl, alike⟩
  | won but found => exact .inr ⟨_, rfl, but, found⟩
  | @lost l last n v alike writable leads found =>
    obtain rfl := named.name_eq leads
    dsimp only
    rw [if_neg Bool.false_ne_true, Steps.alone_bind, bind_apply, alone_read]
    obtain ⟨e, failed⟩ | ⟨noDir, other, read⟩ := read_of_found named leads found
    · exact .inl ⟨e, v, by rw [failed], alike⟩
    rw [read]
    dsimp only
    have alive : (isAlive other.pid).alone v = (.ok (decide (other.pid ∈ v.processes)), v) := rfl
    rw [Steps.alone_bind, bind_apply, alive]
    dsimp only
    by_cases runs : other.pid ∈ v.processes
    · exact .inl ⟨contention board other, v, by rw [if_pos (by simpa using runs)]; rfl, alike⟩
    -- The holder does not run, so its lock is taken away and the next attempt succeeds.
    rw [if_neg (by simpa using runs)]
    have removed := leads.removeFile named.endsWithSlash (by simpa [found] using noDir)
      (by simp [found])
    have keeps : v.Keeps { v with files := v.files.erase (l ++ [last]) } :=
      keeps_erase (by simpa [found] using noDir)
    have free : (v.files.erase (l ++ [last])).find? (l ++ [last]) = none := by
      rw [Tree.find?_erase (by simp), if_pos rfl]
    obtain ⟨k, other, private', vacant⟩ := writable
    have vacant' : (v.files.erase (l ++ [last])).find? (k ++ [other]) = none := by
      rw [Tree.find?_erase (by simp), vacant, ite_self]
    obtain ⟨u, again, but, there⟩ := won_of_vacant named token
      (w := { v with files := v.files.erase (l ++ [last]) })
      ⟨k, other, keeps.leads private', vacant'⟩ ⟨l, last, keeps.leads leads, free⟩
    refine .inr ⟨u, ?_, ⟨but.here.trans alike.here, fun place off => ?_⟩, ?_⟩
    · rw [Steps.alone_bind, bind_apply, alone_remove, Lock.removed, removed]
      dsimp only
      rw [acquireWithin, Steps.alone_bind, bind_apply, again]
      rfl
    · rw [← alike.keeps.placeOf] at off
      rw [but.same place (keeps.placeOf path ▸ off), ← alike.same]
      by_cases root : place = []
      · simp [root]
      · exact (Tree.find?_erase root).trans (if_neg (leads.placeOf ▸ off))
    · rw [← alike.keeps.placeOf, ← keeps.placeOf]
      exact there

end Named

/-! ## The lock taken -/

section Acquire

variable {self : Nat} {locksDir board : String} {stage : Stage} {l : Lock} {e : Error}

theorem makeDirs_alone (account : Fault → ε) (path : String) (w : World) :
    ((Steps.atomic account (Action.makeDirs path) : Steps ε Unit).alone w).2 =
      (w.makeDirs path).2 := by
  rw [Steps.alone_atomic, mapError, Action.makeDirs, ofPair]
  rcases w.makeDirs path with ⟨_ | _, _⟩ <;> rfl

/-- Who gets the lock has its file there. Who does not changes nothing but for the directories on
the way to the locks. -/
theorem acquire_cases (self : Nat) (locksDir board : String) (stage : Stage) (w : World) :
    (∃ e v, (acquire self locksDir board stage).alone w = (.error e, v) ∧ v.here = w.here ∧
      ∀ m, ¬ Through w.here locksDir m → v.files.find? m = w.files.find? m) ∨
    ∃ l v, (acquire self locksDir board stage).alone w = (.ok l, v) ∧
      l.path = pathFor locksDir board ∧ l.holder.pid = self ∧ v.here = w.here ∧
      v.files.find? (w.placeOf l.path) = some (.file l.holder.bytes false) := by
  obtain ⟨name, named⟩ := exists_named locksDir board
  have here := (makeDirs_adds w locksDir).keeps.here
  have same : ∀ m, ¬ Through w.here locksDir m →
      (w.makeDirs locksDir).2.files.find? m = w.files.find? m :=
    fun m off => (find?_of_makeDirsFrom _ m).resolve_right off
  have left := makeDirs_alone (Error.file locksDir) locksDir w
  rw [acquire, Steps.alone_bind, bind_apply]
  rcases made : (Steps.atomic (Error.file locksDir) (Action.makeDirs locksDir) :
    Steps Error Unit).alone w with ⟨e | _, v⟩ <;> rw [made] at left <;> dsimp only at left ⊢
  · subst left
    exact .inl ⟨e, _, rfl, here, same⟩
  rw [← left] at here same
  rw [Steps.alone_bind, bind_apply, alone_freshToken]
  dsimp only
  rw [Steps.alone_bind, bind_apply]
  obtain ⟨e, u, failed, alike⟩ | ⟨u, done, but, found⟩ := acquireWithin_cases named
    (h := ⟨self, stage.id, tokenText v.serial⟩) board rfl 0 { v with serial := v.serial + 1 }
  · refine .inl ⟨e, u, ?_, alike.here.trans here, fun m off => (alike.same m).trans (same m off)⟩
    rw [attempts, failed]
  · refine .inr ⟨_, u, by rw [attempts, done]; rfl, rfl, rfl, but.here.trans here, ?_⟩
    rw [placeOf_eq, ← here]
    exact found

theorem held_of_acquire (small : self < Nat.pow 2 32) (proper : w.files.Proper)
    (done : (acquire self locksDir board stage).alone w = (.ok l, w')) :
    Only w.here (placeFrom w.here l.path) (OwnFile l.holder.token) w' := by
  have guards : World.Guards EndsAsRecord w w' :=
    (guards_acquire self locksDir board stage).of_done proper done
  obtain ⟨e, v, failed, -⟩ | ⟨l', v, done', -, pid, -, found⟩ :=
    acquire_cases self locksDir board stage w
  · cases done.symm.trans failed
  · cases done.symm.trans done'
    refine ⟨guards.here, guards.proper, fun n there => ?_⟩
    cases found.symm.trans there
    exact ⟨l.holder, false, rfl, rfl, pid ▸ small⟩

end Acquire

/-! ## The lock held and given up -/

variable {l : Lock}

theorem run_read (path : String) (w : World) :
    Work.run (read path) w = (outcome path (w.textAt path), w) := by
  rw [read_eq]
  rfl

/-- A lock file with the token of the lock is removed. -/
theorem release_of_own {h : Holder} (own : outcome l.path (w.textAt l.path) = .ok (some h))
    (token : h.token = l.holder.token) (removed : w.removeFile l.path = .ok w') :
    (l.release.run w).2 = w' := by
  rw [release]
  change (Work.run (Work.bind (read l.path) _) w).2 = _
  rw [Work.run_bind, run_read]
  dsimp only
  rw [own]
  dsimp only
  rw [if_pos token]
  change (Action.changing (·.removeFile l.path) w : Except Fault Unit × World).2 = _
  rw [changing, removed]

theorem setStage_eq_ok {l' : Lock} {stage : Stage}
    (done : (l.setStage stage).alone w = (.ok l', w')) :
    l' = { l with holder := { l.holder with stage := stage.id } } := by
  rw [setStage, Steps.alone_bind] at done
  obtain ⟨_, w₁, -, done⟩ := bind_eq_ok done
  rw [Steps.alone_bind] at done
  obtain ⟨_, w₂, -, done⟩ := bind_eq_ok done
  cases done
  rfl

/-- Giving up a lock removes its file or nothing. -/
theorem release_cases (l : Lock) (w : World) : (l.release.run w).2 = w ∨
    ∃ place, w.locate l.path = .ok place ∧
      (l.release.run w).2 = { w with files := w.files.erase place } := by
  rw [release]
  change (Work.run (Work.bind (read l.path) _) w).2 = w ∨ ∃ place, _ ∧
    (Work.run (Work.bind (read l.path) _) w).2 = _
  rw [Work.run_bind, run_read]
  dsimp only
  split
  · split
    · change (Action.changing (·.removeFile l.path) w : Except Fault Unit × World).2 = w ∨
        ∃ place, _ ∧ (Action.changing (·.removeFile l.path) w : Except Fault Unit × World).2 = _
      rw [changing]
      cases removed : w.removeFile l.path with
      | error fault => exact .inl rfl
      | ok w' =>
        obtain ⟨place, located, -, rfl⟩ := removeFile_eq_ok removed
        exact .inr ⟨place, located, rfl⟩
    · exact .inl rfl
  · exact .inl rfl

section Held

variable {locksDir board : String} {here : Location} (fits : l.Fits locksDir board)
include fits

theorem maintains_setStage (small : l.holder.pid < Nat.pow 2 32) (stage : Stage) :
    Maintains (Only here (placeFrom here l.path) (OwnFile l.holder.token))
      (l.setStage stage).alone := by
  obtain ⟨path, n, token⟩ := fits
  obtain ⟨name, named⟩ := exists_named locksDir board
  rw [← path] at named
  intro w holds
  have apart : placeFrom here (privatePath l.path l.holder.token) ≠ placeFrom here l.path := by
    rw [token, ← holds.placeOf, ← holds.placeOf]
    exact privatePlace_ne_place named n
  have writes : Maintains (Only here (placeFrom here l.path) (OwnFile l.holder.token))
      (writePrivate (privatePath l.path l.holder.token) { l.holder with stage := stage.id }).alone := by
    rw [writePrivate, Steps.alone_atomic]
    exact maintains_mapError (maintains_create _ apart) _
  rw [setStage, Steps.alone_bind]
  refine maintains_bindAt writes (fun w _ w' before written after => ?_) w holds
  -- The file that takes the place of the lock is the one that has just been written.
  have file : w'.files.find? (w'.placeOf (privatePath l.path l.holder.token)) =
      some (.file (Holder.bytes { l.holder with stage := stage.id }) false) := by
    rw [writePrivate, Steps.alone_atomic] at written
    obtain ⟨m, other, leads, -, rfl⟩ := create_eq_ok (changing_of_mapError written)
    rw [placeOf_eq, ← placeOf_eq w, leads.placeOf]
    exact (find?_insert' (by simp) _).trans (if_pos rfl)
  rw [Steps.alone_bind, bind_apply, Steps.alone_atomic, mapError, Action.rename, changing]
  cases renamed : w'.rename (privatePath l.path l.holder.token) l.path with
  | error fault => exact after
  | ok u =>
    have guards : World.Guards (fun _ => False) w' u :=
      guards_rename after.proper renamed fun _ none => none.elim
    refine ⟨guards.here.trans after.here, guards.proper, fun n found => ?_⟩
    have moved := find?_of_rename renamed []
    rw [List.append_nil, List.append_nil, file, after.placeOf] at moved
    cases found.symm.trans moved
    exact ⟨_, false, rfl, rfl, small⟩

/-- When a lock has been given up that nobody has taken away there is no lock file. -/
theorem free_of_release
    (holds : Only here (placeFrom here l.path) (OwnFile l.holder.token) w) :
    (l.release.run w).2.doesExist l.path = false := by
  obtain ⟨path, -⟩ := fits
  obtain ⟨name, named⟩ := exists_named locksDir board
  rw [← path] at named
  cases located : w.locate l.path with
  | error e =>
    have same : (l.release.run w).2 = w := by
      obtain same | ⟨place, found, -⟩ := release_cases l w
      · exact same
      · cases located.symm.trans found
    rw [same, World.doesExist, located]
    rfl
  | ok m =>
    obtain ⟨before, whole⟩ := named.exists_names
    obtain ⟨k, leads, rfl, found⟩ := leads_of_locate located whole named.no_dots
    obtain ⟨n, there⟩ := Option.isSome_iff_exists.mp found
    have own : OwnFile l.holder.token n := holds.only n (by
      rw [← holds.placeOf, leads.placeOf, there])
    obtain ⟨h, executable, rfl, token, small⟩ := own
    have read : outcome l.path (w.textAt l.path) = .ok (some h) := by
      obtain ⟨text, decoded, parsed⟩ := Option.bind_eq_some_iff.mp (Holder.ofBytes?_bytes small)
      have text : w.textAt l.path = .ok text := by
        simp [textAt, leads.bytesAt named.endsWithSlash there, decoded, bind, Except.bind]
      rw [text]
      simp [outcome, parsed]
    have noDir : w.files.find? (k ++ [name]) ≠ some .dir := by simp [there]
    have removed := leads.removeFile named.endsWithSlash noDir found
    rw [release_of_own read token removed]
    have leads' := (keeps_erase noDir).leads leads
    have free : (w.files.erase (k ++ [name])).find? (k ++ [name]) = none := by
      rw [Tree.find?_erase (by simp), if_pos rfl]
    rw [leads'.doesExist named.endsWithSlash]
    exact congrArg Option.isSome free

end Held


end Lock

end Workspace

end BoardDesign
