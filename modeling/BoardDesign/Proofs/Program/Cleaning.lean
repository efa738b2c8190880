import BoardDesign.Program.Stages
import BoardDesign.Proofs.File.Descent
import BoardDesign.Proofs.Run.History
import BoardDesign.Proofs.Run.Holding
import BoardDesign.Proofs.Run.LockPlace
import BoardDesign.Proofs.Table

/-!
# What the cleaning of a board leaves alone

A board is cleaned while its lock is held: its three directories are removed, and the lock with
them. What does not belong to the board stays as it is, whether the cleaning fails or not. The name
of the board is any text, though, and what belongs to a text that is no name may be anything.

* `Workspace.Belongs`: what belongs to a board;
* `Workspace.isName_of_boards`: the boards of a workspace have names;
* `maintains_clean`: nothing changes but what belongs to the board;
* `free_of_clean`: nothing is left of the directories of a board that has been cleaned;
* `clean_spares`: what cleaning does to other boards;
* `clean_takes_others`: a text without letters, to which all boards belong.
-/

namespace BoardDesign

open File File.Path World Action
open Stage (EndsAsRecord)

variable {ε α β : Type} {ws : Workspace} {board other name base dir path : String}
  {w w' before : World} {here m : Location} {places way : Location → Prop}

/-! ## The boards of a workspace -/

theorem Table.mem_keys_foldl_insert {t : Table α} {entries : List (String × α)}
    (mem : name ∈ (entries.foldl (fun t e => t.insert e.1 e.2) t).keys) :
    name ∈ t.keys ∨ name ∈ entries.map (·.1) := by
  induction entries generalizing t with
  | nil => exact .inl mem
  | cons e rest ih =>
    obtain inserted | later := ih mem
    · obtain rfl | old := mem_keys_insertEntry inserted
      · exact .inr (.head _)
      · exact .inl old
    · exact .inr (.tail _ later)

theorem Action.filterAuxM_ask (f : α → World → Bool) (xs kept : List α) (w : World) :
    xs.filterAuxM (fun x => (ask (f x) : Action ε Bool)) kept w =
      (.ok ((xs.filter (f · w)).reverse ++ kept), w) := by
  induction xs generalizing kept with
  | nil => rfl
  | cons x rest ih =>
    rw [List.filterAuxM, bind_apply]
    change (rest.filterAuxM _ (bif f x w then x :: kept else kept) : Action ε (List α)) w = _
    rw [ih]
    cases holds : f x w <;> simp [holds]

/-- Questions about the world that decide what of a list is kept. -/
theorem Action.filterM_ask (f : α → World → Bool) (xs : List α) (w : World) :
    xs.filterM (fun x => (ask (f x) : Action ε Bool)) w = (.ok (xs.filter (f · w)), w) := by
  rw [List.filterM, bind_apply, filterAuxM_ask, List.append_nil]
  exact congrArg (fun ys => (Except.ok ys, w)) (List.reverse_reverse _)

/-- Actions on a list that leave the world as it is when they succeed. -/
theorem Action.mapM_eq_ok {f : α → Action ε β} {P : β → Prop} {xs : List α} {ys : List β}
    (h : ∀ x y w', f x w = (.ok y, w') → w' = w ∧ P y) (done : xs.mapM f w = (.ok ys, w')) :
    ∀ y ∈ ys, P y := by
  induction xs generalizing ys w' with
  | nil =>
    cases done
    exact fun _ mem => absurd mem List.not_mem_nil
  | cons x rest ih =>
    rw [List.mapM_cons] at done
    obtain ⟨y, w₁, first, after⟩ := bind_eq_ok done
    obtain ⟨rfl, holds⟩ := h x y w₁ first
    obtain ⟨more, w₂, others, last⟩ := bind_eq_ok after
    cases last
    exact List.forall_mem_cons.mpr ⟨holds, ih others⟩

namespace Workspace

section Proper

variable (proper : w.files.Proper)
include proper

theorem subdirectories_eq_ok {names : List String}
    (done : subdirectories dir w = (.ok names, w')) : w' = w ∧ ∀ name ∈ names, IsName name := by
  rw [subdirectories] at done
  obtain ⟨isDir, w₁, asked, done⟩ := bind_eq_ok done
  cases asked
  split at done
  · cases done
    exact ⟨rfl, fun _ mem => absurd mem List.not_mem_nil⟩
  · obtain ⟨entries, w₂, read, done⟩ := bind_eq_ok done
    obtain ⟨listed, rfl⟩ := Prod.mk.inj read
    obtain ⟨same, rfl⟩ :=
      Prod.mk.inj ((filterM_ask (fun name w => w.isDir (join dir name)) entries w).symm.trans done)
    cases same
    exact ⟨rfl, fun name mem => isName_of_entriesAt proper listed (List.mem_filter.mp mem).1⟩

/-- The boards of a workspace have names. -/
theorem isName_of_boards {boards : List String} (done : ws.boards w = (.ok boards, w'))
    (mem : name ∈ boards) : IsName name := by
  rw [Workspace.boards] at done
  obtain ⟨names, w₁, listed, done⟩ := bind_eq_ok done
  have named := mapM_eq_ok (fun _ _ _ done => subdirectories_eq_ok proper done) listed
  cases done
  obtain none | mem := Table.mem_keys_foldl_insert mem
  · cases none
  · obtain ⟨found, listed, mem⟩ : ∃ found ∈ names, name ∈ found := by simpa using mem
    exact named found listed name mem

end Proper

/-! ## What belongs to a board -/

/-- A place belongs to a board if it is at or below the place of one of the board's directories, or
if it is that of the board's lock. -/
def Belongs (ws : Workspace) (board : String) (here m : Location) : Prop :=
  (∃ dir ∈ ws.boardDirs board, Tree.isBelow (placeFrom here dir) m = true) ∨
    m = placeFrom here (ws.lockPath board)

theorem belongs_lock (ws : Workspace) (board : String) (here : Location) :
    ws.Belongs board here (placeFrom here (ws.lockPath board)) := .inr rfl

theorem covers_of_mem_boardDirs (mem : dir ∈ ws.boardDirs board) :
    Covers (ws.Belongs board here) here dir :=
  covers_isBelow fun _ below => .inl ⟨dir, mem, below⟩

/-- What the directories are called in which the directories of the boards are. -/
def kinds : List String := ["boards", "build", "builds"]

theorem boardDirs_eq (ws : Workspace) (board : String) :
    ws.boardDirs board = kinds.map fun kind => join (join ws.root kind) board := rfl

theorem isName_of_mem_kinds {kind : String} (mem : kind ∈ kinds) : IsName kind := by
  simp only [kinds, List.mem_cons, List.not_mem_nil, or_false] at mem
  obtain rfl | rfl | rfl := mem <;> exact ⟨by decide, by decide, by decide⟩

theorem isName_lockName (isName : IsName board) : IsName (board ++ ".lock") := by
  refine .of_mem (c := 'k') ?_ (by decide) ?_
  · simp
  · simp [isName.noSlash]

section Named

variable (isName : IsName board) (here : Location)
include isName

theorem lockPlace_of_isName : placeFrom here (ws.lockPath board) =
    placeFrom here ws.root ++ [".locks", board ++ ".lock"] := by
  rw [lockPath, Lock.pathFor, locksDir, (isName_lockName isName).placeFrom_join,
    isName_locks.placeFrom_join, List.append_assoc]
  rfl

theorem dirPlace_of_isName {kind : String} (mem : kind ∈ kinds) :
    placeFrom here (join (join ws.root kind) board) = placeFrom here ws.root ++ [kind, board] := by
  rw [isName.placeFrom_join, (isName_of_mem_kinds mem).placeFrom_join, List.append_assoc]
  rfl

/-- What belongs to a board with a name lies under that name in a directory of its kind, or it is
the lock among the locks. -/
theorem belongs_iff : ws.Belongs board here m ↔
    (∃ kind ∈ kinds, ∃ rest, m = placeFrom here ws.root ++ kind :: board :: rest) ∨
      m = placeFrom here ws.root ++ [".locks", board ++ ".lock"] := by
  rw [Belongs, lockPlace_of_isName isName, boardDirs_eq]
  refine or_congr_left ⟨?_, ?_⟩
  · rintro ⟨_, listed, below⟩
    obtain ⟨kind, mem, rfl⟩ := List.mem_map.mp listed
    obtain ⟨rest, rfl⟩ := Tree.isBelow_iff.mp below
    exact ⟨kind, mem, rest, by rw [dirPlace_of_isName isName here mem, List.append_assoc]; rfl⟩
  · rintro ⟨kind, mem, rest, rfl⟩
    refine ⟨_, List.mem_map_of_mem mem, Tree.isBelow_iff.mpr ⟨rest, ?_⟩⟩
    rw [dirPlace_of_isName isName here mem, List.append_assoc]
    rfl

/-- What belongs to one board does not belong to another one. -/
theorem not_belongs_other (isName' : IsName other) (ne : other ≠ board)
    (listed : dir ∈ ws.boardDirs other) (rest : Location) :
    ¬ ws.Belongs board here (placeFrom here dir ++ rest) := by
  rw [boardDirs_eq] at listed
  obtain ⟨kind, mem, rfl⟩ := List.mem_map.mp listed
  rw [belongs_iff isName, dirPlace_of_isName isName' here mem, List.append_assoc]
  rintro (⟨kind', -, rest', same⟩ | same) <;> have parts := List.append_cancel_left same
  · exact ne (List.cons.inj (List.cons.inj parts).2).1
  · revert mem
    rw [(List.cons.inj parts).1]
    decide

/-- Nothing in a directory of a board is on the way to the locks. -/
theorem not_through_locksDir (root : Plain ws.root) (listed : dir ∈ ws.boardDirs board)
    (rest : Location) : ¬ Through here ws.locksDir (placeFrom here dir ++ rest) := by
  rw [boardDirs_eq] at listed
  obtain ⟨kind, mem, rfl⟩ := List.mem_map.mp listed
  intro through
  have above := (prefix_of_through (root.join isName_locks.noUp) through).length_le
  rw [dirPlace_of_isName isName here mem, isName_locks.placeFrom_join] at above
  simp only [List.length_append, List.length_cons, List.length_nil] at above
  omega

end Named

end Workspace

/-! ## What cleaning changes -/

namespace World.Elsewhere

variable (h : Elsewhere here places way before w)
include h

/-- Nothing has changed where neither the places nor the way are. -/
theorem same (out : ¬ places m) (off : ¬ way m) : w.files.find? m = before.files.find? m := by
  cases found : before.files.find? m with
  | some n => exact h.kept m n out found
  | none =>
    refine Option.eq_none_iff_forall_ne_some.mpr fun n found' => ?_
    obtain old | ⟨-, on⟩ := h.new m n out found'
    · cases found.symm.trans old
    · exact off on

theorem release {l : Workspace.Lock} (there : places (placeFrom here l.path)) :
    Elsewhere here places way before (l.release.run w).2 := by
  have guards : World.Guards (fun _ => False) w (l.release.run w).2 :=
    Workspace.Lock.guards_release l h.proper
  refine h.step guards.here guards.proper fun m out => ?_
  obtain same | ⟨place, located, erased⟩ := Workspace.Lock.release_cases l w
  · rw [same]
  · have apart : m ≠ place := by
      rintro rfl
      rw [← h.placeOf, ← locate_eq_ok located] at there
      exact out there
    rw [erased]
    by_cases root : m = []
    · simp [root]
    · exact (Tree.find?_erase root).trans (if_neg apart)

end World.Elsewhere

namespace Program

variable {s : Settings} {host : Host}

theorem maintains_say (line : String) : Maintains (Elsewhere here places way before) (say line) :=
  fun _ h => h.step rfl h.proper fun _ _ => rfl

theorem maintains_removeDir (covers : Covers places here dir) :
    Maintains (Elsewhere here places way before) (removeDir dir) := by
  refine maintains_bind (Reads.ask _).maintains fun there => maintains_ite ?_ (maintains_say _)
  refine maintains_bind (maintains_mapError ?_ _) fun _ => maintains_say _
  exact (indifferent_elsewhere before).removeDir dir covers

/-- Who tries for the lock changes nothing elsewhere, whether the lock is had or not. -/
theorem maintains_acquire (self : Nat) (stage : Stage)
    (there : places (placeFrom here (ws.lockPath board)))
    (along : ∀ m, Through here ws.locksDir m → way m) :
    Maintains (Elsewhere here places way before)
      (Workspace.Lock.acquire self ws.locksDir board stage).alone := by
  obtain ⟨name, named⟩ := Workspace.Lock.exists_named ws.locksDir board
  rw [Workspace.Lock.acquire, Steps.alone_bind, Steps.alone_atomic]
  refine maintains_bind (maintains_mapError ((indifferent_elsewhere before).makeDirs _ along) _)
    fun _ w h => ?_
  rw [Steps.alone_bind, bind_apply, Workspace.Lock.alone_freshToken]
  have counted : Elsewhere here places way before { w with serial := w.serial + 1 } :=
    h.step rfl h.proper fun _ _ => rfl
  dsimp only
  generalize holder : (⟨self, stage.id, tokenText w.serial⟩ : Workspace.Holder) = own
  have token : own.token = tokenText w.serial := holder ▸ rfl
  generalize ({ w with serial := w.serial + 1 } : World) = w₁ at counted
  have guards : World.Guards (fun _ => False) w₁ ((Workspace.Lock.acquireWithin
      (Workspace.Lock.pathFor ws.locksDir board) board own 2).alone w₁).2 :=
    Workspace.Lock.guards_acquireWithin not_false not_false board 2 w₁ counted.proper rfl
  rw [Steps.alone_bind, bind_apply, Workspace.Lock.attempts]
  obtain ⟨e, v, failed, alike⟩ | ⟨v, done, but, -⟩ :=
    Workspace.Lock.acquireWithin_cases named board token 0 w₁
  · rw [failed] at guards ⊢
    exact counted.step alike.here guards.proper fun m _ => alike.same m
  · rw [done] at guards ⊢
    refine counted.step but.here guards.proper fun m out => but.same m ?_
    rintro rfl
    exact out (counted.placeOf _ ▸ there)

theorem maintains_clean (s : Settings) (host : Host) (board : String) (before : World) :
    Maintains (Elsewhere here (s.workspace.Belongs board here) (Through here s.workspace.locksDir)
      before) (clean s host board) := by
  have dirs : Maintains (Elsewhere here (s.workspace.Belongs board here)
      (Through here s.workspace.locksDir) before)
      ((s.workspace.boardDirs board).forM removeDir) :=
    maintains_forM fun dir mem => maintains_removeDir (Workspace.covers_of_mem_boardDirs mem)
  rw [clean]
  refine Maintains.bind (Q := fun l => l.path = s.workspace.lockPath board)
    (maintains_mapError (maintains_acquire host.pid .prepareBoard
      (Workspace.belongs_lock _ _ _) fun _ through => through) _) ?_ fun l path => ?_
  · intro w l w' done
    exact (Workspace.Lock.fits_of_acquire (mapError_eq_ok done)).path
  refine maintains_bind (maintains_attempt dirs) fun result => ?_
  refine maintains_bind (fun w h => h.release ?_) fun _ => (Reads.ofExcept _).maintains
  rw [path]
  exact Workspace.belongs_lock _ _ _

/-! ## What cleaning leaves -/

section Named

variable (isName : IsName name)
include isName

theorem leads_of_doesExist (exist : w.doesExist (join base name) = true) :
    ∃ l n, w.Leads (join base name) l name ∧ w.files.find? (l ++ [name]) = some n := by
  cases located : w.locate (join base name) with
  | error e =>
    rw [World.doesExist, located] at exist
    cases exist
  | ok m =>
    obtain ⟨l, leads, rfl, found⟩ := leads_of_locate located (isName.names_join base) isName.noDots
    obtain ⟨n, found⟩ := Option.isSome_iff_exists.mp found
    exact ⟨l, n, leads, found⟩

/-- Nothing comes to be under a path while nothing is put anywhere. -/
theorem absent_of_passesBy (passes : ∀ place, PassesBy place w w')
    (absent : w.doesExist (join base name) = false) : w'.doesExist (join base name) = false := by
  refine Bool.eq_false_iff.mpr fun exist => ?_
  obtain ⟨l, n, leads, found⟩ := leads_of_doesExist isName exist
  have keeps : w'.Keeps w := ⟨(passes []).here.symm, fun m dir => (passes m).old _ dir⟩
  rw [(keeps.leads leads).doesExist (isName.endsWithSlash_join base),
    (passes _).old n found] at absent
  cases absent

theorem absent_of_removed (proper : w.files.Proper)
    (done : w.removeDir (join base name) = (.ok (), w')) :
    w'.doesExist (join base name) = false := by
  refine Bool.eq_false_iff.mpr fun exist => ?_
  obtain ⟨l, n, leads, found⟩ := leads_of_doesExist isName exist
  have passes : ∀ place, PassesBy place w w' := fun place => by
    have removed : PassesBy place w (w.removeDir (join base name)).2 := passesBy_removeDir proper _
    rwa [done] at removed
  have keeps : w'.Keeps w := ⟨(passes []).here.symm, fun m dir => (passes m).old _ dir⟩
  have leads' := keeps.leads leads
  have found' := (passes _).old n found
  have slash := isName.endsWithSlash_join base
  cases n with
  | dir =>
    cases done.symm.trans (leads'.removeDir slash found')
    rw [Tree.find?_eraseBelow (by simp), if_pos (Tree.isBelow_iff.mpr ⟨[], by simp⟩)] at found
    cases found
  | file content executable =>
    cases done.symm.trans (leads'.removeDir_of_file slash found')

end Named

/-- What passes by a place whatever lies there. -/
theorem passesBy_of_maintains {place : Location} {a : Action ε α} (proper : w.files.Proper)
    (h : ∀ P, Maintains (Only w.here place P) a) : PassesBy place w (a w).2 := by
  have after := h (fun n => w.files.find? place = some n) w ⟨rfl, proper, fun _ found => found⟩
  exact ⟨after.here, after.proper, after.only⟩

theorem maintains_removing {place : Location} {P : Node → Prop} (dir : String) :
    Maintains (Only here place P) (removeDir dir) := by
  have prints : ∀ line, Maintains (Only here place P) (say line) :=
    fun _ _ h => ⟨h.here, h.proper, h.only⟩
  refine maintains_bind (Reads.ask _).maintains fun there => maintains_ite ?_ (prints _)
  exact maintains_bind (maintains_mapError (Action.maintains_removeDir dir) _) fun _ => prints _

theorem passesBy_release (proper : w.files.Proper) (l : Workspace.Lock) (place : Location) :
    PassesBy place w (l.release.run w).2 := by
  have guards : World.Guards (fun _ => False) w (l.release.run w).2 :=
    Workspace.Lock.guards_release l proper
  refine ⟨guards.here, guards.proper, fun n found => ?_⟩
  obtain same | ⟨taken, -, erased⟩ := Workspace.Lock.release_cases l w
  · rwa [same] at found
  · rw [erased] at found
    by_cases root : place = []
    · simpa [root] using found
    · rw [Tree.find?_erase root] at found
      split at found
      · cases found
      · exact found

theorem absent_of_removing (isName : IsName name) (proper : w.files.Proper)
    (done : removeDir (join base name) w = (.ok (), w')) :
    w'.doesExist (join base name) = false := by
  rw [removeDir] at done
  obtain ⟨there, w₁, asked, done⟩ := bind_eq_ok done
  cases asked
  have prints : ∀ (v : World) line, v.files.Proper → ∀ place, PassesBy place v (v.print line) :=
    fun v line proper place => ⟨rfl, proper, fun _ found => found⟩
  split at done
  · obtain ⟨_, w₂, removed, said⟩ := bind_eq_ok done
    have removed : w.removeDir (join base name) = (.ok (), w₂) := mapError_eq_ok removed
    have passes : PassesBy [] w (w.removeDir (join base name)).2 := passesBy_removeDir proper _
    have absent := absent_of_removed isName proper removed
    rw [removed] at passes
    cases said
    exact absent_of_passesBy isName (prints w₂ _ passes.proper) absent
  · rename_i absent
    cases done
    exact absent_of_passesBy isName (prints w _ proper) (Bool.eq_false_iff.mpr absent)

/-- Directories removed one after the other: none of them is left. -/
theorem absent_of_removals (isName : IsName name) (proper : w.files.Proper) {bases : List String}
    (done : (bases.map (join · name)).forM removeDir w = (.ok (), w')) :
    ∀ base ∈ bases, w'.doesExist (join base name) = false := by
  induction bases generalizing w with
  | nil => exact fun _ mem => absurd mem List.not_mem_nil
  | cons base rest ih =>
    obtain ⟨_, w₁, removed, others⟩ := bind_eq_ok done
    have first := absent_of_removing isName proper removed
    have passes : PassesBy [] w (removeDir (join base name) w).2 :=
      passesBy_of_maintains proper fun _ => maintains_removing _
    rw [removed] at passes
    have later : ∀ place, PassesBy place w₁ ((rest.map (join · name)).forM removeDir w₁).2 :=
      fun place => passesBy_of_maintains passes.proper fun _ =>
        maintains_forM fun dir _ => maintains_removing dir
    refine List.forall_mem_cons.mpr ⟨?_, ih passes.proper others⟩
    have kept := absent_of_passesBy isName later first
    change ((rest.map (join · name)).forM removeDir) w₁ = _ at others
    rwa [others] at kept

/-- Nothing is left of the directories of a board that has been cleaned. -/
theorem free_of_clean (isName : IsName board) (proper : w.files.Proper)
    (done : clean s host board w = (.ok (), w')) (mem : dir ∈ s.workspace.boardDirs board) :
    w'.doesExist dir = false := by
  rw [clean] at done
  obtain ⟨l, w₁, acquired, done⟩ := bind_eq_ok done
  obtain ⟨result, w₂, removed, done⟩ := bind_eq_ok done
  obtain ⟨_, w₃, released, done⟩ := bind_eq_ok done
  have guards : World.Guards EndsAsRecord w w₁ :=
    (Workspace.Lock.guards_acquire host.pid s.workspace.locksDir board .prepareBoard).of_done
      proper (mapError_eq_ok acquired)
  cases done
  cases released
  have removed : (s.workspace.boardDirs board).forM removeDir w₁ = (.ok (), w₂) := by
    rw [attempt] at removed
    generalize (s.workspace.boardDirs board).forM removeDir w₁ = left at removed
    obtain ⟨r, v⟩ := left
    cases removed
    rfl
  have passes : PassesBy [] w₁ ((s.workspace.boardDirs board).forM removeDir w₁).2 :=
    passesBy_of_maintains guards.proper fun _ => maintains_forM fun dir _ => maintains_removing dir
  rw [removed] at passes
  rw [Workspace.boardDirs_eq] at mem
  obtain ⟨kind, listed, rfl⟩ := List.mem_map.mp mem
  refine absent_of_passesBy isName (passesBy_release passes.proper l) ?_
  change ((Workspace.kinds.map (join s.workspace.root)).map (join · board)).forM removeDir w₁ = _
    at removed
  exact absent_of_removals isName guards.proper removed _ (List.mem_map_of_mem listed)

/-! ## What cleaning does to other boards -/

/-- Whether cleaning fails or not, what does not belong to the board stays, and nothing comes up but
the directories on the way to the locks. If the board has a name, then the directories of all other
boards of the workspace are as before, nothing is lost but what lies under the name in the
directories of the boards, and the lock; and a cleaning that succeeds leaves none of the board's
directories. -/
theorem clean_spares (s : Settings) (host : Host) (board : String) (w : World)
    (root : Plain s.workspace.root) (proper : w.files.Proper) :
    (∀ m n, ¬ s.workspace.Belongs board w.here m → w.files.find? m = some n →
      (clean s host board w).2.files.find? m = some n) ∧
    (∀ m n, ¬ s.workspace.Belongs board w.here m →
      (clean s host board w).2.files.find? m = some n →
        w.files.find? m = some n ∨ n = .dir ∧ Through w.here s.workspace.locksDir m) ∧
    (IsName board →
      (∀ boards w₁, s.workspace.boards w = (.ok boards, w₁) → ∀ other ∈ boards, other ≠ board →
        ∀ dir ∈ s.workspace.boardDirs other, ∀ rest,
          (clean s host board w).2.files.find? (placeFrom w.here dir ++ rest) =
            w.files.find? (placeFrom w.here dir ++ rest)) ∧
      (∀ m, s.workspace.Belongs board w.here m →
        m = placeFrom w.here (s.workspace.lockPath board) ∨
        ∃ dir ∈ [s.workspace.boardsDir, s.workspace.buildRoot, s.workspace.buildsRoot], ∃ rest,
          m = placeFrom w.here dir ++ board :: rest) ∧
      ((clean s host board w).1 = .ok () →
        ∀ dir ∈ s.workspace.boardDirs board, (clean s host board w).2.doesExist dir = false)) := by
  have elsewhere := maintains_clean s host board w w (elsewhere_self proper)
  refine ⟨elsewhere.kept, elsewhere.new, fun isName => ⟨?_, ?_, ?_⟩⟩
  · intro boards w₁ listed other mem ne dir own rest
    have isName' := Workspace.isName_of_boards proper listed mem
    have outside := Workspace.not_belongs_other isName w.here isName' ne own rest
    refine elsewhere.same outside fun on => ?_
    exact Workspace.not_through_locksDir isName' w.here root own rest on
  · intro m mine
    obtain ⟨kind, mem, rest, rfl⟩ | rfl := (Workspace.belongs_iff isName w.here).mp mine
    · refine .inr ⟨join s.workspace.root kind, List.mem_map_of_mem mem, rest, ?_⟩
      rw [(Workspace.isName_of_mem_kinds mem).placeFrom_join, List.append_assoc]
      rfl
    · exact .inl (Workspace.lockPlace_of_isName isName w.here).symm
  · intro done dir mem
    exact free_of_clean isName proper (Prod.ext done rfl) mem

/-- The settings of a workspace at the root. -/
def bareSettings : Settings where
  workspace := ⟨"/"⟩
  zephyrBase := none
  sdkDir := none
  sdkVersion := none
  resourcesDir := "/r"
  tools := .standard
  vars := .empty
  hasFile := false

def idleHost : Host := ⟨1, .empty, .ofActions fun _ => pure (), none⟩

/-- Two boards, one of them built, and a generated application. -/
def twoBoards : World := worldOf [(["boards"], .dir), (["boards", "a"], .dir),
  (["boards", "a", "a.dts"], .file [] false), (["boards", "b"], .dir),
  (["boards", "b", "b.dts"], .file [] false), (["build"], .dir), (["build", "a"], .dir),
  (["generated"], .dir), (["generated", "app"], .dir)]

/-- One of two boards cleaned: nothing is left of it, and the other one is as before. -/
theorem clean_spares_twoBoards :
    (∃ w', bareSettings.workspace.boards twoBoards = (.ok ["a", "b"], w')) ∧
    (clean bareSettings idleHost "a" twoBoards).1 = .ok () ∧
    (∀ dir ∈ ["/boards/a", "/build/a", "/builds/a"],
      (clean bareSettings idleHost "a" twoBoards).2.doesExist dir = false) ∧
    ∀ rest, (clean bareSettings idleHost "a" twoBoards).2.files.find? ("boards" :: "b" :: rest) =
      twoBoards.files.find? ("boards" :: "b" :: rest) := by
  have isName : IsName "a" := ⟨by decide, by decide, by decide⟩
  have listed : ∃ w', bareSettings.workspace.boards twoBoards = (.ok ["a", "b"], w') :=
    ⟨_, Prod.ext (by decide +kernel) rfl⟩
  have succeeds : (clean bareSettings idleHost "a" twoBoards).1.isOk = true := by decide +kernel
  have done : (clean bareSettings idleHost "a" twoBoards).1 = .ok () := by
    cases result : (clean bareSettings idleHost "a" twoBoards).1 with
    | ok _ => rfl
    | error e =>
      rw [result] at succeeds
      cases succeeds
  obtain ⟨-, -, named⟩ := clean_spares bareSettings idleHost "a" twoBoards plain_root
    (Tree.proper_of_isProper (by decide))
  obtain ⟨others, -, gone⟩ := named isName
  obtain ⟨w', boards⟩ := listed
  refine ⟨⟨w', boards⟩, done, gone done, ?_⟩
  exact others _ w' boards "b" (by simp) (by decide) "/boards/b" (by decide)

/-- What is no name of a board takes with it all boards, a board under another name, or what is no
board at all. -/
theorem clean_takes_others :
    (∃ w', bareSettings.workspace.boards twoBoards = (.ok ["a", "b"], w')) ∧
    twoBoards.files.find? ["boards", "b", "b.dts"] = some (.file [] false) ∧
    (clean bareSettings idleHost "" twoBoards).2.files.find? ["boards", "b", "b.dts"] = none ∧
    (clean bareSettings idleHost "./b" twoBoards).2.files.find? ["boards", "b", "b.dts"] = none ∧
    twoBoards.files.find? ["generated", "app"] = some .dir ∧
    (clean bareSettings idleHost "../generated" twoBoards).2.files.find? ["generated", "app"] =
      none :=
  ⟨⟨_, Prod.ext (by decide +kernel) rfl⟩, by decide, by decide +kernel, by decide +kernel,
    by decide, by decide +kernel⟩

end Program

end BoardDesign
