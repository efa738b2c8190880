import BoardDesign.Proofs.File.Entries
import BoardDesign.Proofs.Generation.Aside

/-!
# A directory copied into another one

* `IsFault`: errors that are faults of the file system; copying fails with nothing else;
* `copyEntry`: one entry copied, which is confined to its own place (`byEntry_copyEntry`);
* `view_of_copyTreeFrom`: a reader finds in the copy what there is in the directory;
* `copyTreeFrom_of_walkable`: a directory that can be gone through to its end is copied.
-/

namespace BoardDesign.Generation

open File File.Path World Action

variable {w w' u u' : World} {source target name : String} {fuel : Nat} {names : List String}
  {here : Location}

/-- The error is a fault of the file system. -/
def IsFault (e : Error) : Prop := ∃ path fault, e = .file path fault

theorem fails_onPath {α : Type} (path : String) (a : Action Fault α) :
    Fails IsFault (onPath path a) := fails_mapError fun fault => ⟨path, fault, rfl⟩

theorem keepsDirs_onPath {α : Type} (path : String) {a : Action Fault α} (h : KeepsDirs a) :
    KeepsDirs (onPath path a) := fun before => maintains_onPath path (h before)

theorem reads_readDir (path : String) : Reads (onPath path (Action.readDir path)) :=
  (Reads.reading _).mapError _

/-- What is listed of a directory that is there. -/
theorem readDir_eq_ok (h : onPath source (Action.readDir source) w = (.ok names, w')) :
    w' = w ∧ w.Opens source ∧ names = w.files.children (w.placeOf source) :=
  ⟨(reads_readDir source).same h, entriesAt_eq_ok (reading_of_mapError h)⟩

theorem readDir_of_opens (h : w.Opens source) : onPath source (Action.readDir source) w =
    (.ok (w.files.children (w.placeOf source)), w) := by
  simp [onPath, mapError, Action.readDir, reading, h.entriesAt]

/-! ## One entry -/

/-- One entry of a directory copied. -/
def copyEntry (source target : String) (fuel : Nat) (name : String) : Action Error Unit := do
  let a := join source name
  let b := join target name
  if ← Action.isDir a then
    onPath b (Action.makeDir b)
    copyTreeFrom a b fuel
  else onPath b (Action.copy a b)

theorem copyTreeFrom_succ (source target : String) (fuel : Nat) :
    copyTreeFrom source target (fuel + 1) = onPath source (Action.readDir source) >>= fun names =>
      names.forM (copyEntry source target fuel) := rfl

theorem copyEntry_apply (source target : String) (fuel : Nat) (name : String) (w : World) :
    copyEntry source target fuel name w =
      (if w.isDir (join source name) then
        onPath (join target name) (Action.makeDir (join target name)) >>= fun _ =>
          copyTreeFrom (join source name) (join target name) fuel
      else onPath (join target name) (Action.copy (join source name) (join target name))) w := by
  rw [copyEntry, bind_apply]
  rfl

theorem fails_copyTreeFrom (source target : String) (fuel : Nat) :
    Fails IsFault (copyTreeFrom source target fuel) := by
  induction fuel generalizing source target with
  | zero => exact fails_throw ⟨source, _, rfl⟩
  | succ fuel ih =>
    rw [copyTreeFrom_succ]
    refine fails_bind (fails_onPath _ _) fun names => fails_forM fun name _ => ?_
    refine fails_bind (fails_ask _) fun isDir => ?_
    split
    · exact fails_bind (fails_onPath _ _) fun _ => ih _ _
    · exact fails_onPath _ _

theorem keepsDirs_copyTreeFrom (source target : String) (fuel : Nat) :
    KeepsDirs (copyTreeFrom source target fuel) := by
  intro before
  induction fuel generalizing source target with
  | zero => exact maintains_throw _
  | succ fuel ih =>
    rw [copyTreeFrom_succ]
    refine maintains_bind (reads_readDir source).maintains fun names =>
      maintains_forM fun name _ => ?_
    refine maintains_bind (Reads.ask _).maintains fun isDir => ?_
    split
    · exact maintains_bind (keepsDirs_onPath _ (keepsDirs_makeDir _) before) fun _ => ih _ _
    · exact keepsDirs_onPath _ (keepsDirs_copy _ _) before

theorem confined_copyTreeFrom (source : String) {places : Location → Prop}
    (covers : Covers places here target) (fuel : Nat) :
    Confined places here (copyTreeFrom source target fuel) :=
  confined_of_maintains fun before =>
    maintains_copyTreeFrom (indifferent_elsewhere before) covers fuel

theorem maintains_copyEntry {inv : World → Prop} {places way : Location → Prop}
    (ind : Indifferent inv here places way) (covers : Covers places here (join target name)) :
    Maintains inv (copyEntry source target fuel name) := by
  refine maintains_bind (Reads.ask _).maintains fun isDir => ?_
  split
  · exact maintains_bind (maintains_onPath _ (ind.makeDir _ covers.self)) fun _ =>
      maintains_copyTreeFrom ind covers fuel
  · exact maintains_onPath _ (ind.copy _ _ covers.self)

/-- An entry is copied to its own place. -/
theorem byEntry_copyEntry (source target : String) (fuel : Nat) (w : World)
    (nodup : names.Nodup) (isName : ∀ name ∈ names, IsName name) :
    ByEntry (copyEntry source target fuel) (w.placeOf target) w.here names := by
  refine ⟨nodup, fun name mem => ?_, fun name _ before => ?_⟩
  · rw [placeOf_eq, ← (isName name mem).placeFrom_join]
    exact confined_of_maintains fun before =>
      maintains_copyEntry (indifferent_elsewhere before) (covers_below w.here _)
  · refine maintains_bind (Reads.ask _).maintains fun isDir => ?_
    split
    · exact maintains_bind (keepsDirs_onPath _ (keepsDirs_makeDir _) before) fun _ =>
        keepsDirs_copyTreeFrom _ _ _ before
    · exact keepsDirs_onPath _ (keepsDirs_copy _ _) before

/-! ## The copy -/

/-- Nothing is in the directory. -/
structure Vacant (w : World) (l : Location) : Prop where
  dir : w.files.find? l = some .dir
  empty : ∀ rest ≠ [], w.files.find? (l ++ rest) = none

/-- A directory that has just been made, where nothing was. -/
theorem vacant_of_makeDir {path : String} (proper : w.files.Proper)
    (made : w.makeDir path = .ok w') : Vacant w' (w.placeOf path) ∧
      ∀ m, m ≠ w.placeOf path → w'.files.find? m = w.files.find? m := by
  obtain ⟨l, name, leads, free, rfl⟩ := makeDir_eq_ok made
  rw [leads.placeOf]
  have others (m : Location) (apart : m ≠ l ++ [name]) :
      (w.files.insert (l ++ [name]) .dir).find? m = w.files.find? m :=
    (find?_insert' (by simp) m).trans (if_neg apart)
  refine ⟨⟨(find?_insert' (by simp) _).trans (if_pos rfl), fun rest some => ?_⟩, others⟩
  exact (others _ (by simpa using some)).trans
    (proper.closed.find?_below (by simp [free]) some)

section Entry

variable (isName : IsName name) (proper : u.files.Proper)
  (apart : Apart (u.placeOf source) (u.placeOf target))
  (free : ∀ rest, u.files.find? (u.placeOf target ++ [name] ++ rest) = none)
include isName proper apart free

/-- A copied entry is found where it has been copied to. -/
theorem view_of_copyEntry
    (below : ∀ {v v' : World} {a b : String}, v.files.Proper →
      Apart (v.placeOf a) (v.placeOf b) → Vacant v (v.placeOf b) →
      copyTreeFrom a b fuel v = (.ok (), v') →
      v'.files.view (v.placeOf b) = v.files.view (v.placeOf a))
    (done : copyEntry source target fuel name u = (.ok (), u')) :
    u'.files.view (u.placeOf target ++ [name]) = u.files.view (u.placeOf source ++ [name]) := by
  have place (path : String) : u.placeOf (join path name) = u.placeOf path ++ [name] :=
    isName.placeFrom_join u.here path
  have apart' := (apart.append_left [name]).append_right [name]
  rw [copyEntry_apply] at done
  rw [← place source, ← place target] at apart' ⊢
  have outside (rest : Location) : u.placeOf (join source name) ++ rest ≠
      u.placeOf (join target name) := fun same =>
    apart'.notBelow (Tree.isBelow_iff.mpr ⟨rest, same.symm⟩)
  split at done
  · obtain ⟨⟨⟩, v, made, copied⟩ := bind_eq_ok done
    have made := changing_of_mapError made
    obtain ⟨vacant, others⟩ := vacant_of_makeDir proper made
    have guards : World.Guards (fun _ => True) u v := guards_makeDir proper made
    have same := placeOf_congr guards.here
    have whole := below guards.proper (by rw [same, same]; exact apart') (same _ ▸ vacant) copied
    rw [same, same] at whole
    rw [whole]
    exact funext fun rest => congrArg (Option.map Node.content?) (others _ (outside rest))
  · obtain ⟨v, content, x, written, read, rfl⟩ := write_of_copy (changing_of_mapError done)
    obtain ⟨l, last, y, leads, -, rfl⟩ := write_eq_ok written
    obtain ⟨x', node⟩ := bytesAt_eq_ok read
    have found := find?_of_nodeAt node
    -- What has been emptied is not what is read.
    have old : u.files.find? (u.placeOf (join source name)) = some (.file content x') := by
      have apart'' : u.placeOf (join source name) ≠ l ++ [last] := by
        rw [← leads.placeOf]
        simpa using outside []
      exact ((find?_insert' (by simp) _).trans (if_neg apart'')).symm.trans found
    funext rest
    rw [Tree.view, Tree.view]
    change ((Tree.insert _ _ _).find? _).map _ = _
    rw [find?_insert' (by simp [leads.placeOf])]
    by_cases last : rest = []
    · simp [last, old, Node.content?]
    · have gone := free rest
      rw [← place] at gone
      rw [if_neg (by simpa using last), proper.closed.find?_below (by simp [old]) last]
      rw [leads.placeOf] at gone ⊢
      rw [find?_insert' (by simp), if_neg (by simpa using last), gone]

end Entry

/-- A reader finds in the copy what there is in the directory. -/
theorem view_of_copyTreeFrom (proper : w.files.Proper)
    (apart : Apart (w.placeOf source) (w.placeOf target)) (vacant : Vacant w (w.placeOf target))
    (done : copyTreeFrom source target fuel w = (.ok (), w')) :
    w'.files.view (w.placeOf target) = w.files.view (w.placeOf source) := by
  induction fuel generalizing source target w w' with
  | zero => cases done
  | succ fuel ih =>
    rw [copyTreeFrom_succ] at done
    obtain ⟨names, v, listed, done⟩ := bind_eq_ok done
    obtain ⟨rfl, opens, rfl⟩ := readDir_eq_ok listed
    rw [forM_eq_mapM] at done
    obtain ⟨ys, v', done, last⟩ := bind_eq_ok done
    cases last
    have isName : ∀ name ∈ v.files.children (v.placeOf source), IsName name := fun _ =>
      proper.isName_of_mem_children
    have byEntry := byEntry_copyEntry source target fuel v (Tree.nodup_children _ _) isName
    refine byEntry.view_of_mapM proper done (by simp [Tree.view, vacant.dir, opens.dir]) ?_ ?_
    · intro name y u u' turn rest
      have places (path : String) : u.placeOf path = v.placeOf path := turn.keeps.placeOf path
      have sources : u.files.view (v.placeOf source ++ [name]) =
          v.files.view (v.placeOf source ++ [name]) :=
        turn.before.view_eq _ fun other _ _ =>
          ((apart.append_left [name]).append_right [other]).symm
      have free (rest : Location) : u.files.find? (u.placeOf target ++ [name] ++ rest) = none := by
        have same := congrFun turn.before.view_entry rest
        have none := vacant.empty (name :: rest) (by simp)
        rw [Tree.view, Tree.view, List.append_assoc, List.singleton_append, none] at same
        simpa [places] using same
      have entry := view_of_copyEntry (isName name turn.mem) turn.proper
        (by rw [places, places]; exact apart) free ih turn.done
      rw [places, places, sources] at entry
      rw [entry]
      simp [Tree.view]
    · intro name notListed rest
      rw [Tree.view_of_not_mem_children proper.closed notListed]
      simp [Tree.view, vacant.empty (name :: rest)]

section Walkable

variable (isName : IsName name) (proper : u.files.Proper) (walkable : u.Walkable source (fuel + 1))
  (opens : u.Opens target)
  (free : ∀ rest, u.files.find? (u.placeOf target ++ [name] ++ rest) = none)
include isName proper walkable opens free

theorem copyEntry_of_file {content : List UInt8} {executable : Bool}
    (found : u.files.find? (u.placeOf source ++ [name]) = some (.file content executable)) :
    ∃ u', copyEntry source target fuel name u = (.ok (), u') := by
  have usual : Usual name := walkable.usual_child (by simp [found])
  have absent : u.files.find? (u.placeOf target ++ [name]) = none := by simpa using free []
  have notDir : u.isDir (join source name) ≠ true := by
    intro isDir
    have dir := ((isDir_iff proper.closed).mp isDir).dir
    rw [show u.placeOf (join source name) = u.placeOf source ++ [name] from
      isName.placeFrom_join u.here source, found] at dir
    cases dir
  obtain ⟨u', copied⟩ := (opens.leads isName usual).copy (isName.endsWithSlash_join target) absent
    (walkable.opens.nodeAt isName usual found)
  rw [copyEntry_apply, if_neg notDir]
  exact ⟨u', by simp only [onPath, mapError, Action.copy, changing, copied]⟩

/-- A directory is copied if what is in it can be. -/
theorem copyEntry_of_dir (found : u.files.find? (u.placeOf source ++ [name]) = some .dir)
    (apart : Apart (u.placeOf source) (u.placeOf target))
    (below : ∀ {v : World} {a b : String}, v.files.Proper → v.Walkable a fuel → v.Opens b →
      Apart (v.placeOf a) (v.placeOf b) → Vacant v (v.placeOf b) →
      ∃ v', copyTreeFrom a b fuel v = (.ok (), v')) :
    ∃ u', copyEntry source target fuel name u = (.ok (), u') := by
  have place : u.placeOf (join source name) = u.placeOf source ++ [name] :=
    isName.placeFrom_join u.here source
  have leads := opens.leads isName (walkable.usual_child (by simp [found]))
  have walkable' := walkable.join isName found
  have made := leads.makeDir (by simpa using free [])
  have kept := (makeDir_adds made).keeps
  have guards : World.Guards (fun _ => True) u _ := guards_makeDir proper made
  have apart' := (apart.append_left [name]).append_right [name]
  have vacant := (vacant_of_makeDir proper made).1
  rw [leads.placeOf] at vacant
  have others (rest : Location) :
      (u.files.insert (u.placeOf target ++ [name]) .dir).find? (u.placeOf source ++ [name] ++ rest) =
        u.files.find? (u.placeOf source ++ [name] ++ rest) :=
    (find?_insert' (by simp) _).trans (if_neg fun same =>
      apart'.notBelow (Tree.isBelow_iff.mpr ⟨rest, same.symm⟩))
  have again := walkable'.congr kept
    (fun rest => by rw [place]; exact congrArg Option.isSome (others rest))
    (fun rest dir => by rw [place] at dir ⊢; exact (others rest).symm.trans dir)
  rw [copyEntry_apply, if_pos walkable'.opens.isDir, bind_apply]
  simp only [onPath, mapError, Action.makeDir, changing, made]
  refine below guards.proper again ⟨?_, ?_⟩ ?_ ?_
  · rw [kept.placeOf, leads.placeOf]
    exact (kept.leads leads).locate_of_found (isName.endsWithSlash_join target)
      (by rw [vacant.dir]; rfl)
  · rw [kept.placeOf, leads.placeOf, vacant.dir]
  · rw [kept.placeOf, kept.placeOf, leads.placeOf, place]
    exact apart'
  · rw [kept.placeOf, leads.placeOf]
    exact vacant

/-- An entry is copied if what is below it can be. -/
theorem copyEntry_of_walkable (there : (u.files.find? (u.placeOf source ++ [name])).isSome)
    (apart : Apart (u.placeOf source) (u.placeOf target))
    (below : ∀ {v : World} {a b : String}, v.files.Proper → v.Walkable a fuel → v.Opens b →
      Apart (v.placeOf a) (v.placeOf b) → Vacant v (v.placeOf b) →
      ∃ v', copyTreeFrom a b fuel v = (.ok (), v')) :
    ∃ u', copyEntry source target fuel name u = (.ok (), u') := by
  obtain ⟨n, found⟩ := Option.isSome_iff_exists.mp there
  cases n with
  | dir => exact copyEntry_of_dir isName proper walkable opens free found apart below
  | file content executable => exact copyEntry_of_file isName proper walkable opens free found

end Walkable

/-- A directory that can be gone through to its end is copied. -/
theorem copyTreeFrom_of_walkable (proper : w.files.Proper) (walkable : w.Walkable source fuel)
    (opens : w.Opens target) (apart : Apart (w.placeOf source) (w.placeOf target))
    (vacant : Vacant w (w.placeOf target)) :
    ∃ w', copyTreeFrom source target fuel w = (.ok (), w') := by
  induction fuel generalizing source target w with
  | zero => exact absurd walkable.pos (Nat.lt_irrefl 0)
  | succ fuel ih =>
    rw [copyTreeFrom_succ, bind_apply, readDir_of_opens walkable.opens]
    dsimp only
    rw [forM_eq_mapM, bind_apply]
    rcases done : (w.files.children (w.placeOf source)).mapM (copyEntry source target fuel) w with
      ⟨e | ys, w'⟩
    · -- No entry can fail in its turn.
      exfalso
      have isName : ∀ name ∈ w.files.children (w.placeOf source), IsName name := fun _ =>
        proper.isName_of_mem_children
      have byEntry := byEntry_copyEntry source target fuel w (Tree.nodup_children _ _) isName
      obtain ⟨name, u, turn⟩ := byEntry.turn_of_mapM_error proper done
      have places (path : String) : u.placeOf path = w.placeOf path := turn.keeps.placeOf path
      have sources (rest : Location) : u.files.find? (w.placeOf source ++ rest) =
          w.files.find? (w.placeOf source ++ rest) :=
        turn.before _ fun other _ _ => ((apart.append_left rest).append_right [other]).notAbove
      have free (rest : Location) : u.files.find? (u.placeOf target ++ [name] ++ rest) = none := by
        rw [places, turn.before _ fun other _ ne => not_isBelow_beside ne rest]
        simpa using vacant.empty (name :: rest) (by simp)
      obtain ⟨u', passed⟩ := copyEntry_of_walkable (isName name turn.mem) turn.proper
        (walkable.congr turn.keeps (fun rest => by rw [sources]) fun rest dir => by
          rwa [sources] at dir)
        (opens.keeps turn.keeps) free
        (by rw [places, sources]; exact Tree.mem_children_iff.mp turn.mem)
        (by rw [places, places]; exact apart) ih
      cases turn.done.symm.trans passed
    · exact ⟨w', rfl⟩

end BoardDesign.Generation
