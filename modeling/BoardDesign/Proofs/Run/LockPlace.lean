import BoardDesign.Proofs.Generation.Aside
import BoardDesign.Proofs.Run.Records
import BoardDesign.Proofs.Workspace.LockFile

/-!
# Where the lock of a board lies

The lock of a board lies beside the directories of the locks, or beside that of the board if the
name of the board is an absolute path. No output of a run leads there.

* `steps_append`: what is written at the end of a path lengthens its last step;
* `lockPlace`: where the lock of a board lies;
* `ne_lockPlace_of_ends`: paths with another last letter;
* `not_lockPlace_prefix`: the directories of a board, with all that is put into them;
* `aside_boardDir`, `clear_boardDir`: the directory of a board while it is replaced.
-/

namespace BoardDesign

open File File.Path World Generation

variable {here : Location} {path suffix board kind : String} {ws : Workspace}

/-! ## Longer last steps -/

section Append

variable (noSlash : '/' ∉ suffix.toList) (long : 2 < suffix.toList.length)
include noSlash long

theorem World.names_append (path : String) : ∃ front last,
    names (path ++ suffix) = front ++ [last ++ suffix] ∧
      (names path = front ∨ names path = front ++ [last]) := by
  obtain ⟨before, last, parts, parts'⟩ := Text.pieces_append path.toList noSlash
  have filled : last ++ suffix.toList ≠ [] := fun none => by
    rw [(List.append_eq_nil_iff.mp none).2] at long
    simp at long
  refine ⟨(before.filter fun p => !p.isEmpty).map String.ofList, String.ofList last, ?_, ?_⟩
  · simp only [names, String.toList_append, parts', List.filter_append, List.map_append]
    simp [filled, String.ofList_append]
  · rw [names, parts, List.filter_append, List.map_append]
    by_cases none : last = []
    · exact .inl (by simp [none])
    · exact .inr (by simp [none])

theorem World.steps_append (path : String) : ∃ front last,
    steps (path ++ suffix) = front ++ [last ++ suffix] ∧
      (steps path = front ∨ steps path = front ++ [last]) := by
  obtain ⟨front, last, whole, parts⟩ := names_append noSlash long path
  have noDot : last ++ suffix ≠ "." := fun same => by
    have := congrArg (·.toList.length) same
    simp at this
    omega
  refine ⟨front.filter (· ≠ "."), last, by simp [steps, whole, noDot], ?_⟩
  rcases parts with parts | parts
  · exact .inl (by rw [steps, parts])
  · rw [steps, parts, List.filter_append]
    by_cases dot : last = "."
    · exact .inl (by simp [dot])
    · exact .inr (by simp [dot])

theorem World.noUp_append (noUp : ".." ∉ names path) : ".." ∉ names (path ++ suffix) := by
  obtain ⟨front, last, whole, parts⟩ := names_append noSlash long path
  rw [whole]
  intro mem
  rcases List.mem_append.mp mem with mem | mem
  · rcases parts with parts | parts
    · exact noUp (parts ▸ mem)
    · exact noUp (parts ▸ List.mem_append_left _ mem)
  · have := congrArg (·.toList.length) (List.mem_singleton.mp mem)
    simp at this
    omega

end Append

theorem World.isAbsolute_append (h : isAbsolute path = true) : isAbsolute (path ++ suffix) = true := by
  unfold isAbsolute at h ⊢
  rw [String.toList_append]
  cases whole : path.toList with
  | nil => simp [whole] at h
  | cons c cs => simpa [whole] using h

namespace Workspace

/-! ## The place -/

def lockPath (ws : Workspace) (board : String) : String := Lock.pathFor ws.locksDir board

def lockPlace (ws : Workspace) (board : String) : Location := placeFrom [] (ws.lockPath board)

theorem isName_locks : IsName ".locks" := ⟨by decide, by decide, by decide⟩

theorem exists_lockName (ws : Workspace) (board : String) :
    ∃ l name, ws.lockPlace board = l ++ [name] ∧ name.toList.getLast? = some 'k' := by
  obtain ⟨name, named⟩ := Lock.exists_named ws.locksDir board
  obtain ⟨l, place⟩ := Lock.exists_place named ⟨⟨[]⟩, [], 0, [], 0, []⟩
  exact ⟨l, name, place, named.ends⟩

/-- Where a path leads that ends in another letter no lock lies. -/
theorem ne_lockPlace_of_ends {c : Char} (ends : ∃ front, path.toList = front ++ suffix.toList)
    (noSlash : '/' ∉ suffix.toList) (long : 2 < suffix.toList.length)
    (last : suffix.toList.getLast? = some c) (other : c ≠ 'k') (here : Location) :
    placeFrom here path ≠ ws.lockPlace board := by
  obtain ⟨l, p, place⟩ := placeFrom_ends ends noSlash long here
  obtain ⟨l', name, place', letter⟩ := exists_lockName ws board
  rw [place, place']
  intro same
  have names := List.singleton_injective (List.append_inj' same rfl).2
  rw [← names, String.toList_ofList, List.getLast?_append, last, Option.some_or] at letter
  exact other (Option.some.inj letter)

theorem ne_lockPlace_join (base front : String) {c : Char} (noSlash : '/' ∉ suffix.toList)
    (long : 2 < suffix.toList.length) (last : suffix.toList.getLast? = some c) (other : c ≠ 'k')
    (here : Location) : placeFrom here (join base (front ++ suffix)) ≠ ws.lockPlace board := by
  obtain ⟨before, -, whole⟩ := toList_join base (front ++ suffix)
  exact ne_lockPlace_of_ends
    ⟨before ++ front.toList, by rw [whole, String.toList_append, List.append_assoc]⟩
    noSlash long last other here

theorem ne_lockPlace_sibling (path : String) {c : Char} (filled : suffix ≠ "")
    (noSlash : '/' ∉ suffix.toList) (last : suffix.toList.getLast? = some c) (other : c ≠ 'k')
    (here : Location) : placeFrom here (sibling path suffix) ≠ ws.lockPlace board := by
  obtain ⟨l, name, place, letter⟩ := exists_lockName ws board
  rw [placeFrom_sibling path filled noSlash, place]
  intro same
  rw [← List.singleton_injective (List.append_inj' same rfl).2, siblingName,
    String.toList_append, List.getLast?_append, last, Option.some_or] at letter
  exact other (Option.some.inj letter)

section Ordinary

variable (ordinary : ws.Ordinary board)
include ordinary

theorem plain_lockPath : Plain (ws.lockPath board) :=
  (ordinary.root.join isName_locks.noUp).join (noUp_append (by decide) (by decide) ordinary.noUp)

theorem placeFrom_lockPath (here : Location) :
    placeFrom here (ws.lockPath board) = ws.lockPlace board := by
  rw [lockPlace, (plain_lockPath ordinary).placeFrom, (plain_lockPath ordinary).placeFrom]

/-- The lock lies among the locks, unless the name of the board is an absolute path. -/
theorem lockPlace_of_relative (relative : isAbsolute board = false) :
    ∃ rest, ws.lockPlace board = placeFrom [] ws.root ++ ".locks" :: rest := by
  have noUp : ".." ∉ names (board ++ ".lock") :=
    noUp_append (by decide) (by decide) ordinary.noUp
  have relative' : isAbsolute (board ++ ".lock") = false := by
    unfold isAbsolute at relative ⊢
    rw [String.toList_append]
    cases whole : board.toList with
    | nil => rfl
    | cons c cs => simpa [whole] using relative
  refine ⟨(names (board ++ ".lock")).filter (· ≠ "."), ?_⟩
  rw [lockPlace, lockPath, Lock.pathFor, locksDir, placeFrom_join relative',
    isName_locks.placeFrom_join, foldl_enter_of_noUp noUp, List.append_assoc,
    List.singleton_append]

theorem dirPlace_of_relative (isName : IsName kind) (relative : isAbsolute board = false) :
    placeFrom [] (join (join ws.root kind) board) = placeFrom [] ws.root ++ kind :: steps board := by
  rw [placeFrom_join relative, isName.placeFrom_join, foldl_enter_of_noUp ordinary.noUp,
    List.append_assoc, List.singleton_append, steps]

/-- With an absolute name the lock lies beside the only directory of the board. -/
theorem lockPlace_of_absolute (absolute : isAbsolute board = true) : ∃ front last,
    ws.lockPlace board = front ++ [last ++ ".lock"] ∧
      (steps board = front ∨ steps board = front ++ [last]) := by
  obtain ⟨front, last, whole, parts⟩ :=
    steps_append (show '/' ∉ ".lock".toList by decide) (by decide) board
  refine ⟨front, last, ?_, parts⟩
  have path : ws.lockPath board = board ++ ".lock" := by
    simp [lockPath, Lock.pathFor, File.Path.join, isAbsolute_append absolute]
  rw [lockPlace, (plain_lockPath ordinary).placeFrom, path, whole]

theorem dirPlace_of_absolute (absolute : isAbsolute board = true) (base : String) :
    placeFrom [] (join base board) = steps board := by
  have whole : join base board = board := by simp [File.Path.join, absolute]
  rw [whole]
  exact Plain.placeFrom ⟨absolute, ordinary.noUp⟩ []

/-! ## What the place is not -/

/-- The lock does not lie at or above what is put into a directory of the board. -/
theorem not_lockPlace_prefix (isName : IsName kind) (other : kind ≠ ".locks") (tail : Location)
    (letter : ∀ name ∈ tail.head?, name.toList.getLast? ≠ some 'k') :
    ¬ ws.lockPlace board <+: placeFrom [] (join (join ws.root kind) board) ++ tail := by
  intro above
  cases absolute : isAbsolute board with
  | false =>
    obtain ⟨rest, place⟩ := lockPlace_of_relative ordinary absolute
    rw [place, dirPlace_of_relative ordinary isName absolute, List.append_assoc,
      List.prefix_append_right_inj, List.cons_append, List.cons_prefix_cons] at above
    exact other above.1.symm
  | true =>
    obtain ⟨front, last, place, parts⟩ := lockPlace_of_absolute ordinary absolute
    rw [place, dirPlace_of_absolute ordinary absolute] at above
    rcases parts with parts | parts <;> rw [parts] at above
    · rw [List.prefix_append_right_inj] at above
      cases tail with
      | nil => simp at above
      | cons name rest =>
        refine letter name rfl ?_
        rw [← (List.cons_prefix_cons.mp above).1, String.toList_append, List.getLast?_append]
        rfl
    · rw [List.append_assoc, List.prefix_append_right_inj, List.singleton_append,
        List.cons_prefix_cons] at above
      have := congrArg (·.toList.length) above.1
      simp at this

/-- No path into a directory of the board comes through the place of the lock. -/
theorem not_through_lockPlace (isName : IsName kind) (other : kind ≠ ".locks") (tail : Location)
    (letter : ∀ name ∈ tail.head?, name.toList.getLast? ≠ some 'k') (plain : Plain path)
    (leads : placeFrom [] path = placeFrom [] (join (join ws.root kind) board) ++ tail)
    (here : Location) : ¬ Through here path (ws.lockPlace board) := by
  intro through
  have above := prefix_of_through plain through
  rw [plain.placeFrom, ← plain.placeFrom [], leads] at above
  exact not_lockPlace_prefix ordinary isName other tail letter above

/-- No path into the directory of the board's builds comes through the place of the lock. -/
theorem not_through_builds (relative : isAbsolute path = false) (noUp : ".." ∉ names path)
    (letter : ∀ name ∈ (steps path).head?, name.toList.getLast? ≠ some 'k') (here : Location) :
    ¬ Through here (join (ws.buildsDir board) path) (ws.lockPlace board) := by
  refine not_through_lockPlace ordinary isName_builds (by decide) _ letter
    (ordinary.buildsDir.join noUp) ?_ here
  rw [placeFrom_join relative, foldl_enter_of_noUp noUp, steps]
  rfl

theorem not_through_stagesDir (here : Location) :
    ¬ Through here (ws.stagesDir board) (ws.lockPlace board) :=
  not_through_builds ordinary (by decide) (by decide) (by decide) here

/-- Nor does the path of a file in the directory of the records. -/
theorem not_through_stages {name : String} (isName : IsName name) (here : Location) :
    ¬ Through here (join (ws.stagesDir board) name) (ws.lockPlace board) := by
  refine not_through_lockPlace ordinary isName_builds (by decide) [".stages", name]
    (by simp) ((ordinary.buildsDir.join isName_stages.noUp).join isName.noUp) ?_ here
  rw [isName.placeFrom_join, isName_stages.placeFrom_join, List.append_assoc]
  rfl

/-- The lock does not lie at or below a sibling of the board's directory. -/
theorem sibling_ne_lockPlace {c : Char} (filled : suffix ≠ "") (noSlash : '/' ∉ suffix.toList)
    (last : suffix.toList.getLast? = some c) (notK : c ≠ 'k') (notS : c ≠ 's') (rest : Location) :
    placeFrom [] (sibling (ws.boardDir board) suffix) ++ rest ≠ ws.lockPlace board := by
  have letter : (siblingName (ws.boardDir board) suffix).toList.getLast? = some c := by
    rw [siblingName, String.toList_append, List.getLast?_append, last, Option.some_or]
  have notLock (front : String) : siblingName (ws.boardDir board) suffix ≠ front ++ ".lock" := by
    intro same
    rw [same, String.toList_append, List.getLast?_append] at letter
    exact notK (Option.some.inj letter).symm
  have notLocks : siblingName (ws.boardDir board) suffix ≠ ".locks" := by
    intro same
    rw [same] at letter
    exact notS (Option.some.inj letter).symm
  rw [placeFrom_sibling _ filled noSlash, List.append_assoc, List.singleton_append]
  -- The sibling lies beside the board's directory, or in it if that is the root.
  have dir : (∃ own, siblingName (ws.boardDir board) suffix ≠ own ∧
      placeFrom [] (ws.boardDir board) = placeFrom [] (siblingDir (ws.boardDir board)) ++ [own]) ∨
        placeFrom [] (ws.boardDir board) = placeFrom [] (siblingDir (ws.boardDir board)) := by
    cases named : fileName? (ws.boardDir board) with
    | none => exact .inr (by rw [siblingDir, named])
    | some own => exact .inl ⟨own, ne_siblingName named _, placeFrom_of_fileName? named []⟩
  generalize placeFrom [] (siblingDir (ws.boardDir board)) = above at dir
  generalize siblingName (ws.boardDir board) suffix = name at dir notLock notLocks
  intro same
  cases absolute : isAbsolute board with
  | false =>
    obtain ⟨rest', place⟩ := lockPlace_of_relative ordinary absolute
    have boards := dirPlace_of_relative ordinary isName_boards absolute
    rw [place] at same
    change placeFrom [] (ws.boardDir board) = _ at boards
    rw [boards] at dir
    obtain ⟨own, -, dir⟩ | dir := dir
    · obtain none | ⟨init, final, some⟩ := (steps board).eq_nil_or_concat
      · rw [none] at dir
        rw [← (List.append_inj' dir rfl).1] at same
        exact notLocks (List.cons.inj (List.append_cancel_left same)).1
      · rw [some, List.concat_eq_append, ← List.cons_append, ← List.append_assoc] at dir
        rw [← (List.append_inj' dir rfl).1, List.append_assoc, List.cons_append] at same
        have := (List.cons.inj (List.append_cancel_left same)).1
        revert this
        decide
    · rw [← dir, List.append_assoc, List.cons_append] at same
      have := (List.cons.inj (List.append_cancel_left same)).1
      revert this
      decide
  | true =>
    obtain ⟨front, final, place, parts⟩ := lockPlace_of_absolute ordinary absolute
    have boards : placeFrom [] (ws.boardDir board) = steps board :=
      dirPlace_of_absolute ordinary absolute ws.boardsDir
    rw [place] at same
    rw [boards] at dir
    rcases parts with parts | parts <;> rw [parts] at dir <;> obtain ⟨own, ne, dir⟩ | dir := dir
    · rw [dir, List.append_assoc, List.singleton_append] at same
      exact ne (List.cons.inj (List.append_cancel_left same)).1
    · rw [dir] at same
      exact notLock final (List.cons.inj (List.append_cancel_left same)).1
    · rw [(List.append_inj' dir rfl).1] at same
      exact notLock final (List.cons.inj (List.append_cancel_left same)).1
    · have := congrArg List.length same
      rw [← dir] at this
      simp at this

/-- The lock lies neither beside the board's directory nor on the way there. -/
theorem aside_boardDir (here : Location) :
    Aside here (ws.lockPlace board) (ws.boardDir board) := by
  refine ⟨not_through_lockPlace ordinary isName_boards (by decide) [] (by simp)
    ordinary.boardDir (List.append_nil _).symm here, ?_, ?_⟩ <;> intro rest <;>
    rw [placeFrom_sibling_of_plain ordinary.boardDir (by decide) (by decide)]
  · exact sibling_ne_lockPlace ordinary (c := 'g') (by decide) (by decide) (by decide) (by decide)
      (by decide) rest
  · exact sibling_ne_lockPlace ordinary (c := 'd') (by decide) (by decide) (by decide) (by decide)
      (by decide) rest

/-- Nor does it lie in there, unless the name of the board is an absolute path. -/
theorem clear_boardDir (relative : isAbsolute board = false) (here : Location) :
    Clear (· = ws.lockPlace board) here (ws.boardDir board) := by
  intro rest
  obtain ⟨rest', place⟩ := lockPlace_of_relative ordinary relative
  have boards := dirPlace_of_relative ordinary isName_boards relative
  change placeFrom [] (ws.boardDir board) = _ at boards
  rw [ordinary.boardDir.placeFrom, ← ordinary.boardDir.placeFrom [], boards, place,
    List.append_assoc, List.cons_append]
  intro same
  have := (List.cons.inj (List.append_cancel_left same)).1
  revert this
  decide

end Ordinary

end Workspace

end BoardDesign
