import BoardDesign.Proofs.Generation.Output
import BoardDesign.Proofs.Stage.Cache
import BoardDesign.Run.Basic

/-!
# Where the records of a board lie

A record is the file that holds the digest of the last successful run of a stage. The board's
name has no step up, so its records lie where their paths say.

* `Workspace.Ordinary`: a workspace with an absolute root, and a board without steps up;
* `recordPlace_eq`: a record lies in a directory of its own below the board's builds;
* `EndsAsRecord`: locations with the last name of a record, which few paths have;
* `beside_boardDir`: nothing that is put beside the board's directory is a record;
* `IsRecordOrStaged`: what a new directory of the board may not hold, as it would become a record.
-/

namespace BoardDesign

open File File.Path World Generation

variable {here l : Location} {path base name : String}

/-- A path below a plain one is plain if it has no step up itself. -/
theorem World.Plain.join (h : Plain base) (noUp : ".." ∉ names path) : Plain (join base path) := by
  cases absolute : isAbsolute path with
  | true =>
    have whole : File.Path.join base path = path := by simp [File.Path.join, absolute]
    exact whole.symm ▸ ⟨absolute, noUp⟩
  | false =>
    refine ⟨(isAbsolute_join absolute).trans h.absolute, ?_⟩
    rw [names_join absolute]
    exact fun mem => (List.mem_append.mp mem).elim h.noUp noUp

/-- The siblings of a plain path lie where they do, whatever the working directory. -/
theorem World.placeFrom_sibling_of_plain (h : Plain path) {suffix : String} (filled : suffix ≠ "")
    (noSlash : '/' ∉ suffix.toList) :
    placeFrom here (sibling path suffix) = placeFrom [] (sibling path suffix) := by
  have dir : placeFrom here (siblingDir path) = placeFrom [] (siblingDir path) := by
    cases named : fileName? path with
    | none => rw [siblingDir, named, h.placeFrom, h.placeFrom]
    | some name =>
      have place := placeFrom_of_fileName? named
      have same : placeFrom here (siblingDir path) ++ [name] =
          placeFrom [] (siblingDir path) ++ [name] := by
        rw [← place, ← place, h.placeFrom, h.placeFrom]
      exact List.append_cancel_right same
  rw [World.placeFrom_sibling path filled noSlash, World.placeFrom_sibling path filled noSlash, dir]

theorem IsName.noUp (isName : IsName name) : ".." ∉ World.names name := by
  rw [isName.names, List.mem_singleton]
  exact Ne.symm isName.noDots.2

/-- What is written before a path changes its first name at most. -/
theorem World.names_prepend (front : String) (filled : front ≠ "") (noSlash : '/' ∉ front.toList)
    (path : String) : ∃ first rest, names (front ++ path) = (front ++ first) :: rest ∧
      ∀ name ∈ rest, name ∈ names path := by
  obtain ⟨first, rest, parts, parts'⟩ := Text.pieces_prepend noSlash path.toList
  have nonempty : front.toList ≠ [] := fun none => filled (String.toList_eq_nil_iff.mp none)
  refine ⟨String.ofList first, (rest.filter fun p => !p.isEmpty).map String.ofList, ?_, ?_⟩
  · simp [names, parts', nonempty, String.ofList_append]
  · intro name mem
    rw [names, parts, List.filter_cons]
    split
    · exact List.mem_cons_of_mem _ mem
    · exact mem

namespace Stage

theorem recordName_getLast? (s : Stage) : s.recordName.toList.getLast? = some 'h' := by
  cases s <;> decide

theorem recordName_head? (s : Stage) : s.recordName.toList.head? ≠ some '.' := by
  cases s <;> decide

/-- The last name of the location is that of a record. -/
def EndsAsRecord (l : Location) : Prop := ∃ m s, l = m ++ [recordName s]

theorem endsAsRecord_concat_iff : EndsAsRecord (l ++ [name]) ↔ ∃ s, name = recordName s := by
  constructor
  · rintro ⟨m, s, same⟩
    exact ⟨s, List.singleton_injective (List.append_inj' same rfl).2⟩
  · rintro ⟨s, rfl⟩
    exact ⟨l, s, rfl⟩

/-- A file with another last letter is no record. -/
theorem not_endsAsRecord_of_last {c : Char} (last : name.toList.getLast? = some c) (other : c ≠ 'h') :
    ¬ EndsAsRecord (l ++ [name]) := by
  rw [endsAsRecord_concat_iff]
  rintro ⟨s, rfl⟩
  rw [recordName_getLast?] at last
  exact other (Option.some.inj last).symm

/-- A path that is written with another last letter is not that of a record. -/
theorem not_endsAsRecord_of_ends {suffix : String} {c : Char}
    (ends : ∃ front, path.toList = front ++ suffix.toList) (noSlash : '/' ∉ suffix.toList)
    (long : 2 < suffix.toList.length) (last : suffix.toList.getLast? = some c) (other : c ≠ 'h')
    (here : Location) : ¬ EndsAsRecord (placeFrom here path) := by
  obtain ⟨m, p, place⟩ := placeFrom_ends ends noSlash long here
  rw [place]
  refine not_endsAsRecord_of_last ?_ other
  rw [String.toList_ofList, List.getLast?_append, last, Option.some_or]

theorem not_endsAsRecord_join (base front suffix : String) {c : Char}
    (noSlash : '/' ∉ suffix.toList) (long : 2 < suffix.toList.length)
    (last : suffix.toList.getLast? = some c) (other : c ≠ 'h') (here : Location) :
    ¬ EndsAsRecord (placeFrom here (join base (front ++ suffix))) := by
  obtain ⟨before, -, whole⟩ := toList_join base (front ++ suffix)
  exact not_endsAsRecord_of_ends
    ⟨before ++ front.toList, by rw [whole, String.toList_append, List.append_assoc]⟩
    noSlash long last other here

theorem not_endsAsRecord_sibling (path : String) {suffix : String} (filled : suffix ≠ "")
    (noSlash : '/' ∉ suffix.toList) (here : Location) :
    ¬ EndsAsRecord (placeFrom here (sibling path suffix)) := by
  rw [placeFrom_sibling path filled noSlash, endsAsRecord_concat_iff]
  rintro ⟨s, same⟩
  have dot : (siblingName path suffix).toList.head? = some '.' := by simp [siblingName]
  exact recordName_head? s (same ▸ dot)

end Stage

namespace Workspace

open Stage (recordName EndsAsRecord)

/-- The root of the workspace is an absolute path, and nothing leads up from the directories of
the board. -/
structure Ordinary (ws : Workspace) (board : String) : Prop where
  root : Plain ws.root
  noUp : ".." ∉ names board

/-- The records of a board. -/
def records (ws : Workspace) (board : String) : Stage.Cache := .ofDir (ws.stagesDir board)

/-- Where the digest of a stage is put on record. -/
def recordPlace (ws : Workspace) (board : String) (s : Stage) : Location :=
  placeFrom [] ((ws.records board).hashPath s)

def IsRecord (ws : Workspace) (board : String) (l : Location) : Prop :=
  ∃ s, l = ws.recordPlace board s

variable {ws : Workspace} {board : String} {rest : Location} {s : Stage}

theorem isName_stages : IsName ".stages" := ⟨by decide, by decide, by decide⟩

theorem isName_boards : IsName "boards" := ⟨by decide, by decide, by decide⟩

theorem isName_builds : IsName "builds" := ⟨by decide, by decide, by decide⟩

namespace Ordinary

variable (h : Ordinary ws board)
include h

theorem boardDir : Plain (ws.boardDir board) := (h.root.join isName_boards.noUp).join h.noUp

theorem buildsDir : Plain (ws.buildsDir board) := (h.root.join isName_builds.noUp).join h.noUp

theorem hashPath (s : Stage) : Plain ((ws.records board).hashPath s) :=
  (h.buildsDir.join isName_stages.noUp).join s.isName_recordName.noUp

/-- Both directories of a board are named alike, unless they are one. -/
theorem twins : placeFrom [] (ws.boardDir board) = placeFrom [] (ws.buildsDir board) ∨
    ∃ above below, placeFrom [] (ws.boardDir board) = above ++ "boards" :: below ∧
      placeFrom [] (ws.buildsDir board) = above ++ "builds" :: below := by
  cases absolute : isAbsolute board with
  | true =>
    left
    simp [Workspace.boardDir, Workspace.buildsDir, File.Path.join, absolute]
  | false =>
    right
    refine ⟨placeFrom [] ws.root, (names board).filter (· ≠ "."), ?_, ?_⟩
    · rw [Workspace.boardDir, boardsDir, placeFrom_join absolute, isName_boards.placeFrom_join,
        foldl_enter_of_noUp h.noUp, List.append_assoc, List.singleton_append]
    · rw [Workspace.buildsDir, buildsRoot, placeFrom_join absolute, isName_builds.placeFrom_join,
        foldl_enter_of_noUp h.noUp, List.append_assoc, List.singleton_append]

theorem length_boardDir :
    (placeFrom [] (ws.boardDir board)).length = (placeFrom [] (ws.buildsDir board)).length := by
  obtain same | ⟨above, below, boards, builds⟩ := h.twins
  · rw [same]
  · simp [boards, builds]

end Ordinary

theorem recordPlace_eq (ws : Workspace) (board : String) (s : Stage) :
    ws.recordPlace board s = placeFrom [] (ws.buildsDir board) ++ [".stages", recordName s] := by
  rw [recordPlace, Stage.Cache.hashPath, ← recordName, s.isName_recordName.placeFrom_join, records,
    Stage.Cache.ofDir, stagesDir, isName_stages.placeFrom_join, List.append_assoc]
  rfl

theorem recordPlace_inj {s s' : Stage} (same : ws.recordPlace board s = ws.recordPlace board s') :
    s = s' := by
  rw [recordPlace_eq, recordPlace_eq] at same
  simpa using Stage.recordName_inj (by simpa using List.append_cancel_left same)

theorem IsRecord.ends (h : ws.IsRecord board l) : EndsAsRecord l := by
  obtain ⟨s, rfl⟩ := h
  exact ⟨placeFrom [] (ws.buildsDir board) ++ [".stages"], s, by simp [recordPlace_eq]⟩

variable (ordinary : Ordinary ws board)
include ordinary

/-- What lies below the board's directory is a record only if the two directories are one. -/
theorem eq_of_isRecord_boardDir (isRecord : ws.IsRecord board (placeFrom [] (ws.boardDir board) ++ rest)) :
    ∃ s, rest = [".stages", recordName s] := by
  obtain ⟨s, same⟩ := isRecord
  rw [recordPlace_eq] at same
  exact ⟨s, (List.append_inj same ordinary.length_boardDir).2⟩

/-- The directory of the board's builds is called like that of the board, or `builds`. -/
theorem eq_of_buildsDir {front : Location} {own last : String}
    (board_own : placeFrom [] (ws.boardDir board) = l ++ [own])
    (builds_last : placeFrom [] (ws.buildsDir board) = front ++ [last]) :
    last = own ∨ last = "builds" := by
  obtain same | ⟨above, below, boards, builds⟩ := ordinary.twins
  · rw [same, builds_last] at board_own
    exact .inl (List.singleton_injective (List.append_inj' board_own rfl).2)
  · rw [board_own] at boards
    rw [builds_last] at builds
    obtain rfl | ⟨middle, name, rfl⟩ := below.eq_nil_or_concat
    · exact .inr (List.singleton_injective (List.append_inj' builds rfl).2)
    · rw [List.concat_eq_append, ← List.cons_append, ← List.append_assoc] at boards builds
      rw [List.singleton_injective (List.append_inj' builds rfl).2,
        List.singleton_injective (List.append_inj' boards rfl).2]
      exact .inl rfl

/-- Nothing at or below a sibling of the board's directory is a record. -/
theorem not_isRecord_sibling {suffix : String} (noSlash : '/' ∉ suffix.toList) {c : Char}
    (last : suffix.toList.getLast? = some c) (other : c ≠ 's') (rest : Location) :
    ¬ ws.IsRecord board (placeFrom [] (sibling (ws.boardDir board) suffix) ++ rest) := by
  rintro ⟨s, same⟩
  have filled : suffix ≠ "" := by
    rintro rfl
    cases last
  have ends : ∀ text : String, text.toList.getLast? = some 's' →
      siblingName (ws.boardDir board) suffix ≠ text := by
    rintro _ isS rfl
    rw [siblingName, String.toList_append, List.getLast?_append, last, Option.some_or] at isS
    exact other (Option.some.inj isS)
  rw [recordPlace_eq, placeFrom_sibling _ filled noSlash, List.append_assoc,
    List.singleton_append] at same
  cases named : fileName? (ws.boardDir board) with
  | none =>
    -- The sibling lies in the board's directory, where a record's directory would lie.
    have inside : siblingDir (ws.boardDir board) = ws.boardDir board := by rw [siblingDir, named]
    rw [inside] at same
    have names := (List.append_inj same ordinary.length_boardDir).2
    exact ends ".stages" (by decide) (List.cons.inj names).1
  | some own =>
    -- The sibling would be the directory of the board's builds.
    have place := placeFrom_of_fileName? named []
    have length := ordinary.length_boardDir
    rw [place, List.length_append] at length
    have builds : placeFrom [] (ws.buildsDir board) = placeFrom [] (siblingDir (ws.boardDir board)) ++
        [siblingName (ws.boardDir board) suffix] := by
      rw [← List.singleton_append, ← List.append_assoc] at same
      exact (List.append_inj same.symm (by simpa using length.symm)).1
    rcases eq_of_buildsDir ordinary place builds with own' | builds'
    · have := congrArg (·.toList.length) own'
      simp [siblingName, named] at this
      omega
    · exact ends "builds" (by decide) builds'

theorem beside_boardDir (here : Location) :
    Beside (ws.IsRecord board) here (ws.boardDir board) := by
  constructor <;> intro rest <;> rw [placeFrom_sibling_of_plain ordinary.boardDir (by decide) (by decide)]
  · exact not_isRecord_sibling ordinary (by decide) (c := 'g') (by decide) (by decide) rest
  · exact not_isRecord_sibling ordinary (by decide) (c := 'd') (by decide) (by decide) rest

/-- A record of a board, or what is staged to become one with the board's directory. -/
def IsRecordOrStaged (ws : Workspace) (board : String) (here l : Location) : Prop :=
  ws.IsRecord board l ∨ Staged (ws.IsRecord board) here (ws.boardDir board) l

theorem IsRecordOrStaged.ends (h : ws.IsRecordOrStaged board here l) : EndsAsRecord l := by
  cases h with
  | inl isRecord => exact isRecord.ends
  | inr staged =>
    obtain ⟨rest, same, isRecord⟩ := staged
    rw [ordinary.boardDir.placeFrom, ← ordinary.boardDir.placeFrom []] at isRecord
    obtain ⟨s, rfl⟩ := eq_of_isRecord_boardDir ordinary isRecord
    exact ⟨placeFrom here (sibling (ws.boardDir board) "staging") ++ [".stages"], s,
      same.trans (by simp)⟩

/-- What is staged to become a record has the names that a record has in the directory of the
board's builds. -/
theorem IsRecordOrStaged.eq_of_staging
    (h : ws.IsRecordOrStaged board here
      (placeFrom here (sibling (ws.boardDir board) "staging") ++ rest)) :
    ∃ s, rest = [".stages", recordName s] := by
  cases h with
  | inl isRecord => exact absurd isRecord ((beside_boardDir ordinary here).staging rest)
  | inr staged =>
    obtain ⟨rest', same, isRecord⟩ := staged
    obtain rfl := List.append_cancel_left same
    rw [ordinary.boardDir.placeFrom, ← ordinary.boardDir.placeFrom []] at isRecord
    exact eq_of_isRecord_boardDir ordinary isRecord

end Workspace

end BoardDesign
