import BoardDesign.Proofs.Generation.Output

/-!
# What generated output holds

* `Abreast`: files of one directory that can be written together;
* `fileAt?_of_writeFiles`: files that have been written together hold their texts;
* `exists_dir_of_ending`: paths that differ only in what is written behind a dot at their end lie
  in one directory.
-/

namespace BoardDesign

open File File.Path World Action

namespace Generation

variable {here l : Location} {w w' : World} {path : String} {files : List (String × String)}

/-- The last name of a path. -/
def lastName (path : String) : String := (fileName? path).getD ""

/-- The files lie in one directory, and neither they nor their temporary siblings are in each
other's way. -/
structure Abreast (here l : Location) (files : List (String × String)) : Prop where
  place : ∀ f ∈ files, placeFrom here f.1 = l ++ [lastName f.1]
  temporary : ∀ f ∈ files, placeFrom here (sibling f.1 "tmp") = l ++ [siblingName f.1 "tmp"]
  distinct : (files.map fun f => lastName f.1).Nodup
  apart : ∀ f ∈ files, ∀ g ∈ files, lastName f.1 ≠ siblingName g.1 "tmp"

namespace Abreast

variable {f : String × String}

theorem tail (h : Abreast here l (f :: files)) : Abreast here l files :=
  ⟨fun g mem => h.place g (.tail _ mem), fun g mem => h.temporary g (.tail _ mem),
    (List.nodup_cons.mp h.distinct).2,
    fun g mem g' mem' => h.apart g (.tail _ mem) g' (.tail _ mem')⟩

theorem lastName_ne (h : Abreast here l (f :: files)) {g : String × String} (mem : g ∈ files) :
    lastName g.1 ≠ lastName f.1 := by
  intro same
  exact (List.nodup_cons.mp h.distinct).1 (List.mem_map.mpr ⟨g, mem, same⟩)

theorem siblingName_ne (h : Abreast here l (f :: files)) {g : String × String} (mem : g ∈ files) :
    siblingName g.1 "tmp" ≠ siblingName f.1 "tmp" := by
  intro same
  have names : "." ++ lastName g.1 ++ "." ++ "tmp" = "." ++ lastName f.1 ++ "." ++ "tmp" := same
  simp only [String.append_left_inj, String.append_right_inj] at names
  exact h.lastName_ne mem names

end Abreast

theorem stageFiles_cons_eq_ok {text : String} {staged : List String}
    (h : stageFiles staged ((path, text) :: files) w = (.ok (), w')) :
    ∃ w₁, w.write (sibling path "tmp") (Text.Utf8.bytes text) = .ok w₁ ∧
      stageFiles (staged ++ [sibling path "tmp"]) files w₁ = (.ok (), w') := by
  rw [stageFiles, bind_apply, Action.attempt, writeText, writeBytes, changing] at h
  cases written : w.write (sibling path "tmp") (Text.Utf8.bytes text) with
  | error fault =>
    rw [written] at h
    dsimp only at h
    rw [bind_apply] at h
    split at h <;> cases h
  | ok w₁ =>
    rw [written] at h
    exact ⟨w₁, rfl, h⟩

theorem fileAt?_of_stageFiles {staged : List String} (abreast : Abreast w.here l files)
    (done : stageFiles staged files w = (.ok (), w')) :
    w'.here = w.here ∧
      (∀ f ∈ files, w'.fileAt? (sibling f.1 "tmp") = some (Text.Utf8.bytes f.2)) ∧
      ∀ other, (∀ f ∈ files, w.placeOf other ≠ l ++ [siblingName f.1 "tmp"]) →
        w'.fileAt? other = w.fileAt? other := by
  induction files generalizing staged w with
  | nil =>
    cases done
    exact ⟨rfl, nofun, fun _ _ => rfl⟩
  | cons f rest ih =>
    obtain ⟨path, text⟩ := f
    obtain ⟨w₁, written, later⟩ := stageFiles_cons_eq_ok done
    have here₁ := here_write written
    have same (path : String) : w₁.placeOf path = w.placeOf path := by
      rw [placeOf_eq, placeOf_eq, here₁]
    have first : w.placeOf (sibling path "tmp") = l ++ [siblingName path "tmp"] :=
      abreast.temporary (path, text) (.head _)
    obtain ⟨here', texts, kept⟩ := ih (here₁.symm ▸ abreast.tail) later
    refine ⟨here'.trans here₁, fun f mem => ?_, fun other free => ?_⟩
    · rcases List.mem_cons.mp mem with rfl | mem
      · have free : ∀ g ∈ rest, w₁.placeOf (sibling path "tmp") ≠ l ++ [siblingName g.1 "tmp"] := by
          intro g mem' place
          rw [same, first] at place
          exact abreast.siblingName_ne mem' (List.singleton_injective (List.append_cancel_left place)).symm
        rw [kept _ free, fileAt?_write written, if_pos rfl]
      · exact texts f mem
    · rw [kept other fun f mem => same other ▸ free f (.tail _ mem), fileAt?_write written,
        if_neg fun place => free (path, text) (.head _) (place.trans first)]

/-- What lies in the directory under another name than those that are moved. -/
theorem fileAt?_of_renameFiles (abreast : Abreast w.here l files)
    (done : (files.forM fun f => onPath f.1 (Action.rename (sibling f.1 "tmp") f.1)) w =
      (.ok (), w')) :
    (∀ f ∈ files, w'.fileAt? f.1 = w.fileAt? (sibling f.1 "tmp")) ∧
      ∀ other name, w.placeOf other = l ++ [name] →
        (∀ f ∈ files, name ≠ lastName f.1 ∧ name ≠ siblingName f.1 "tmp") →
        w'.fileAt? other = w.fileAt? other := by
  induction files generalizing w with
  | nil =>
    cases done
    exact ⟨nofun, fun _ _ _ _ => rfl⟩
  | cons f rest ih =>
    obtain ⟨⟨⟩, w₁, first, later⟩ := bind_eq_ok done
    have moved := changing_of_mapError first
    have here₁ := here_rename moved
    have same (path : String) : w₁.placeOf path = w.placeOf path := by
      rw [placeOf_eq, placeOf_eq, here₁]
    have target : w.placeOf f.1 = l ++ [lastName f.1] := abreast.place f (.head _)
    have source : w.placeOf (sibling f.1 "tmp") = l ++ [siblingName f.1 "tmp"] :=
      abreast.temporary f (.head _)
    have kept {other name : String} (place : w.placeOf other = l ++ [name])
        (apart : name ≠ lastName f.1) (apart' : name ≠ siblingName f.1 "tmp") :
        w₁.fileAt? other = w.fileAt? other := by
      rw [fileAt?, fileAt?, same, place, find?_rename_of_apart moved]
      · exact target ▸ not_isBelow_sibling apart.symm
      · exact source ▸ not_isBelow_sibling apart'.symm
    obtain ⟨texts, others⟩ := ih (here₁.symm ▸ abreast.tail) later
    refine ⟨fun g mem => ?_, fun other name place free => ?_⟩
    · rcases List.mem_cons.mp mem with rfl | mem
      · rw [others _ _ ((same _).trans target) fun f mem =>
          ⟨(abreast.lastName_ne mem).symm, abreast.apart _ (.head _) f (.tail _ mem)⟩,
          fileAt?_rename moved]
      · rw [texts g mem, kept (abreast.temporary g (.tail _ mem))
          (abreast.apart _ (.head _) g (.tail _ mem)).symm (abreast.siblingName_ne mem)]
    · rw [others other name ((same other).trans place) fun f mem => free f (.tail _ mem),
        kept place (free f (.head _)).1 (free f (.head _)).2]

/-- Files that have been written together hold their texts. -/
theorem fileAt?_of_writeFiles (abreast : Abreast w.here l files)
    (done : writeFiles files w = (.ok (), w')) :
    ∀ f ∈ files, w'.fileAt? f.1 = some (Text.Utf8.bytes f.2) := by
  obtain ⟨⟨⟩, w₁, staged, moved⟩ := bind_eq_ok done
  obtain ⟨here₁, texts, -⟩ := fileAt?_of_stageFiles abreast staged
  intro f mem
  rw [(fileAt?_of_renameFiles (here₁.symm ▸ abreast) moved).1 f mem, texts f mem]

end Generation

/-! ## Paths with an ending -/

/-- Paths that differ only in what is written behind a dot at their end lie in one directory. -/
theorem World.exists_dir_of_ending (here : Location) (front : List Char) :
    ∃ l last, ∀ path suffix : String, path.toList = front ++ '.' :: suffix.toList →
      '/' ∉ suffix.toList → 2 ≤ suffix.toList.length →
      fileName? path = some (String.ofList (last ++ '.' :: suffix.toList)) ∧
        placeFrom here path = l ++ [String.ofList (last ++ '.' :: suffix.toList)] := by
  obtain ⟨before, last, whole, -⟩ := Text.pieces_append front (List.not_mem_nil : '/' ∉ [])
  refine ⟨((before.filter fun p => !p.isEmpty).map String.ofList).foldl enter
    (if front.head? = some '/' then [] else here), last, fun path suffix text noSlash long => ?_⟩
  have noSlash' : '/' ∉ '.' :: suffix.toList := by simpa using noSlash
  obtain ⟨before', last', whole', pieces⟩ := Text.pieces_append front noSlash'
  obtain ⟨rfl, same⟩ := List.append_inj' (whole.symm.trans whole') rfl
  obtain rfl := List.singleton_injective same
  rw [← text] at pieces
  have proper : last ++ '.' :: suffix.toList ≠ [] ∧ last ++ '.' :: suffix.toList ≠ ['.'] ∧
      last ++ '.' :: suffix.toList ≠ ['.', '.'] := by
    refine ⟨by simp, ?_, ?_⟩ <;> intro same <;>
    · have length := congrArg List.length same
      simp at length
      omega
  refine ⟨fileName?_of_pieces pieces proper, ?_⟩
  have names : names path = (before.filter fun p => !p.isEmpty).map String.ofList ++
      [String.ofList (last ++ '.' :: suffix.toList)] := by
    simp [World.names, pieces]
  have absolute : isAbsolute path = (front.head? == some '/') := by
    rw [isAbsolute, text]
    cases front <;> simp
  have noDots : String.ofList (last ++ '.' :: suffix.toList) ≠ "." ∧
      String.ofList (last ++ '.' :: suffix.toList) ≠ ".." := by
    simpa [← String.toList_inj] using proper.2
  rw [placeFrom, names, List.foldl_append, absolute, List.foldl_cons, List.foldl_nil, enter,
    if_neg noDots.1, if_neg noDots.2]
  simp only [beq_iff_eq]

theorem World.exists_front_of_join (dir board : String) :
    ∃ front, ∀ suffix : String, (join dir (board ++ ("." ++ suffix))).toList =
      front ++ '.' :: suffix.toList := by
  have absolute (suffix : String) : isAbsolute (board ++ ("." ++ suffix)) = isAbsolute board := by
    rw [isAbsolute, isAbsolute]
    cases whole : board.toList <;> simp [whole]
  by_cases whole : (isAbsolute board || dir.isEmpty) = true
  · exact ⟨board.toList, fun suffix => by rw [File.Path.join, absolute, if_pos whole]; simp⟩
  · by_cases slash : dir.toList.getLast? = some '/'
    · refine ⟨dir.toList ++ board.toList, fun suffix => ?_⟩
      rw [File.Path.join, absolute, if_neg whole, if_pos slash]
      simp
    · refine ⟨dir.toList ++ '/' :: board.toList, fun suffix => ?_⟩
      rw [File.Path.join, absolute, if_neg whole, if_neg slash]
      simp

end BoardDesign
