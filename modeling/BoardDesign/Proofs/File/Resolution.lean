import BoardDesign.Proofs.File.Name
import BoardDesign.Proofs.File.Place
import Mathlib.Data.List.Induction

/-!
# Places of paths that are made from other paths

* `placeFrom_join`: a path below another one stands for a place below its place;
* `placeFrom_sibling`, `placeFrom_parent`: the siblings of a path stand beside it;
* `placeFrom_ends`: what is written at the end of a path ends the last name of its place;
* `Plain`: the paths without a step up, which stand for the names that they are written in;
* `find?_of_notFound`: there is nothing at the place of a plain path that leads nowhere.
-/

namespace BoardDesign

open File File.Path

/-- A text that can name something in a directory. -/
structure IsName (name : String) : Prop where
  filled : name ≠ ""
  noSlash : '/' ∉ name.toList
  noDots : name ≠ "." ∧ name ≠ ".."

namespace World

variable {here l m : Location} {path base name : String} {w : World}

/-- The location that a path stands for in a working directory. -/
def placeFrom (here : Location) (path : String) : Location :=
  (names path).foldl enter (if isAbsolute path then [] else here)

theorem placeOf_eq (w : World) (path : String) : w.placeOf path = placeFrom w.here path := rfl

/-- Where a path ends depends on nothing but the working directory. -/
theorem placeOf_congr {w w' : World} (here : w'.here = w.here) (path : String) :
    w'.placeOf path = w.placeOf path := by
  rw [placeOf_eq, placeOf_eq, here]

/-- The names between the slashes of a text. -/
def namesOf (cs : List Char) : List String :=
  ((Text.pieces '/' cs).filter fun p => !p.isEmpty).map String.ofList

theorem namesOf_slash (a b : List Char) : namesOf (a ++ '/' :: b) = namesOf a ++ namesOf b := by
  simp [namesOf, Text.pieces_append_sep]

theorem names_join (relative : isAbsolute path = false) :
    names (join base path) = names base ++ names path := by
  change namesOf (join base path).toList = namesOf base.toList ++ namesOf path.toList
  unfold join
  simp only [relative, Bool.false_or]
  split
  · rename_i empty
    rw [String.isEmpty_iff.mp empty]
    rfl
  · split
    · rename_i slash
      obtain ⟨front, whole⟩ := List.getLast?_eq_some_iff.mp slash
      rw [String.toList_append, whole, List.append_assoc, List.singleton_append, namesOf_slash,
        namesOf_slash]
      simp [namesOf, Text.pieces]
    · rw [String.toList_append, String.toList_append, List.append_assoc,
        show "/".toList = ['/'] from rfl, List.singleton_append, namesOf_slash]

theorem isAbsolute_join (relative : isAbsolute path = false) :
    isAbsolute (join base path) = isAbsolute base := by
  unfold join
  simp only [relative, Bool.false_or]
  split
  · rename_i empty
    rw [String.isEmpty_iff.mp empty, relative]
    rfl
  · rename_i filled
    have front : base.toList ≠ [] := by
      intro none
      exact filled (String.isEmpty_iff.mpr (String.toList_eq_nil_iff.mp none))
    obtain ⟨c, cs, whole⟩ := List.exists_cons_of_ne_nil front
    split <;> simp [isAbsolute, whole]

theorem placeFrom_join (relative : isAbsolute path = false) :
    placeFrom here (join base path) = (names path).foldl enter (placeFrom here base) := by
  rw [placeFrom, names_join relative, isAbsolute_join relative, List.foldl_append, ← placeFrom]

end World

namespace IsName

variable {name : String}

theorem of_mem {c : Char} (mem : c ∈ name.toList) (other : c ≠ '.') (noSlash : '/' ∉ name.toList) :
    IsName name := by
  refine ⟨?_, noSlash, ?_, ?_⟩ <;> rintro rfl <;> simp [other] at mem

variable (isName : IsName name)
include isName

theorem toList_ne_nil : name.toList ≠ [] := fun none =>
  isName.filled (String.toList_eq_nil_iff.mp none)

theorem relative : isAbsolute name = false := by
  obtain ⟨c, cs, whole⟩ := List.exists_cons_of_ne_nil isName.toList_ne_nil
  have noSlash := isName.noSlash
  rw [whole] at noSlash
  simp only [isAbsolute, whole, List.head?_cons]
  simpa using fun same : c = '/' => noSlash (same ▸ List.mem_cons_self)

theorem names : World.names name = [name] := by
  simp [World.names, Text.pieces_of_not_mem isName.noSlash, isName.toList_ne_nil]

theorem enter (l : Location) : World.enter l name = l ++ [name] := by
  simp [World.enter, isName.noDots]

theorem placeFrom_join (here : Location) (base : String) :
    World.placeFrom here (join base name) = World.placeFrom here base ++ [name] := by
  rw [World.placeFrom_join isName.relative, isName.names, List.foldl_cons, List.foldl_nil,
    isName.enter]

end IsName

/-! ## The parent of a path and its siblings -/

namespace File.Path

variable {path : String} {start : List Char} {body : List (List Char)}

/-- The names that the pieces of a path stand for. -/
def pieceNames (body : List (List Char)) : List String :=
  (body.filter fun p => !isNothing p).map String.ofList

/-- The pieces are what a path with this start can have as its body. -/
structure Parts.Fits (p : Parts) : Prop where
  start : p.start = [] ∨ p.start = ['/'] ∨ p.start = ['.']
  noSlash : ∀ piece ∈ p.body, '/' ∉ piece
  afterDot : p.start = ['.'] → ∀ piece ∈ p.body.head?, piece = []
  first : p.start = [] → ∀ piece ∈ p.body.head?, piece = [] → p.body = [[]]

theorem fits_parts (path : String) : (parts path).Fits := by
  rw [parts]
  have noSlash {cs : List Char} : ∀ piece ∈ Text.pieces '/' cs, '/' ∉ piece :=
    fun _ mem => Text.not_mem_of_mem_pieces mem
  split
  · exact ⟨.inr (.inl rfl), noSlash, by simp, by simp⟩
  · exact ⟨.inr (.inr rfl), by simp, by simp, by simp⟩
  · exact ⟨.inr (.inr rfl), noSlash, by simp [Text.pieces], by simp⟩
  · rename_i cs notRoot _ _
    refine ⟨.inl rfl, noSlash, by simp, fun _ piece head empty => ?_⟩
    subst empty
    cases whole : path.toList with
    | nil => rfl
    | cons c rest =>
      simp only [whole, Text.pieces] at head
      split at head
      · rename_i slash
        exact absurd (slash ▸ whole) (notRoot rest)
      · split at head <;> simp at head

theorem Parts.Fits.front {p : Parts} (h : p.Fits) {body : List (List Char)}
    (front : body <+: p.body) : Parts.Fits ⟨p.start, body⟩ := by
  obtain ⟨rest, whole⟩ := front
  have head : ∀ piece ∈ body.head?, piece ∈ p.body.head? := by
    intro piece mem
    rw [← whole, List.head?_append, Option.mem_def.mp mem]
    rfl
  refine ⟨h.start, fun piece mem => h.noSlash piece (whole ▸ List.mem_append_left _ mem),
    fun dot piece mem => h.afterDot dot piece (head piece mem), fun none piece mem empty => ?_⟩
  have single := h.first none piece (head piece mem) empty
  rw [single] at whole
  cases body with
  | nil => cases mem
  | cons q more =>
    simp only [List.cons_append, List.cons.injEq, List.append_eq_nil_iff] at whole
    rw [whole.1, whole.2.1]

theorem pieces_joinPieces (noSlash : ∀ piece ∈ body, '/' ∉ piece) (filled : body ≠ []) :
    Text.pieces '/' (Text.joinPieces '/' body) = body := by
  induction body with
  | nil => exact absurd rfl filled
  | cons p rest ih =>
    cases rest with
    | nil => exact Text.pieces_of_not_mem (noSlash p (.head _))
    | cons q more =>
      rw [Text.joinPieces, Text.pieces_append_sep, Text.pieces_of_not_mem (noSlash p (.head _)),
        ih (fun piece mem => noSlash piece (.tail _ mem)) (by simp), List.singleton_append]

theorem pieceNames_joinPieces (noSlash : ∀ piece ∈ body, '/' ∉ piece) :
    pieceNames (Text.pieces '/' (Text.joinPieces '/' body)) = pieceNames body := by
  cases body with
  | nil => rfl
  | cons p rest => rw [pieces_joinPieces noSlash (by simp)]

/-- Pieces that name nothing are passed over. -/
theorem pieceNames_cons_nothing {p : List Char} (nothing : isNothing p = true) :
    pieceNames (p :: body) = pieceNames body := by
  simp [pieceNames, nothing]

theorem Parts.Fits.pieceNames_text {p : Parts} (h : p.Fits) :
    pieceNames (Text.pieces '/' p.text.toList) = pieceNames p.body := by
  obtain ⟨start, body⟩ := p
  have whole : (Parts.text ⟨start, body⟩).toList = start ++ Text.joinPieces '/' body :=
    String.toList_ofList
  rw [whole]
  obtain rfl | rfl | rfl := h.start
  · exact pieceNames_joinPieces h.noSlash
  · rw [List.singleton_append, Text.pieces, if_pos rfl, pieceNames_cons_nothing rfl]
    exact pieceNames_joinPieces h.noSlash
  · cases body with
    | nil => rfl
    | cons q rest =>
      obtain rfl : q = [] := h.afterDot rfl q rfl
      rw [pieceNames_cons_nothing rfl]
      cases rest with
      | nil => rfl
      | cons r more =>
        have dot : ['.'] ++ Text.joinPieces '/' ([] :: r :: more) =
            ['.'] ++ '/' :: Text.joinPieces '/' (r :: more) := rfl
        rw [dot, Text.pieces_append_sep, Text.pieces_of_not_mem (by decide), List.singleton_append,
          pieceNames_cons_nothing rfl]
        exact pieceNames_joinPieces fun piece mem => h.noSlash piece (.tail _ mem)

theorem isAbsolute_iff : isAbsolute path = true ↔ (parts path).start = ['/'] := by
  rw [parts, isAbsolute]
  split
  · rename_i whole
    simp [whole]
  · rename_i whole
    simp [whole]
  · rename_i whole
    simp [whole]
  · rename_i notRoot _ _
    cases whole : path.toList with
    | nil => simp
    | cons c rest => simpa using fun same : c = '/' => notRoot rest (same ▸ whole)

theorem Parts.Fits.isAbsolute_text {p : Parts} (h : p.Fits) :
    isAbsolute p.text = true ↔ p.start = ['/'] := by
  obtain ⟨start, body⟩ := p
  have whole : (Parts.text ⟨start, body⟩).toList = start ++ Text.joinPieces '/' body :=
    String.toList_ofList
  rw [isAbsolute, whole]
  obtain rfl | rfl | rfl := h.start
  · cases body with
    | nil => simp [Text.joinPieces]
    | cons q rest =>
      cases q with
      | nil =>
        obtain rfl : rest = [] := (List.cons.inj (h.first rfl [] rfl rfl)).2
        simp [Text.joinPieces]
      | cons c cs =>
        have noSlash : c ≠ '/' := fun same => h.noSlash _ (.head _) (same ▸ .head _)
        cases rest <;> simp [Text.joinPieces, noSlash]
  · simp
  · simp

theorem dropNothing_concat (p : List Char) :
    dropNothing (body ++ [p]) = if isNothing p then dropNothing body else body ++ [p] := by
  by_cases nothing : isNothing p = true <;> simp [dropNothing, nothing]

theorem prefix_dropNothing (body : List (List Char)) : dropNothing body <+: body := by
  have front := List.reverse_prefix.mpr (List.dropWhile_suffix (l := body.reverse) isNothing)
  rwa [List.reverse_reverse] at front

theorem filter_dropNothing (body : List (List Char)) :
    ((dropNothing body).filter fun p => !isNothing p) = body.filter fun p => !isNothing p := by
  induction body using List.reverseRecOn with
  | nil => rfl
  | append_singleton front p ih =>
    rw [dropNothing_concat]
    split
    · rename_i nothing
      rw [ih]
      simp [nothing]
    · rfl

theorem isNothing_of_dropNothing {front : List (List Char)} {last : List Char}
    (h : dropNothing body = front ++ [last]) : isNothing last = false := by
  induction body using List.reverseRecOn with
  | nil => simp [dropNothing] at h
  | append_singleton before p ih =>
    rw [dropNothing_concat] at h
    split at h
    · exact ih h
    · rename_i something
      rw [List.singleton_injective (List.append_inj' h rfl).2] at something
      simpa using something

/-- A path with a file name has pieces up to the last one, which is the name. -/
theorem exists_pieces_of_fileName? {name : String} (h : fileName? path = some name) :
    ∃ front last, dropNothing (parts path).body = front ++ [last] ∧ last ≠ ['.', '.'] ∧
      name = String.ofList last := by
  unfold fileName? components at h
  dsimp only at h
  rw [← filter_dropNothing] at h
  obtain none | ⟨front, last, whole⟩ := (dropNothing (parts path).body).eq_nil_or_concat
  · rw [none] at h
    simp only [List.filter_nil, List.map_nil, List.append_nil] at h
    split at h
    · rename_i found
      split at found <;> simp at found
    · cases h
  · rw [List.concat_eq_append] at whole
    have something := isNothing_of_dropNothing whole
    refine ⟨front, last, whole, ?_⟩
    rw [whole] at h
    simp only [List.filter_append, List.filter_cons, something, Bool.not_false, if_true,
      List.filter_nil, List.map_append, List.map_cons, List.map_nil, ← List.append_assoc,
      List.getLast?_append, List.getLast?_singleton, Option.some_or] at h
    rw [component] at h
    split at h
    · rename_i found
      split at found
      · cases found
      · rename_i up
        cases found
        cases h
        exact ⟨up, rfl⟩
    · cases h

end File.Path

namespace World

variable {here : Location} {path : String}

/-- The names of a path that are not a dot, which stays where it is. -/
def steps (path : String) : List String := (names path).filter (· ≠ ".")

theorem foldl_enter_steps (names : List String) (l : Location) :
    (names.filter (· ≠ ".")).foldl enter l = names.foldl enter l := by
  induction names generalizing l with
  | nil => rfl
  | cons name rest ih =>
    by_cases dot : name = "."
    · simpa [dot, enter] using ih l
    · simpa [dot] using ih (enter l name)

theorem placeFrom_eq_steps (here : Location) (path : String) :
    placeFrom here path = (steps path).foldl enter (if isAbsolute path then [] else here) :=
  (foldl_enter_steps _ _).symm

theorem steps_eq_pieceNames (path : String) :
    steps path = pieceNames (Text.pieces '/' path.toList) := by
  rw [steps, names, pieceNames]
  induction Text.pieces '/' path.toList with
  | nil => rfl
  | cons p rest ih =>
    have dot : String.ofList p = "." ↔ p = ['.'] := by
      rw [← String.toList_inj, String.toList_ofList]
      exact Iff.rfl
    by_cases empty : p = [] <;> by_cases here : p = ['.'] <;>
      simp_all [isNothing]

theorem steps_eq_body (path : String) : steps path = pieceNames (parts path).body := by
  rw [steps_eq_pieceNames, parts]
  split
  · rename_i rest whole
    rw [whole, Text.pieces, if_pos rfl, pieceNames_cons_nothing rfl]
  · rename_i whole
    rw [whole]
    rfl
  · rename_i rest whole
    have dot : '.' :: '/' :: rest = ['.'] ++ '/' :: rest := rfl
    rw [whole, dot, Text.pieces_append_sep, Text.pieces_of_not_mem (by decide), 
      List.singleton_append, pieceNames_cons_nothing rfl, Text.pieces, if_pos rfl,
      pieceNames_cons_nothing rfl]
  · rfl

/-- What a path with a file name stands for lies in what its parent stands for, under the file
name. -/
theorem exists_parent {name : String} (h : fileName? path = some name) :
    ∃ parent, parent? path = some parent ∧ IsName name ∧
      ∀ here, placeFrom here path = placeFrom here parent ++ [name] := by
  obtain ⟨front, last, whole, up, rfl⟩ := exists_pieces_of_fileName? h
  have fits := fits_parts path
  have within : dropNothing front <+: (parts path).body :=
    ((prefix_dropNothing front).trans ⟨[last], whole.symm⟩).trans (prefix_dropNothing _)
  have fits' := fits.front within
  have something := isNothing_of_dropNothing whole
  simp only [isNothing, Bool.or_eq_false_iff, List.isEmpty_eq_false_iff, beq_eq_false_iff_ne,
    ne_eq] at something
  have isName : IsName (String.ofList last) := by
    have mem : last ∈ (parts path).body :=
      (prefix_dropNothing _).subset (whole ▸ List.mem_append_right _ (.head _))
    refine ⟨?_, ?_, ?_, ?_⟩
    · simpa [← String.toList_inj] using something.1
    · simpa using fits.noSlash last mem
    · simpa [← String.toList_inj] using something.2
    · simpa [← String.toList_inj] using up
  refine ⟨Parts.text ⟨(parts path).start, dropNothing front⟩, ?_, isName, fun here => ?_⟩
  · simp only [parent?, whole, List.reverse_append, List.reverse_singleton,
      List.singleton_append, List.reverse_reverse]
  have pieces : steps path =
      steps (Parts.text ⟨(parts path).start, dropNothing front⟩) ++ [String.ofList last] := by
    rw [steps_eq_body, steps_eq_pieceNames, fits'.pieceNames_text, pieceNames, pieceNames,
      ← filter_dropNothing (parts path).body, whole, filter_dropNothing]
    simp [isNothing, something]
  have absolute : isAbsolute (Parts.text ⟨(parts path).start, dropNothing front⟩) =
      isAbsolute path := by
    rw [Bool.eq_iff_iff, fits'.isAbsolute_text, isAbsolute_iff]
  rw [placeFrom_eq_steps, pieces, List.foldl_append, placeFrom_eq_steps, absolute, List.foldl_cons,
    List.foldl_nil, isName.enter]

end World

/-- The directory that the siblings of a path are in. -/
def siblingDir (path : String) : String :=
  match fileName? path with
  | some _ => (parent? path).getD path
  | none => path

/-- The name of a sibling. -/
def siblingName (path suffix : String) : String :=
  "." ++ (fileName? path).getD "" ++ "." ++ suffix

theorem sibling_eq (path suffix : String) :
    sibling path suffix = join (siblingDir path) (siblingName path suffix) := by
  rw [sibling, withFileName, siblingDir, siblingName]
  cases fileName? path <;> rfl

theorem isName_siblingName (path : String) {suffix : String} (filled : suffix ≠ "")
    (noSlash : '/' ∉ suffix.toList) : IsName (siblingName path suffix) := by
  have whole : (siblingName path suffix).toList =
      '.' :: (((fileName? path).getD "").toList ++ '.' :: suffix.toList) := by
    simp [siblingName]
  have long : 2 ≤ (siblingName path suffix).toList.length := by
    rw [whole]
    simp
    omega
  have name : '/' ∉ ((fileName? path).getD "").toList := by
    cases named : fileName? path with
    | none => exact List.not_mem_nil
    | some name =>
      obtain ⟨_, _, isName, _⟩ := World.exists_parent named
      exact isName.noSlash
  refine ⟨?_, ?_, ?_, ?_⟩
  · intro same
    rw [same] at long
    simp at long
  · rw [whole]
    simpa [not_or] using ⟨name, noSlash⟩
  · intro same
    rw [same] at long
    simp at long
  · intro same
    rw [same] at whole
    have last := (List.cons.inj whole).2
    cases named : ((fileName? path).getD "").toList with
    | nil =>
      rw [named] at last
      exact filled (String.toList_eq_nil_iff.mp (List.cons.inj last).2.symm)
    | cons c cs =>
      rw [named] at last
      simp at last

namespace World

variable {here l : Location} {path base name : String} {w : World}

theorem placeFrom_sibling (path : String) {suffix : String} (filled : suffix ≠ "")
    (noSlash : '/' ∉ suffix.toList) (here : Location) :
    placeFrom here (sibling path suffix) =
      placeFrom here (siblingDir path) ++ [siblingName path suffix] := by
  rw [sibling_eq, (isName_siblingName path filled noSlash).placeFrom_join]

/-- A path with a file name stands beside its siblings. -/
theorem placeFrom_of_fileName? (h : fileName? path = some name) (here : Location) :
    placeFrom here path = placeFrom here (siblingDir path) ++ [name] := by
  obtain ⟨parent, above, _, place⟩ := exists_parent h
  rw [place here, siblingDir, h, above]
  rfl

/-- What is written at the end of a path ends the last name of its place. -/
theorem placeFrom_ends {suffix : String} (ends : ∃ front, path.toList = front ++ suffix.toList)
    (noSlash : '/' ∉ suffix.toList) (long : 2 < suffix.toList.length) (here : Location) :
    ∃ l p, placeFrom here path = l ++ [String.ofList (p ++ suffix.toList)] := by
  obtain ⟨front, whole⟩ := ends
  obtain ⟨before, last, _, pieces⟩ := Text.pieces_append front noSlash
  rw [← whole] at pieces
  have filled : last ++ suffix.toList ≠ [] := fun none => by
    rw [(List.append_eq_nil_iff.mp none).2] at long
    simp at long
  obtain ⟨names, all⟩ := names_of_pieces pieces filled
  have noDots : String.ofList (last ++ suffix.toList) ≠ "." ∧
      String.ofList (last ++ suffix.toList) ≠ ".." := by
    constructor <;> intro same <;>
    · have length := congrArg (·.toList.length) same
      simp at length
      omega
  refine ⟨names.foldl enter (if isAbsolute path then [] else here), last, ?_⟩
  rw [placeFrom, all, List.foldl_append, List.foldl_cons, List.foldl_nil, enter,
    if_neg noDots.1, if_neg noDots.2]

/-! ## Plain paths -/

/-- An absolute path without a step up. -/
structure Plain (path : String) : Prop where
  absolute : isAbsolute path = true
  noUp : ".." ∉ names path

theorem foldl_enter_of_noUp {names : List String} (noUp : ".." ∉ names) (l : Location) :
    names.foldl enter l = l ++ names.filter (· ≠ ".") := by
  induction names generalizing l with
  | nil => simp
  | cons name rest ih =>
    obtain ⟨notUp, noUp⟩ := not_or.mp (List.mem_cons.not.mp noUp)
    rw [List.foldl_cons, ih noUp]
    by_cases dot : name = "."
    · simp [dot, enter]
    · simp [dot, enter, Ne.symm notUp]

theorem Plain.placeFrom (h : Plain path) (here : Location) : placeFrom here path = steps path := by
  rw [World.placeFrom, foldl_enter_of_noUp h.noUp, if_pos h.absolute, List.nil_append, steps]

/-- A path that cannot be followed for want of something leads to nothing, unless it steps up. -/
theorem find?_of_walk_notFound (closed : w.files.Closed) {names : List String}
    (noUp : ".." ∉ names) (h : w.walk l names = .error .notFound) :
    w.files.find? (names.foldl enter l) = none := by
  induction names generalizing l with
  | nil => cases h
  | cons name rest ih =>
    obtain ⟨notUp, noUp⟩ := not_or.mp (List.mem_cons.not.mp noUp)
    rw [walk] at h
    cases first : w.step l name with
    | ok k =>
      rw [first] at h
      rw [List.foldl_cons, ← (step_eq_ok first).2]
      exact ih noUp h
    | error e =>
      rw [first] at h
      cases h
      have here : name ≠ "." ∧ w.files.find? (l ++ [name]) = none := by
        unfold step at first
        split at first
        · cases first
        split at first
        · cases first
        rename_i notHere
        split at first
        · cases first
        split at first
        · cases first
        split at first
        · cases first
        · rename_i absent
          exact ⟨notHere, Option.not_isSome_iff_eq_none.mp absent⟩
      have there : enter l name = l ++ [name] := by simp [enter, here.1, Ne.symm notUp]
      rw [List.foldl_cons, there, foldl_enter_of_noUp noUp]
      by_cases last : rest.filter (· ≠ ".") = []
      · rw [last, List.append_nil, here.2]
      · exact closed.find?_below (by simp [here.2]) last

theorem Plain.find?_of_notFound (h : Plain path) (closed : w.files.Closed)
    (absent : w.locate path = .error .notFound) : w.files.find? (w.placeOf path) = none := by
  have filled : path.isEmpty = false := by
    rw [Bool.eq_false_iff]
    intro empty
    have absolute := h.absolute
    rw [String.isEmpty_iff.mp empty] at absolute
    cases absolute
  unfold locate origin at absent
  rw [placeOf]
  split at absent
  · simp [bind, Except.bind] at absent
  · simp only [filled, h.absolute, if_true, Bool.false_eq_true, if_false, bind,
      Except.bind] at absent
    cases walked : w.walk [] (names path) with
    | error e =>
      simp only [walked, Except.error.injEq] at absent
      subst absent
      simpa [h.absolute] using find?_of_walk_notFound closed h.noUp walked
    | ok m =>
      simp only [walked] at absent
      split at absent <;> cases absent

end World

end BoardDesign
