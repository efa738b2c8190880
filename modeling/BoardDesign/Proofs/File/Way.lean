import BoardDesign.Proofs.File.Reading

/-!
# The way of a path

* `find?_move_target` and its like: what a move within a directory does;
* `OnWay`: the directories that a path goes through before its last step; its siblings go through
  the same ones (`onWay_sibling`);
* `Leads.congr`: a path leads where it led in every world that is the same along its way;
* `leads_of_sibling`: where a sibling leads to a name, the path itself leads to one beside it;
* `onWay_of_makeDirs`: the directories that are made above a path are on its way;
* `Leads.doesExist`, `Leads.removeDir`, `Leads.rename`: what is found, removed and moved by paths
  that lead to names.
-/

namespace BoardDesign

open File File.Path

namespace Text

variable {sep c : Char} {cs : List Char}

theorem mem_pieces_iff (other : c ≠ sep) : (∃ p ∈ pieces sep cs, c ∈ p) ↔ c ∈ cs := by
  induction cs with
  | nil => simp [pieces]
  | cons d rest ih =>
    rw [pieces, List.mem_cons, ← ih]
    split
    · rename_i same
      simp [same, other]
    · cases parts : pieces sep rest with
      | nil => exact absurd parts (pieces_ne_nil sep rest)
      | cons p ps => simp [or_assoc]

end Text

namespace File.Tree

variable {t : Tree} {l : Location} {a b c : String}

/-! ## A move within a directory -/

theorem find?_move_target (rest : Location) :
    (t.move (l ++ [a]) (l ++ [b])).find? (l ++ [b] ++ rest) = t.find? (l ++ [a] ++ rest) := by
  rw [find?_move (by simp) (by simp), if_pos (isBelow_iff.mpr ⟨rest, rfl⟩), List.drop_left]

theorem find?_move_source (apart : a ≠ b) (rest : Location) :
    (t.move (l ++ [a]) (l ++ [b])).find? (l ++ [a] ++ rest) = none := by
  rw [find?_move (by simp) (by simp), if_neg (World.not_isBelow_beside apart.symm rest),
    if_pos (isBelow_iff.mpr ⟨rest, rfl⟩)]

theorem find?_move_beside (ha : c ≠ a) (hb : c ≠ b) (rest : Location) :
    (t.move (l ++ [a]) (l ++ [b])).find? (l ++ [c] ++ rest) = t.find? (l ++ [c] ++ rest) := by
  rw [find?_move (by simp) (by simp), if_neg (World.not_isBelow_beside hb.symm rest),
    if_neg (World.not_isBelow_beside ha.symm rest)]

theorem find?_move_outside {source target m : Location} (named : source ≠ [])
    (notSource : ¬ isBelow source m = true) (notTarget : ¬ isBelow target m = true) :
    (t.move source target).find? m = t.find? m := by
  by_cases root : m = []
  · simp [root]
  · rw [find?_move named root, if_neg notTarget, if_neg notSource]

theorem find?_eraseBelow_self (named : l ≠ []) (rest : Location) :
    (t.eraseBelow l).find? (l ++ rest) = none := by
  rw [find?_eraseBelow (by simp [named]), if_pos (isBelow_iff.mpr ⟨rest, rfl⟩)]

theorem find?_eraseBelow_outside {m : Location} (outside : ¬ isBelow l m = true) :
    (t.eraseBelow l).find? m = t.find? m := by
  by_cases root : m = []
  · simp [root]
  · rw [find?_eraseBelow root, if_neg outside]

end File.Tree

namespace World

variable {w w' : World} {here l m : Location} {path target parent name suffix : String}

/-! ## Where a path comes through -/

/-- Where a path is followed from. -/
def start (here : Location) (path : String) : Location := if isAbsolute path then [] else here

/-- The places that a path comes through before its last step. -/
def OnWay (here : Location) (path : String) (m : Location) : Prop :=
  ∃ front rest, steps path = front ++ rest ∧ rest ≠ [] ∧ m = front.foldl enter (start here path)

/-- What a path stands for is what its parent stands for, with its last piece. -/
theorem exists_parent_of_pieces {front : List (List Char)} {last : List Char}
    (whole : dropNothing (parts path).body = front ++ [last]) :
    ∃ parent, parent? path = some parent ∧ isAbsolute parent = isAbsolute path ∧
      steps path = steps parent ++ pieceNames [last] := by
  have within : dropNothing front <+: (parts path).body :=
    ((prefix_dropNothing front).trans ⟨[last], whole.symm⟩).trans (prefix_dropNothing _)
  have fits := (fits_parts path).front within
  refine ⟨Parts.text ⟨(parts path).start, dropNothing front⟩, ?_, ?_, ?_⟩
  · simp only [parent?, whole, List.reverse_append, List.reverse_singleton, List.singleton_append,
      List.reverse_reverse]
  · rw [Bool.eq_iff_iff, fits.isAbsolute_text, isAbsolute_iff]
  · rw [steps_eq_body, steps_eq_pieceNames, fits.pieceNames_text, pieceNames, pieceNames,
      pieceNames, ← filter_dropNothing (parts path).body, whole, filter_dropNothing]
    simp

theorem steps_parent (h : parent? path = some parent) :
    isAbsolute parent = isAbsolute path ∧ ∃ rest, steps path = steps parent ++ rest := by
  obtain none | ⟨front, last, whole⟩ := (dropNothing (parts path).body).eq_nil_or_concat
  · unfold parent? at h
    dsimp only at h
    rw [none] at h
    dsimp only [List.reverse_nil] at h
    split at h
    · rename_i dot
      cases h
      have relative : isAbsolute path = false := by
        rw [Bool.eq_false_iff, ne_eq, isAbsolute_iff, dot]
        decide
      exact ⟨relative.symm, steps path, rfl⟩
    · cases h
  · rw [List.concat_eq_append] at whole
    obtain ⟨parent', above, absolute, parts⟩ := exists_parent_of_pieces whole
    cases h.symm.trans above
    exact ⟨absolute, _, parts⟩

/-- A path with a file name goes where the siblings go, and ends in the name. -/
theorem steps_of_fileName? (h : fileName? path = some name) :
    isAbsolute (siblingDir path) = isAbsolute path ∧
      steps path = steps (siblingDir path) ++ [name] := by
  obtain ⟨front, last, whole, -, rfl⟩ := exists_pieces_of_fileName? h
  obtain ⟨parent, above, absolute, parts⟩ := exists_parent_of_pieces whole
  have something : pieceNames [last] = [String.ofList last] := by
    simp [pieceNames, isNothing_of_dropNothing whole]
  have dir : siblingDir path = parent := by
    rw [siblingDir, h, above]
    rfl
  rw [dir]
  exact ⟨absolute, something ▸ parts⟩

section Sibling

variable (filled : suffix ≠ "") (noSlash : '/' ∉ suffix.toList)
include filled noSlash

theorem names_sibling (path : String) :
    names (sibling path suffix) = names (siblingDir path) ++ [siblingName path suffix] := by
  have isName := isName_siblingName path filled noSlash
  rw [sibling_eq, names_join isName.relative, isName.names]

theorem steps_sibling (path : String) :
    steps (sibling path suffix) = steps (siblingDir path) ++ [siblingName path suffix] := by
  have isName := isName_siblingName path filled noSlash
  rw [steps, names_sibling filled noSlash, List.filter_append]
  simp [steps, isName.noDots.1]

theorem start_sibling (path : String) (here : Location) :
    start here (sibling path suffix) = start here (siblingDir path) := by
  rw [start, start, sibling_eq,
    isAbsolute_join (isName_siblingName path filled noSlash).relative]

theorem onWay_sibling (h : fileName? path = some name) :
    OnWay here (sibling path suffix) m ↔ OnWay here path m := by
  obtain ⟨absolute, whole⟩ := steps_of_fileName? h
  have begins : start here (sibling path suffix) = start here path := by
    rw [start_sibling filled noSlash, start, start, absolute]
  have same (steps : List String) (a b : String) : (∃ front rest, steps ++ [a] = front ++ rest ∧
      rest ≠ [] ∧ m = front.foldl enter (start here path)) →
      ∃ front rest, steps ++ [b] = front ++ rest ∧ rest ≠ [] ∧
        m = front.foldl enter (start here path) := by
    rintro ⟨front, rest, split, some, rfl⟩
    obtain ⟨init, last, rfl⟩ := (List.eq_nil_or_concat rest).resolve_left some
    rw [List.concat_eq_append, ← List.append_assoc] at split
    obtain ⟨before, -⟩ := List.append_inj' split rfl
    exact ⟨front, init ++ [b], by rw [before, List.append_assoc], by simp, rfl⟩
  unfold OnWay
  rw [begins, whole, steps_sibling filled noSlash]
  exact ⟨same _ _ _, same _ _ _⟩

end Sibling

/-! ## Worlds that are the same along the way -/

theorem step_congr (at_l : w'.files.find? l = w.files.find? l)
    (next : w'.files.find? (enter l name) = w.files.find? (enter l name)) :
    w'.step l name = w.step l name := by
  have dir : w'.isDirAt l = w.isDirAt l := by rw [isDirAt, isDirAt, at_l]
  unfold step
  rw [dir]
  by_cases dots : name = "." ∨ name = ".."
  · obtain rfl | rfl := dots <;> simp
  · obtain ⟨here, up⟩ := not_or.mp dots
    rw [enter, if_neg here, if_neg up] at next
    rw [next]

theorem walk_congr {names : List String}
    (same : ∀ front rest, names = front ++ rest →
      w'.files.find? (front.foldl enter l) = w.files.find? (front.foldl enter l)) :
    w'.walk l names = w.walk l names := by
  induction names generalizing l with
  | nil => rfl
  | cons name rest ih =>
    have next : w'.step l name = w.step l name := step_congr (same [] _ rfl) (same [name] rest rfl)
    rw [walk, walk, next]
    cases first : w.step l name with
    | error e => rfl
    | ok k =>
      obtain rfl := (step_eq_ok first).2
      exact ih fun front more split => same (name :: front) more (by rw [split, List.cons_append])

theorem Leads.congr (h : w.Leads path l name) (here : w'.here = w.here)
    (same : ∀ m, OnWay w.here path m → w'.files.find? m = w.files.find? m) :
    w'.Leads path l name := by
  obtain ⟨⟨begin, before, begins, whole, walked⟩, proper, dir, short⟩ := h
  have whole' : steps path = before.filter (· ≠ ".") ++ [name] := by
    rw [steps, whole, List.filter_append]
    simp [proper.1]
  have along (front rest : List String) (split : before = front ++ rest) :
      w'.files.find? (front.foldl enter begin) = w.files.find? (front.foldl enter begin) := by
    refine same _ ⟨front.filter (· ≠ "."), rest.filter (· ≠ ".") ++ [name], ?_, by simp, ?_⟩
    · rw [whole', split, List.filter_append, List.append_assoc]
    · rw [foldl_enter_steps, start, ← origin_eq_ok begins]
  have at_l := along before [] (List.append_nil _).symm
  rw [← walk_eq_ok walked] at at_l
  exact ⟨⟨begin, before, by rw [origin, here]; exact begins, whole,
      (walk_congr along).trans walked⟩, proper, by rw [isDirAt, at_l]; exact dir, short⟩

/-! ## Beside a path -/

/-- The path ends in a name, with no slash after it. -/
structure EndsIn (path name : String) : Prop where
  last : (names path).getLast? = some name
  proper : name ≠ "." ∧ name ≠ ".."
  noSlash : endsWithSlash path = false

theorem isDirAt_of_walk {names : List String} (h : w.walk l names = .ok m)
    (dir : w.isDirAt m = true) : w.isDirAt l = true := by
  cases names with
  | nil =>
    cases h
    exact dir
  | cons name rest =>
    rw [walk] at h
    cases first : w.step l name with
    | error e =>
      rw [first] at h
      cases h
    | ok k => exact (step_eq_ok first).1

/-- Dots on the way to a directory make no difference. -/
theorem walk_filter_iff {names : List String} (dir : w.isDirAt m = true) :
    w.walk l (names.filter (· ≠ ".")) = .ok m ↔ w.walk l names = .ok m := by
  induction names generalizing l with
  | nil => exact Iff.rfl
  | cons name rest ih =>
    by_cases dot : name = "."
    · subst dot
      have first (at_l : w.isDirAt l = true) : w.step l "." = .ok l := by simp [step, at_l]
      have skip : (("." :: rest).filter (· ≠ ".")) = rest.filter (· ≠ ".") := by simp
      rw [skip, ih]
      refine ⟨fun h => ?_, fun h => ?_⟩
      · rw [walk, first (isDirAt_of_walk h dir)]
        exact h
      · have at_l := isDirAt_of_walk h dir
        rw [walk, first at_l] at h
        exact h
    · have keep : ((name :: rest).filter (· ≠ ".")) = name :: rest.filter (· ≠ ".") := by simp [dot]
      rw [keep, walk, walk]
      cases w.step l name with
      | error e => exact Iff.rfl
      | ok k => exact ih

theorem mem_toList_of_mem_steps {c : Char} (mem : name ∈ steps path) (inside : c ∈ name.toList) :
    c ∈ path.toList := by
  obtain ⟨piece, kept, rfl⟩ := List.mem_map.mp (List.mem_filter.mp mem).1
  rw [String.toList_ofList] at inside
  have isPiece := (List.mem_filter.mp kept).1
  have other : c ≠ '/' := fun same => Text.not_mem_of_mem_pieces isPiece (same ▸ inside)
  exact (Text.mem_pieces_iff other).mp ⟨piece, isPiece, inside⟩

theorem exists_step_of_mem_toList {c : Char} (mem : c ∈ path.toList) (notSlash : c ≠ '/')
    (notDot : c ≠ '.') : ∃ name ∈ steps path, c ∈ name.toList := by
  obtain ⟨piece, isPiece, inside⟩ := (Text.mem_pieces_iff notSlash).mpr mem
  refine ⟨String.ofList piece, List.mem_filter.mpr ⟨List.mem_map.mpr ⟨piece, ?_, rfl⟩, ?_⟩, ?_⟩
  · exact List.mem_filter.mpr ⟨isPiece, by simpa using List.ne_nil_of_mem inside⟩
  · simp only [ne_eq, decide_eq_true_eq]
    intro dot
    have single : piece = ['.'] := by simpa [← String.toList_inj] using dot
    rw [single] at inside
    exact notDot (List.mem_singleton.mp inside)
  · rwa [String.toList_ofList]

theorem origin_eq_ok_iff :
    w.origin path = .ok l ↔ '\x00' ∉ path.toList ∧ path ≠ "" ∧ l = start w.here path := by
  have empty : path.isEmpty = true ↔ path = "" := String.isEmpty_iff
  unfold origin start
  by_cases nul : '\x00' ∈ path.toList
  · simp [nul]
  · by_cases none : path = ""
    · simp [none]
    · by_cases absolute : isAbsolute path = true <;> simp [nul, none, empty, absolute, eq_comm]

section Beside

variable (ends : EndsIn path name)
include ends

theorem EndsIn.exists_names : ∃ before, names path = before ++ [name] :=
  List.getLast?_eq_some_iff.mp ends.last

theorem EndsIn.fileName? : File.Path.fileName? path = some name := by
  obtain ⟨before, whole⟩ := ends.exists_names
  exact fileName?_of_names whole ends.proper

theorem EndsIn.siblingName_eq (suffix : String) :
    siblingName path suffix = "." ++ name ++ "." ++ suffix := by
  rw [siblingName, ends.fileName?, Option.getD_some]

/-- The steps before the name are those to the directory of the siblings. -/
theorem EndsIn.filter_eq {before : List String} (whole : names path = before ++ [name]) :
    before.filter (· ≠ ".") = steps (siblingDir path) := by
  have parts := (steps_of_fileName? ends.fileName?).2
  rw [steps, whole, List.filter_append] at parts
  refine (List.append_inj' (parts.trans ?_) rfl).1
  simp [ends.proper.1]

variable (filled : suffix ≠ "") (noSlash : '/' ∉ suffix.toList)
include filled noSlash

/-- A path leads to its name beside where its siblings lead. -/
theorem Leads.of_sibling {other : String} (h : w.Leads (sibling path suffix) l other) :
    w.Leads path l name := by
  obtain ⟨⟨begin, before, begins, whole, walked⟩, -, dir, short⟩ := h
  obtain ⟨before', whole'⟩ := ends.exists_names
  obtain ⟨absolute, steps_eq⟩ := steps_of_fileName? ends.fileName?
  obtain ⟨rfl, last⟩ := List.append_inj' (whole.symm.trans (names_sibling filled noSlash path)) rfl
  obtain rfl : other = siblingName path suffix := List.singleton_injective last
  refine ⟨⟨begin, before', ?_, whole', ?_⟩, ends.proper, dir, Nat.le_trans ?_ short⟩
  · obtain ⟨noNul, -, rfl⟩ := origin_eq_ok_iff.mp begins
    refine origin_eq_ok_iff.mpr ⟨fun nul => ?_, ?_, ?_⟩
    · obtain ⟨step, mem, inside⟩ := exists_step_of_mem_toList nul (by decide) (by decide)
      rw [steps_eq] at mem
      rcases List.mem_append.mp mem with mem | mem
      · exact noNul (mem_toList_of_mem_steps
          (steps_sibling filled noSlash path ▸ List.mem_append_left _ mem) inside)
      · rw [List.mem_singleton.mp mem] at inside
        refine noNul (mem_toList_of_mem_steps
          (steps_sibling filled noSlash path ▸ List.mem_append_right _ (.head _)) ?_)
        rw [ends.siblingName_eq]
        simp [inside]
    · rintro rfl
      simp [names, Text.pieces] at whole'
    · rw [start_sibling filled noSlash, start, start, absolute]
  · rw [← walk_filter_iff dir, ends.filter_eq whole']
    exact (walk_filter_iff dir).mpr walked
  · rw [ends.siblingName_eq]
    simp only [String.utf8ByteSize_append]
    omega

/-- Siblings lead to their names beside where a path leads. -/
theorem Leads.sibling (h : w.Leads path l name) (noNul : '\x00' ∉ suffix.toList)
    (short : (siblingName path suffix).utf8ByteSize ≤ longestName) :
    w.Leads (File.Path.sibling path suffix) l (siblingName path suffix) := by
  obtain ⟨⟨begin, before, begins, whole, walked⟩, -, dir, -⟩ := h
  obtain ⟨absolute, steps_eq⟩ := steps_of_fileName? ends.fileName?
  have isName := isName_siblingName path filled noSlash
  obtain ⟨clean, -, rfl⟩ := origin_eq_ok_iff.mp begins
  refine ⟨⟨start w.here path, names (siblingDir path), ?_, names_sibling filled noSlash path, ?_⟩,
    isName.noDots, dir, short⟩
  · refine origin_eq_ok_iff.mpr ⟨fun nul => ?_, fun none => ?_, ?_⟩
    · obtain ⟨step, mem, inside⟩ := exists_step_of_mem_toList nul (by decide) (by decide)
      rw [steps_sibling filled noSlash] at mem
      rcases List.mem_append.mp mem with mem | mem
      · exact clean (mem_toList_of_mem_steps (steps_eq ▸ List.mem_append_left _ mem) inside)
      · rw [List.mem_singleton.mp mem, ends.siblingName_eq] at inside
        have inName : '\x00' ∈ name.toList := by simpa [noNul] using inside
        exact clean (mem_toList_of_mem_steps (steps_eq ▸ List.mem_append_right _ (.head _)) inName)
    · have named := names_sibling filled noSlash path
      rw [none] at named
      simp [names, Text.pieces] at named
    · rw [start_sibling filled noSlash, start, start, absolute]
  · refine (walk_filter_iff dir).mp ?_
    change w.walk _ (steps (siblingDir path)) = _
    rw [← ends.filter_eq whole]
    exact (walk_filter_iff dir).mpr walked

end Beside

/-! ## Directories that are made above a path -/

theorem find?_of_makeDir (h : w.makeDir path = .ok w') (m : Location) :
    w'.files.find? m = w.files.find? m ∨ m = (steps path).foldl enter (start w.here path) := by
  obtain ⟨l, name, leads, -, rfl⟩ := makeDir_eq_ok h
  rw [start, ← placeFrom_eq_steps, ← placeOf_eq, leads.placeOf]
  by_cases same : m = l ++ [name]
  · exact .inr same
  · exact .inl ((find?_insert' (by simp) m).trans (if_neg same))

theorem find?_of_makeDirsFrom (fuel : Nat) (m : Location) :
    (w.makeDirsFrom path fuel).2.files.find? m = w.files.find? m ∨
      ∃ front rest, steps path = front ++ rest ∧ m = front.foldl enter (start w.here path) := by
  induction fuel generalizing w path with
  | zero => exact .inl rfl
  | succ fuel ih =>
    have one {w₁ w₂ : World} (here : w₁.here = w.here) (made : w₁.makeDir path = .ok w₂)
        (before : w₁.files.find? m = w.files.find? m) : w₂.files.find? m = w.files.find? m ∨
          ∃ front rest, steps path = front ++ rest ∧ m = front.foldl enter (start w.here path) := by
      rcases find?_of_makeDir made m with same | place
      · exact .inl (same.trans before)
      · exact .inr ⟨steps path, [], by simp, here ▸ place⟩
    unfold makeDirsFrom
    split
    · exact .inl rfl
    split
    · exact one rfl ‹_› rfl
    · cases above : parent? path with
      | none => exact .inl rfl
      | some parent =>
        obtain ⟨absolute, rest, whole⟩ := steps_parent above
        have parents := @ih w parent
        have here : (w.makeDirsFrom parent fuel).2.here = w.here :=
          (makeDirsFrom_adds fuel).keeps.here
        simp only [Option.map_some]
        generalize w.makeDirsFrom parent fuel = made at parents here ⊢
        obtain ⟨result, w₁⟩ := made
        rcases parents with before | ⟨front, more, split, place⟩
        · cases result with
          | error e => exact .inl before
          | ok _ =>
            dsimp only
            split
            · exact one here ‹_› before
            · split <;> exact .inl before
        · refine .inr ⟨front, more ++ rest, by rw [whole, split, List.append_assoc], ?_⟩
          rw [place, start, start, absolute]
    · split <;> exact .inl rfl

theorem find?_of_makeDirs_above (named : fileName? path = some name)
    (above : parent? path = some parent) (m : Location) :
    (w.makeDirs parent).2.files.find? m = w.files.find? m ∨ OnWay w.here path m := by
  refine (find?_of_makeDirsFrom _ m).imp_right ?_
  rintro ⟨front, rest, split, place⟩
  obtain ⟨absolute, whole⟩ := steps_of_fileName? named
  have dir : siblingDir path = parent := by
    rw [siblingDir, named, above]
    rfl
  rw [dir] at absolute whole
  refine ⟨front, rest ++ [name], by rw [whole, split, List.append_assoc], by simp, ?_⟩
  rw [place, start, start, absolute]

/-! ## What paths that lead to names do -/

section Leads

variable (leads : w.Leads path l name)
include leads

theorem Leads.doesExist (noSlash : endsWithSlash path = false) :
    w.doesExist path = (w.files.find? (l ++ [name])).isSome := by
  rw [World.doesExist, leads.locate noSlash]
  split
  · rename_i found
    rw [found]
    rfl
  · rename_i absent
    rw [Bool.eq_false_iff.mpr absent]
    rfl

theorem Leads.removeDir (noSlash : endsWithSlash path = false)
    (dir : w.files.find? (l ++ [name]) = some .dir) :
    w.removeDir path = (.ok (), { w with files := w.files.eraseBelow (l ++ [name]) }) := by
  have located : w.locate path = .ok (l ++ [name]) := by
    rw [leads.locate noSlash, if_pos (by simp [dir])]
  obtain ⟨_, before, _, whole, _⟩ := leads.way
  have parts : (names path).reverse = name :: before.reverse := by simp [whole]
  unfold World.removeDir
  simp only [located, isDirAt_iff.mpr dir, parts]
  simp [leads.proper]

theorem Leads.removeDir_of_file (noSlash : endsWithSlash path = false) {content : List UInt8}
    {executable : Bool} (file : w.files.find? (l ++ [name]) = some (.file content executable)) :
    w.removeDir path = (.error .notDirectory, w) := by
  have located : w.locate path = .ok (l ++ [name]) := by
    rw [leads.locate noSlash, if_pos (by simp [file])]
  have noDir : w.isDirAt (l ++ [name]) = false := by simp [isDirAt, file]
  unfold World.removeDir
  simp [located, noDir]

/-- What is there is moved to a free place beside it. -/
theorem Leads.rename {other : String} {n : Node} (noSlash : endsWithSlash path = false)
    (leads' : w.Leads target l other) (noSlash' : endsWithSlash target = false)
    (apart : name ≠ other) (found : w.files.find? (l ++ [name]) = some n)
    (free : w.files.find? (l ++ [other]) = none) :
    w.rename path target = .ok { w with files := w.files.move (l ++ [name]) (l ++ [other]) } := by
  have ne : ¬ l ++ [name] = l ++ [other] := by simpa using apart
  have notInto := not_isBelow_sibling (l := l) apart
  have notOver := not_isBelow_sibling (l := l) apart.symm
  unfold World.rename
  simp only [leads.locateNew, leads'.locateNew, bind, Except.bind, found, noSlash, noSlash',
    Bool.or_self, Bool.and_false, Bool.false_eq_true, if_false, ne, ne_eq, not_false_eq_true,
    notInto, notOver, free]

end Leads

end World

end BoardDesign
