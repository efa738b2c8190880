import BoardDesign.Proofs.Generation.Content

/-!
# What a replaced directory holds

New content is put into an empty directory beside the place where it belongs, and that directory is
then moved into its place.

* `makeStaging`, `staging_of_makeStaging`: the empty directory, and that all else stays;
* `Filled`: a directory that holds some files and nothing else, where all else is as it was;
* `Filled.write`, `Filled.copy`: one more file in it;
* `find?_of_swapIn`: what is found in the directory when it is in its place;
* `replaceDir_eq_ok`: a replacement is made of these three.
-/

namespace BoardDesign

open File File.Path World Action

/-! ## Directories of files -/

/-- What a reader finds in a directory of files. A later file takes the place of an earlier one
with its name. -/
def viewOfFiles (files : List (String × List UInt8)) : Location → Option (Option (List UInt8))
  | [] => some none
  | [name] => (files.reverse.find? fun f => f.1 = name).map fun f => some f.2
  | _ => none

section ViewOfFiles

variable {files : List (String × List UInt8)} {name : String} {content : List UInt8} {rest : Location}

theorem viewOfFiles_concat :
    viewOfFiles (files ++ [(name, content)]) rest =
      if rest = [name] then some (some content) else viewOfFiles files rest := by
  match rest with
  | [] => simp [viewOfFiles]
  | [other] =>
    by_cases same : name = other
    · simp [viewOfFiles, same]
    · simp [viewOfFiles, same, Ne.symm same]
  | _ :: _ :: _ => simp [viewOfFiles]

theorem viewOfFiles_eq_dir_iff : viewOfFiles files rest = some none ↔ rest = [] := by
  match rest with
  | [] => simp [viewOfFiles]
  | [name] => simp [viewOfFiles]
  | _ :: _ :: _ => simp [viewOfFiles]

end ViewOfFiles

namespace World

variable {u v w w' : World} {dir path name source : String} {content : List UInt8} {m : Location}
  {files : List (String × List UInt8)}

/-- A directory has been filled with files, and all else is as it was. -/
structure Filled (u : World) (dir : String) (files : List (String × List UInt8)) (v : World) :
    Prop where
  here : v.here = u.here
  outside : ∀ l, ¬ Tree.isBelow (u.placeOf dir) l = true → v.files.find? l = u.files.find? l
  view : v.files.view (u.placeOf dir) = viewOfFiles files

theorem filled_self (empty : u.files.view (u.placeOf dir) = viewOfFiles []) : u.Filled dir [] u :=
  ⟨rfl, fun _ _ => rfl, empty⟩

namespace Filled

theorem find?_eq_dir_iff (h : u.Filled dir files v) (rest : Location) :
    v.files.find? (u.placeOf dir ++ rest) = some .dir ↔ rest = [] := by
  rw [← @viewOfFiles_eq_dir_iff files, ← h.view, Tree.view]
  rcases v.files.find? (u.placeOf dir ++ rest) with _ | _ | _ <;> simp [Node.content?]

/-- There is no file in an empty directory. -/
theorem outside_of_file (start : u.Filled dir [] u) (found : u.fileAt? path = some content) :
    ¬ Tree.isBelow (u.placeOf dir) (u.placeOf path) = true := by
  intro below
  obtain ⟨rest, place⟩ := Tree.isBelow_iff.mp below
  obtain ⟨n, found, file⟩ := Option.bind_eq_some_iff.mp found
  have empty := congrFun start.view rest
  rw [Tree.view, ← place, found, Option.map_some, file] at empty
  rcases rest with _ | ⟨_, _ | ⟨_, _⟩⟩ <;> cases empty

/-- The same directories are there, however the directory is filled. -/
theorem keeps {files' : List (String × List UInt8)} (h : u.Filled dir files v)
    (h' : u.Filled dir files' w) : v.Keeps w := by
  refine ⟨h'.here.trans h.here.symm, fun l found => ?_⟩
  by_cases below : Tree.isBelow (u.placeOf dir) l = true
  · obtain ⟨rest, rfl⟩ := Tree.isBelow_iff.mp below
    exact (h'.find?_eq_dir_iff rest).mpr ((h.find?_eq_dir_iff rest).mp found)
  · rw [h'.outside l below, ← h.outside l below, found]

theorem placeOf (h : u.Filled dir files v) (path : String) : v.placeOf path = u.placeOf path := by
  rw [placeOf_eq, placeOf_eq, h.here]

theorem fileAt? (h : u.Filled dir files v)
    (outside : ¬ Tree.isBelow (u.placeOf dir) (u.placeOf path) = true) :
    v.fileAt? path = u.fileAt? path := by
  rw [World.fileAt?, World.fileAt?, h.placeOf, h.outside _ outside]

/-- What is read elsewhere is what was read before. -/
theorem toOption_bytesAt (start : u.Filled dir [] u) (h : u.Filled dir files v)
    (outside : ¬ Tree.isBelow (u.placeOf dir) (u.placeOf path) = true) :
    (v.bytesAt path).toOption = (u.bytesAt path).toOption :=
  (start.keeps h).toOption_bytesAt (h.keeps start) (h.outside _ outside)

/-- One more file in the directory. -/
theorem put (h : u.Filled dir files v) (executable : Bool) (here : w.here = v.here)
    (found : ∀ m, w.files.find? m = if m = u.placeOf dir ++ [name] then
      some (.file content executable) else v.files.find? m) :
    u.Filled dir (files ++ [(name, content)]) w := by
  refine ⟨here.trans h.here, fun l outside => ?_, funext fun rest => ?_⟩
  · have apart : l ≠ u.placeOf dir ++ [name] :=
      fun same => outside (Tree.isBelow_iff.mpr ⟨[name], same⟩)
    rw [found, if_neg apart, h.outside l outside]
  · rw [viewOfFiles_concat, ← h.view, Tree.view, Tree.view, found]
    by_cases new : rest = [name]
    · simp [new, Node.content?]
    · simp [new]

section Name

variable (isName : IsName name)
include isName

theorem placeOf_join (h : u.Filled dir files v) :
    v.placeOf (join dir name) = u.placeOf dir ++ [name] := by
  rw [h.placeOf, placeOf_eq, placeOf_eq, isName.placeFrom_join]

theorem write (h : u.Filled dir files v) (written : v.write (join dir name) content = .ok w) :
    u.Filled dir (files ++ [(name, content)]) w := by
  obtain ⟨l, last, executable, leads, -, rfl⟩ := write_eq_ok written
  refine h.put executable rfl fun m => ?_
  rw [← h.placeOf_join isName, leads.placeOf]
  exact find?_insert' (by simp) m

/-- A copy of a file that lies elsewhere. -/
theorem copy (start : u.Filled dir [] u) (h : u.Filled dir files v)
    (outside : ¬ Tree.isBelow (u.placeOf dir) (u.placeOf source) = true)
    (copied : v.copy source (join dir name) = .ok w) :
    ∃ content, u.bytesAt source = .ok content ∧ u.Filled dir (files ++ [(name, content)]) w := by
  obtain ⟨w₁, content, executable, written, read, rfl⟩ := write_of_copy copied
  have emptied := h.write isName written
  have same := start.toOption_bytesAt emptied outside
  rw [read] at same
  cases source' : u.bytesAt source with
  | error e =>
    rw [source'] at same
    cases same
  | ok content' =>
    rw [source'] at same
    obtain rfl : content = content' := Option.some.inj same
    refine ⟨content, rfl, ?_⟩
    obtain ⟨l, last, executable', leads, -, rfl⟩ := write_eq_ok written
    refine h.put executable rfl fun m => ?_
    rw [← h.placeOf_join isName, leads.placeOf]
    change (Tree.insert _ _ _).find? m = _
    rw [find?_insert' (by simp), find?_insert' (by simp)]
    split <;> rfl

end Name

theorem getLast?_of_namesOf_eq_nil {cs : List Char} (none : namesOf cs = []) (front : List Char) :
    (front ++ '/' :: cs).getLast? = some '/' := by
  obtain rfl | ⟨init, c, rfl⟩ := cs.eq_nil_or_concat
  · simp
  · by_cases slash : c = '/'
    · rw [slash, List.concat_eq_append, ← List.cons_append, ← List.append_assoc, List.getLast?_concat]
    · obtain ⟨before, last, -, pieces⟩ := Text.pieces_append init
        (show '/' ∉ [c] by simpa using Ne.symm slash)
      rw [List.concat_eq_append, namesOf, pieces] at none
      simp at none

/-- What is written first into an empty directory is written under one name. -/
theorem noSlash_of_write {front text : String} {c : Char} (start : u.Filled dir [] u)
    (mem : c ∈ front.toList) (other : c ≠ '.') (noSlash : '/' ∉ front.toList)
    (written : u.write (join dir (front ++ text)) content = .ok v) : '/' ∉ text.toList := by
  intro slash
  obtain ⟨a, b, whole, noSlash'⟩ := List.eq_append_cons_of_mem slash
  have first : IsName (front ++ String.ofList a) :=
    .of_mem (by simp [mem]) other (by simp [noSlash, noSlash'])
  have relative : isAbsolute (front ++ text) = false := by
    obtain ⟨d, ds, whole⟩ := List.exists_cons_of_ne_nil (List.ne_nil_of_mem mem)
    rw [whole] at noSlash
    simpa [isAbsolute, whole] using fun same : d = '/' => noSlash (same ▸ .head _)
  have split : (front ++ text).toList = (front ++ String.ofList a).toList ++ '/' :: b := by
    simp [whole]
  have named : names (front ++ text) = (front ++ String.ofList a) :: namesOf b := by
    change namesOf _ = _
    rw [split, namesOf_slash]
    exact congrArg (· ++ namesOf b) first.names
  obtain ⟨l, last, _, leads, -, -⟩ := write_eq_ok written
  obtain ⟨begin, before, begins, all, walked⟩ := leads.way
  rw [names_join relative, named] at all
  obtain none | ⟨more, final, some⟩ := (namesOf b).eq_nil_or_concat
  · -- There are only slashes behind the first name.
    obtain ⟨before, -, path⟩ := toList_join dir (front ++ text)
    have ends := endsWithSlash_of_write written
    rw [endsWithSlash, path, split, ← List.append_assoc, getLast?_of_namesOf_eq_nil none] at ends
    cases ends
  · rw [List.concat_eq_append] at some
    have way : before = names dir ++ (front ++ String.ofList a) :: more := by
      rw [some, ← List.cons_append, ← List.append_assoc] at all
      exact (List.append_inj' all rfl).1.symm
    rw [way, walk_append] at walked
    cases through : u.walk begin (names dir) with
    | error e =>
      rw [through] at walked
      cases walked
    | ok k =>
      have place : k = u.placeOf dir := by
        rw [walk_eq_ok through, origin_eq_ok begins, isAbsolute_join relative, World.placeOf]
      rw [through, place, Except.bind, walk] at walked
      cases next : u.step (u.placeOf dir) (front ++ String.ofList a) with
      | error e =>
        rw [next] at walked
        cases walked
      | ok k =>
        have found := (step_name_eq_ok first.noDots next).2.2.2
        have empty := congrFun start.view [front ++ String.ofList a]
        rw [Tree.view, viewOfFiles, List.reverse_nil, List.find?_nil, Option.map_none,
          Option.map_eq_none_iff] at empty
        rw [empty] at found
        cases found

end Filled

end World

/-! ## Replacing a directory -/

namespace Generation

variable {α : Type} {w w' : World} {path target : String} {m : Location}

section RemoveIfThere

variable (done : removeIfThere path w = (.ok (), w'))
include done

theorem removeIfThere_eq_ok : w' = w ∨ w' = (w.removeDir path).2 := by
  obtain ⟨there, w₁, asked, removed⟩ := bind_eq_ok done
  cases asked
  split at removed
  · exact .inr (congrArg Prod.snd (mapError_eq_ok removed)).symm
  · cases removed
    exact .inl rfl

theorem here_removeIfThere : w'.here = w.here := by
  rcases removeIfThere_eq_ok done with rfl | rfl
  · rfl
  · exact here_removeDir w path

theorem find?_removeIfThere (outside : ¬ Tree.isBelow (w.placeOf path) m = true) :
    w'.files.find? m = w.files.find? m := by
  rcases removeIfThere_eq_ok done with rfl | rfl
  · rfl
  · exact find?_removeDir path outside

end RemoveIfThere

theorem ne_siblingName {name : String} (named : fileName? path = some name) (suffix : String) :
    siblingName path suffix ≠ name := by
  intro same
  have lengths := congrArg (·.toList.length) same
  simp [siblingName, named] at lengths
  omega

/-- When the new directory is in its place, what was found in it is found there. -/
theorem find?_of_swapIn (done : swapIn (sibling target "staging") target w = (.ok (), w')) :
    w'.here = w.here ∧ ∀ rest, w'.files.find? (w.placeOf target ++ rest) =
      w.files.find? (w.placeOf (sibling target "staging") ++ rest) := by
  obtain ⟨there, w₀, asked, moved⟩ := bind_eq_ok done
  cases asked
  split at moved
  · have renamed := changing_of_mapError moved
    exact ⟨here_rename renamed, find?_of_rename renamed⟩
  obtain ⟨⟨⟩, w₁, removed, moved⟩ := bind_eq_ok moved
  obtain ⟨⟨⟩, w₂, aside, moved⟩ := bind_eq_ok moved
  have old := changing_of_mapError aside
  rw [bind_apply, Action.attempt, Action.rename, changing] at moved
  cases placed : w₂.rename (sibling target "staging") target with
  | error fault =>
    rw [placed] at moved
    dsimp only at moved
    obtain ⟨_, _, _, failed⟩ := bind_eq_ok moved
    cases failed
  | ok w₃ =>
    rw [placed] at moved
    dsimp only at moved
    have here₁ := here_removeIfThere removed
    have here₂ := (here_rename old).trans here₁
    have here₃ := (here_rename placed).trans here₂
    obtain ⟨_, _, _, name, leads, -⟩ := rename_eq_ok' old
    have named := leads.fileName?
    -- The three places lie beside each other.
    have onTarget := placeFrom_of_fileName? named w.here
    have onStaging := placeFrom_sibling target (show "staging" ≠ "" by decide) (by decide) w.here
    have onOld := placeFrom_sibling target (show "old" ≠ "" by decide) (by decide) w.here
    have apart : siblingName target "old" ≠ siblingName target "staging" := by
      simp [siblingName, String.append_right_inj]
    refine ⟨(here_removeIfThere moved).trans here₃, fun rest => ?_⟩
    have last : w'.files.find? (w.placeOf target ++ rest) = w₃.files.find? (w.placeOf target ++ rest) := by
      refine find?_removeIfThere moved ?_
      rw [placeOf_eq, here₃, onOld, placeOf_eq, onTarget]
      exact not_isBelow_beside (ne_siblingName named _) rest
    have new := find?_of_rename placed rest
    rw [placeOf_eq, placeOf_eq, here₂, ← placeOf_eq, ← placeOf_eq] at new
    have before : w₂.files.find? (w.placeOf (sibling target "staging") ++ rest) =
        w₁.files.find? (w.placeOf (sibling target "staging") ++ rest) := by
      refine find?_rename_of_apart old ?_ ?_ <;> rw [placeOf_eq, placeOf_eq, here₁, onStaging]
      · rw [onOld]
        exact not_isBelow_beside apart rest
      · rw [onTarget]
        exact not_isBelow_beside (ne_siblingName named _).symm rest
    have first : w₁.files.find? (w.placeOf (sibling target "staging") ++ rest) =
        w.files.find? (w.placeOf (sibling target "staging") ++ rest) := by
      refine find?_removeIfThere removed ?_
      rw [placeOf_eq, placeOf_eq, onOld, onStaging]
      exact not_isBelow_beside apart rest
    rw [last, new, before, first]

/-- The directories above a path made. -/
def makeParent (path : String) : Action Error Unit :=
  match parent? path with
  | some parent => if !parent.isEmpty then onPath parent (Action.makeDirs parent) else pure ()
  | none => pure ()

/-- The directory for new content made, empty, beside the place where the content belongs. -/
def makeStaging (target : String) : Action Error Unit := do
  makeParent target
  removeIfThere (sibling target "staging")
  onPath (sibling target "staging") (Action.makeDir (sibling target "staging"))

section Replacement

variable {fill : String → Action Error α} {x : α}

theorem renew_eq_ok {w₁ : World} (made : makeParent target w = (.ok (), w₁))
    (done : renew target fill w₁ = (.ok x, w')) :
    ∃ u v, makeStaging target w = (.ok (), u) ∧ fill (sibling target "staging") u = (.ok x, v) ∧
      swapIn (sibling target "staging") target v = (.ok (), w') := by
  obtain ⟨⟨⟩, w₂, removed, done⟩ := bind_eq_ok done
  obtain ⟨⟨⟩, u, dir, done⟩ := bind_eq_ok done
  have ready : makeStaging target w = (.ok (), u) := by
    rw [makeStaging, bind_apply, made]
    dsimp only
    rw [bind_apply, removed]
    exact dir
  obtain ⟨r, v, attempted, done⟩ := bind_eq_ok done
  cases r with
  | error e =>
    obtain ⟨_, _, _, failed⟩ := bind_eq_ok done
    cases failed
  | ok result =>
    obtain ⟨⟨⟩, w₃, swapped, same⟩ := bind_eq_ok done
    cases same
    rcases put : fill (sibling target "staging") u with ⟨e | y, v'⟩ <;>
      rw [Action.attempt, put] at attempted <;> cases attempted
    exact ⟨u, v, ready, put, swapped⟩

/-- A directory is replaced by what is put into a new one that is moved into its place. -/
theorem replaceDir_eq_ok (done : replaceDir target true fill w = (.ok x, w')) :
    ∃ u v, makeStaging target w = (.ok (), u) ∧ fill (sibling target "staging") u = (.ok x, v) ∧
      swapIn (sibling target "staging") target v = (.ok (), w') := by
  obtain ⟨there, w₀, asked, checked⟩ := bind_eq_ok done
  cases asked
  obtain ⟨-, goesOn⟩ := unless_eq_ok checked
  cases above : parent? target with
  | none =>
    rw [above] at goesOn
    exact renew_eq_ok (by rw [makeParent, above]; rfl) goesOn
  | some parent =>
    rw [above] at goesOn
    dsimp only at goesOn
    by_cases named : (!parent.isEmpty) = true
    · rw [if_pos named] at goesOn
      obtain ⟨⟨⟩, w₁, made, goesOn⟩ := bind_eq_ok goesOn
      refine renew_eq_ok ?_ goesOn
      rw [makeParent, above]
      exact (congrFun (if_pos named) w).trans made
    · rw [if_neg named] at goesOn
      refine renew_eq_ok ?_ goesOn
      rw [makeParent, above]
      exact congrFun (if_neg named) w

end Replacement

/-! ## The new directory -/

/-- The place of what a path stands for, and all below it, is empty but for a directory, and the
files elsewhere are as they were. -/
structure Staging (w : World) (target : String) (u : World) : Prop where
  here : u.here = w.here
  proper : u.files.Proper
  empty : u.files.view (u.placeOf (sibling target "staging")) = viewOfFiles []
  outside : ∀ l, ¬ Tree.isBelow (w.placeOf (sibling target "staging")) l = true →
    (u.files.find? l).bind Node.content? = (w.files.find? l).bind Node.content?

/-- Directories that are added change no file. -/
theorem content?_of_adds (adds : w.Adds w') (guards : World.Guards (fun _ => True) w w')
    (l : Location) :
    (w'.files.find? l).bind Node.content? = (w.files.find? l).bind Node.content? := by
  cases before : w.files.find? l with
  | some n => rw [adds.kept l n before]
  | none =>
    cases after : w'.files.find? l with
    | none => rfl
    | some n =>
      cases n with
      | dir => rfl
      | file content executable =>
        have old := guards.kept l trivial content executable after
        rw [before] at old
        cases old

theorem adds_of_makeParent (proper : w.files.Proper) (done : makeParent path w = (.ok (), w')) :
    w.Adds w' ∧ World.Guards (fun _ => True) w w' := by
  unfold makeParent at done
  cases above : parent? path with
  | none =>
    rw [above] at done
    cases done
    exact ⟨.refl w, guards_self proper⟩
  | some parent =>
    rw [above] at done
    dsimp only at done
    split at done
    · have left : (w.makeDirs parent).2 = w' := congrArg Prod.snd (mapError_eq_ok done)
      exact left ▸ ⟨makeDirs_adds w parent, guards_makeDirsFrom proper _⟩
    · cases done
      exact ⟨.refl w, guards_self proper⟩

theorem staging_of_makeStaging {u : World} (proper : w.files.Proper)
    (done : makeStaging target w = (.ok (), u)) : Staging w target u := by
  obtain ⟨⟨⟩, w₁, parents, done⟩ := bind_eq_ok done
  obtain ⟨⟨⟩, w₂, removed, made⟩ := bind_eq_ok done
  obtain ⟨adds, guards₁⟩ := adds_of_makeParent proper parents
  have guards₂ : World.Guards (fun _ => False) w₁ w₂ :=
    (guards_removeIfThere _).of_done guards₁.proper removed
  obtain ⟨l, name, leads, free, rfl⟩ := makeDir_eq_ok (changing_of_mapError made)
  have here₂ : w₂.here = w.here := guards₂.here.trans guards₁.here
  have place : l ++ [name] = w.placeOf (sibling target "staging") := by
    rw [← leads.placeOf, placeOf_eq, placeOf_eq, here₂]
  refine ⟨here₂, guards₂.proper.insert leads.dir_find? leads.isName fun _ => rfl,
    funext fun rest => ?_, fun m outside => ?_⟩
  · change ((w₂.files.insert (l ++ [name]) .dir).find? (w₂.placeOf _ ++ rest)).map _ = _
    rw [leads.placeOf, find?_insert' (by simp)]
    by_cases last : rest = []
    · simp [last, viewOfFiles, Node.content?]
    · have below := guards₂.proper.closed.find?_below (l := l ++ [name]) (by simp [free]) last
      rw [if_neg (by simpa using last), below]
      match rest with
      | [] => exact absurd rfl last
      | [_] | _ :: _ :: _ => rfl
  · have apart : m ≠ l ++ [name] := fun same =>
      outside (Tree.isBelow_iff.mpr ⟨[], by rw [same, place, List.append_nil]⟩)
    have kept : w₂.files.find? m = w₁.files.find? m := by
      refine find?_removeIfThere removed ?_
      rwa [placeOf_eq, guards₁.here]
    change ((w₂.files.insert (l ++ [name]) .dir).find? m).bind _ = _
    rw [find?_insert' (by simp), if_neg apart, kept, content?_of_adds adds guards₁]

namespace Staging

variable {u : World} (h : Staging w target u)
include h

theorem filled : u.Filled (sibling target "staging") [] u := filled_self h.empty

theorem placeOf (path : String) : u.placeOf path = w.placeOf path := by
  rw [placeOf_eq, placeOf_eq, h.here]

theorem fileAt? (outside : ¬ Tree.isBelow (w.placeOf (sibling target "staging")) (w.placeOf path)) :
    u.fileAt? path = w.fileAt? path := by
  rw [World.fileAt?, World.fileAt?, h.placeOf, h.outside _ outside]

end Staging

/-- What is found in a directory that has been replaced is what has been put into the new one. -/
theorem view_of_replaceDir {fill : String → Action Error α} {x : α} (proper : w.files.Proper)
    (done : replaceDir target true fill w = (.ok x, w')) :
    ∃ u v, makeStaging target w = (.ok (), u) ∧ Staging w target u ∧
      fill (sibling target "staging") u = (.ok x, v) ∧
      ∀ files, u.Filled (sibling target "staging") files v →
        w'.here = w.here ∧ w'.files.view (w.placeOf target) = viewOfFiles files := by
  obtain ⟨u, v, made, filled, swapped⟩ := replaceDir_eq_ok done
  have staging := staging_of_makeStaging proper made
  refine ⟨u, v, made, staging, filled, fun files holds => ?_⟩
  obtain ⟨here, found⟩ := find?_of_swapIn swapped
  refine ⟨here.trans (holds.here.trans staging.here), ?_⟩
  rw [← holds.view, ← staging.placeOf, ← holds.placeOf, ← holds.placeOf]
  exact funext fun rest => congrArg (Option.map Node.content?) (found rest)

end Generation

end BoardDesign
