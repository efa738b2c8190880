import BoardDesign.Proofs.Generation.AllOrNothing
import BoardDesign.Proofs.Generation.Content

/-!
# Files that are written together

Each file is written beside its place, and when all are written each is moved there. A file that
cannot be written beside its place stops the whole with nothing done. One that cannot be moved
stops it halfway.

* `Alters`: what is done to files at some places, which leaves every way as it is;
* `Writable`, `Blocked`: where a file can be written, and where none can be moved to;
* `Separate`: neither the files nor what is written beside them are in each other's way;
* `exists_writtenBeside`, `exists_landed`: each of the two steps where it succeeds for all files;
* `Together`, `Partway`: the two ways in which the whole can end;
* `outcome_of_writeFiles`: it ends halfway just where all can be written and one is blocked.
-/

namespace BoardDesign

open File File.Path World Action

namespace World

variable {w w' w'' : World} {l m : Location} {path source target name : String}
  {content : List UInt8} {executable : Bool} {places others : Location → Prop}

/-! ## Files at some places -/

/-- Nothing but files at some places is changed, and no directory is made or removed. -/
structure Alters (w w' : World) (places : Location → Prop) : Prop where
  keeps : w.Keeps w'
  kept : w'.Keeps w
  closed : w.files.Closed → w'.files.Closed
  same : ∀ m, ¬ places m → w'.files.find? m = w.files.find? m

theorem Alters.refl (w : World) (places : Location → Prop) : w.Alters w places :=
  ⟨.refl w, .refl w, id, fun _ _ => rfl⟩

theorem Alters.trans (h : w.Alters w' places) (h' : w'.Alters w'' places) : w.Alters w'' places :=
  ⟨h.keeps.trans h'.keeps, h'.kept.trans h.kept, h'.closed ∘ h.closed,
    fun m off => (h'.same m off).trans (h.same m off)⟩

theorem Alters.mono (h : w.Alters w' places) (more : ∀ m, places m → others m) :
    w.Alters w' others :=
  ⟨h.keeps, h.kept, h.closed, fun m off => h.same m fun on => off (more m on)⟩

theorem Alters.placeOf (h : w.Alters w' places) (path : String) :
    w'.placeOf path = w.placeOf path := h.keeps.placeOf path

theorem Alters.dir_iff (h : w.Alters w' places) :
    w'.files.find? l = some .dir ↔ w.files.find? l = some .dir :=
  ⟨h.kept.dirs l, h.keeps.dirs l⟩

theorem alters_write (h : w.write path content = .ok w') :
    w.Alters w' (· = w.placeOf path) ∧
      ∃ executable, w'.files.find? (w.placeOf path) = some (.file content executable) := by
  have noNew := (Generation.noNewDirs_write h).1
  obtain ⟨l, name, executable, leads, noDir, rfl⟩ := write_eq_ok h
  rw [leads.placeOf]
  have keeps := keeps_insert (n := .file content executable) noDir
  refine ⟨⟨keeps, ⟨keeps.here.symm, noNew⟩, fun closed => ?_, fun m off => ?_⟩, executable, ?_⟩
  · exact closed.insert leads.dir_find? fun dir => absurd dir noDir
  · exact (find?_insert' (by simp) m).trans (if_neg off)
  · exact (find?_insert' (by simp) _).trans (if_pos rfl)

theorem alters_removeFile (h : w.removeFile path = .ok w') :
    w.Alters w' (· = w.placeOf path) ∧ w'.files.find? (w.placeOf path) = none := by
  obtain ⟨l, located, noDir, rfl⟩ := removeFile_eq_ok h
  obtain rfl := locate_eq_ok located
  have named : w.placeOf path ≠ [] := fun root => noDir (by simp [root])
  have find (m : Location) : (w.files.erase (w.placeOf path)).find? m =
      if m = w.placeOf path then none else w.files.find? m := by
    by_cases root : m = []
    · rw [root, if_neg (Ne.symm named)]
      rfl
    · exact Tree.find?_erase root
  have keeps := keeps_erase noDir
  refine ⟨⟨keeps, ⟨keeps.here.symm, fun m dir => ?_⟩, fun closed => closed.erase noDir,
    fun m off => (find m).trans (if_neg off)⟩, (find _).trans (if_pos rfl)⟩
  rw [find] at dir
  split at dir
  · cases dir
  · exact dir

/-! ## Where files can be written and moved to -/

/-- The path leads to a name in a directory, and that is not the name of a directory. -/
def Writable (w : World) (path : String) : Prop :=
  ∃ l name, w.Leads path l name ∧ endsWithSlash path = false ∧
    w.files.find? (l ++ [name]) ≠ some .dir

/-- Files cannot be moved to the path: it does not end in a name, or that is the name of a
directory. -/
def Blocked (w : World) (path : String) : Prop :=
  (∀ name, ¬ EndsIn path name) ∨ w.files.find? (w.placeOf path) = some .dir

theorem writable_iff : w.Writable path ↔ ∃ w', w.write path content = .ok w' := by
  constructor
  · rintro ⟨l, name, leads, noSlash, noDir⟩
    unfold World.write
    simp only [leads.locateNew, bind, Except.bind, noSlash, Bool.false_eq_true, if_false]
    cases found : w.files.find? (l ++ [name]) with
    | none => exact ⟨_, rfl⟩
    | some n =>
      cases n with
      | dir => exact absurd found noDir
      | file c x => exact ⟨_, rfl⟩
  · rintro ⟨w', wrote⟩
    obtain ⟨l, name, executable, leads, noDir, -⟩ := write_eq_ok wrote
    exact ⟨l, name, leads, endsWithSlash_of_write wrote, noDir⟩

theorem Writable.keeps (h : w.Writable path) (keeps : w.Keeps w') (kept : w'.Keeps w) :
    w'.Writable path := by
  obtain ⟨l, name, leads, noSlash, noDir⟩ := h
  exact ⟨l, name, keeps.leads leads, noSlash, fun dir => noDir (kept.dirs _ dir)⟩

theorem Alters.writable_iff (h : w.Alters w' places) : w'.Writable path ↔ w.Writable path :=
  ⟨fun writable => writable.keeps h.kept h.keeps, fun writable => writable.keeps h.keeps h.kept⟩

theorem Alters.blocked_iff (h : w.Alters w' places) : w'.Blocked path ↔ w.Blocked path := by
  rw [Blocked, Blocked, h.placeOf, h.dir_iff]

/-- What can be written can be removed, if it is there. -/
theorem Writable.ignoring_removeFile (h : w.Writable path) :
    ∃ w', (Action.ignoring (Action.removeFile path) : Action Generation.Error Unit) w =
        (.ok (), w') ∧
      w.Alters w' (· = w.placeOf path) ∧ w'.files.find? (w.placeOf path) = none := by
  obtain ⟨l, name, leads, noSlash, noDir⟩ := h
  rw [Action.ignoring, Action.removeFile, changing]
  cases removed : w.removeFile path with
  | ok w' =>
    exact ⟨w', rfl, alters_removeFile removed⟩
  | error fault =>
    refine ⟨w, rfl, .refl w _, ?_⟩
    rw [leads.placeOf]
    refine Option.not_isSome_iff_eq_none.mp fun there => ?_
    rw [leads.removeFile noSlash noDir there] at removed
    cases removed

section Rename

variable (leads : w.Leads source l name)
  (file : w.files.find? (l ++ [name]) = some (.file content executable))
include leads file

/-- Only to a path that ends in a name are files moved. -/
theorem endsIn_of_renameFile (h : w.rename source target = .ok w') :
    ∃ other, EndsIn target other := by
  obtain ⟨_, _, m, other, -, leads', -⟩ := rename_eq_ok' h
  obtain ⟨_, before, _, whole, _⟩ := leads'.way
  refine ⟨other, by simp [whole], leads'.proper, Bool.eq_false_iff.mpr fun slash => ?_⟩
  unfold World.rename at h
  simp [leads.locateNew, leads'.locateNew, bind, Except.bind, file, slash] at h

theorem rename_of_blocked (apart : w.placeOf source ≠ w.placeOf target) (h : w.Blocked target) :
    ∃ fault, w.rename source target = .error fault := by
  cases moved : w.rename source target with
  | error fault => exact ⟨fault, rfl⟩
  | ok w' =>
    obtain ⟨other, ends⟩ := endsIn_of_renameFile leads file moved
    obtain ⟨k, last, leads', noDir, -⟩ := rename_eq_ok moved (leads.placeOf ▸ file) apart
    rw [← leads'.placeOf] at noDir
    exact h.elim (fun none => absurd ends (none other)) fun dir => absurd dir noDir

/-- A file is moved to a name beside it that is not that of a directory. -/
theorem rename_of_open {other : String} (noSlash : endsWithSlash source = false)
    (leads' : w.Leads target l other) (noSlash' : endsWithSlash target = false)
    (apart : name ≠ other) (noDir : w.files.find? (l ++ [other]) ≠ some .dir)
    (closed : w.files.Closed) :
    ∃ w', w.rename source target = .ok w' ∧
      (w.Alters w' fun m => m = w.placeOf source ∨ m = w.placeOf target) ∧
      w'.files.find? (w.placeOf target) = some (.file content executable) ∧
      w'.files.find? (w.placeOf source) = none := by
  have ne : l ++ [name] ≠ l ++ [other] := by simpa using apart
  have moved : w.rename source target =
      .ok { w with files := w.files.move (l ++ [name]) (l ++ [other]) } := by
    have notInto := not_isBelow_sibling (l := l) apart
    have notOver := not_isBelow_sibling (l := l) apart.symm
    unfold World.rename
    simp only [leads.locateNew, leads'.locateNew, bind, Except.bind, file, noSlash, noSlash',
      Bool.or_self, Bool.and_false, Bool.false_eq_true, if_false, ne, ne_eq, not_false_eq_true,
      notInto, notOver]
    cases found : w.files.find? (l ++ [other]) with
    | none => rfl
    | some n =>
      cases n with
      | dir => exact absurd found noDir
      | file c x => rfl
  have find := closed.find?_moveFile file noDir ne
  have keeps := keeps_moveFile closed file noDir ne
  rw [leads.placeOf, leads'.placeOf]
  refine ⟨_, moved, ⟨keeps, ⟨keeps.here.symm, fun m dir => ?_⟩,
    fun closed => closed.moveFile file noDir ne rfl leads'.dir_find?, fun m off => ?_⟩, ?_, ?_⟩
  · rw [find, find?_insert' (by simp)] at dir
    split at dir
    · cases dir
    · by_cases root : m = []
      · simp [root]
      · rw [Tree.find?_erase root] at dir
        split at dir
        · cases dir
        · exact dir
  · rw [find, find?_insert' (by simp), if_neg fun same => off (.inr same)]
    by_cases root : m = []
    · simp [root]
    · rw [Tree.find?_erase root, if_neg fun same => off (.inl same)]
  · rw [find, find?_insert' (by simp), if_pos rfl]
  · rw [find, find?_insert' (by simp), if_neg ne, Tree.find?_erase (by simp), if_pos rfl]

end Rename

end World

namespace Generation

variable {here : Location} {w w' : World} {files rest : List (String × String)}
  {f : String × String}

/-- What a file is written to before it is moved to its place. -/
def temporary (f : String × String) : String := sibling f.1 "tmp"

/-- Each of the files and of their temporaries has a place of its own. -/
structure Separate (here : Location) (files : List (String × String)) : Prop where
  places : (files.map fun f => placeFrom here f.1).Nodup
  temporaries : (files.map fun f => placeFrom here (temporary f)).Nodup
  apart : ∀ f ∈ files, ∀ g ∈ files, placeFrom here f.1 ≠ placeFrom here (temporary g)

theorem Separate.of_sublist (h : Separate here files) (part : rest.Sublist files) :
    Separate here rest :=
  ⟨(part.map _).nodup h.places, (part.map _).nodup h.temporaries,
    fun f mem g mem' => h.apart f (part.mem mem) g (part.mem mem')⟩

/-- The places of one of the files and of its temporary are those of no later one. -/
theorem Separate.beside {before after : List (String × String)} {g : String × String} {m : Location}
    (h : Separate here (before ++ after)) (mem : f ∈ before) (mem' : g ∈ after)
    (on : m = placeFrom here (temporary f) ∨ m = placeFrom here f.1) :
    m ≠ placeFrom here (temporary g) ∧ m ≠ placeFrom here g.1 := by
  have inFront := List.mem_append_left after mem
  have inRest := List.mem_append_right before mem'
  have places := h.places
  have temporaries := h.temporaries
  rw [List.map_append, List.nodup_append] at places temporaries
  rcases on with rfl | rfl
  · exact ⟨temporaries.2.2 _ (List.mem_map_of_mem mem) _ (List.mem_map_of_mem mem'),
      (h.apart g inRest f inFront).symm⟩
  · exact ⟨h.apart f inFront g inRest,
      places.2.2 _ (List.mem_map_of_mem mem) _ (List.mem_map_of_mem mem')⟩

theorem separate_of_abreast {l : Location} (h : Abreast here l files) : Separate here files := by
  have inDir : Function.Injective fun name : String => l ++ [name] := fun _ _ same =>
    List.singleton_injective (List.append_cancel_left same)
  have beside : Function.Injective fun name : String => l ++ ["." ++ name ++ "." ++ "tmp"] :=
    fun _ _ same => by
      have names := List.singleton_injective (List.append_cancel_left same)
      simpa only [String.append_left_inj, String.append_right_inj] using names
  have temporaries : ∀ f ∈ files, placeFrom here (temporary f) = l ++ [siblingName f.1 "tmp"] :=
    h.temporary
  refine ⟨?_, ?_, fun f mem g mem' same => h.apart f mem g mem' ?_⟩
  · have places := h.distinct.map inDir
    rw [List.map_map] at places
    rwa [List.map_congr_left h.place]
  · have places := h.distinct.map beside
    rw [List.map_map] at places
    rwa [List.map_congr_left temporaries]
  · rw [h.place f mem, temporaries g mem'] at same
    exact List.singleton_injective (List.append_cancel_left same)

/-! ## All are written -/

/-- The files are written beside their places, and nothing else is changed. -/
structure WrittenBeside (files : List (String × String)) (w w' : World) : Prop where
  alters : w.Alters w' fun m => ∃ f ∈ files, m = w.placeOf (temporary f)
  texts : ∀ f ∈ files, ∃ executable, w'.files.find? (w.placeOf (temporary f)) =
    some (.file (Text.Utf8.bytes f.2) executable)

theorem stageFiles_of_write {staged : List String}
    (h : w.write (temporary f) (Text.Utf8.bytes f.2) = .ok w') :
    stageFiles staged (f :: rest) w = stageFiles (staged ++ [temporary f]) rest w' := by
  rw [stageFiles, bind_apply, Action.attempt, writeText, writeBytes, changing]
  rw [temporary] at h
  rw [h, temporary]

theorem exists_writtenBeside (separate : Separate w.here files)
    (writable : ∀ f ∈ files, w.Writable (temporary f)) :
    ∃ w', WrittenBeside files w w' ∧ ∀ staged rest, stageFiles staged (files ++ rest) w =
      stageFiles (staged ++ files.map temporary) rest w' := by
  induction files generalizing w with
  | nil => exact ⟨w, ⟨.refl w _, nofun⟩, fun staged rest => by simp⟩
  | cons f files ih =>
    obtain ⟨w₁, wrote⟩ := writable_iff.mp (writable f (.head _))
    obtain ⟨alters, text⟩ := alters_write wrote
    have separate₁ : Separate w₁.here files :=
      alters.keeps.here.symm ▸ separate.of_sublist (List.sublist_cons_self f files)
    obtain ⟨w', written, stages⟩ := ih separate₁ fun g mem =>
      alters.writable_iff.mpr (writable g (.tail _ mem))
    have later := written.alters
    simp only [alters.placeOf] at later
    refine ⟨w', ⟨(alters.mono ?_).trans (later.mono ?_), fun g mem => ?_⟩, fun staged rest => ?_⟩
    · rintro _ rfl
      exact ⟨f, .head _, rfl⟩
    · rintro m ⟨g, mem, rfl⟩
      exact ⟨g, .tail _ mem, rfl⟩
    · rcases List.mem_cons.mp mem with rfl | mem
      · -- What has been written is not written over.
        rw [later.same]
        · exact text
        · rintro ⟨h, mem, same⟩
          exact (List.nodup_cons.mp separate.temporaries).1
            (List.mem_map.mpr ⟨h, mem, same.symm⟩)
      · simpa only [alters.placeOf] using written.texts g mem
    · rw [List.cons_append, stageFiles_of_write wrote, stages]
      simp

/-! ## One is not written -/

theorem exists_removed {staged : List String} (writable : ∀ t ∈ staged, w.Writable t) :
    ∃ w', (staged.forM fun t => Action.ignoring (Action.removeFile t) :
        Action Error PUnit) w = (.ok (), w') ∧
      (w.Alters w' fun m => ∃ t ∈ staged, m = w.placeOf t) ∧
      ∀ t ∈ staged, w'.files.find? (w.placeOf t) = none := by
  induction staged generalizing w with
  | nil => exact ⟨w, rfl, .refl w _, nofun⟩
  | cons t staged ih =>
    obtain ⟨w₁, removed, alters, gone⟩ := (writable t (.head _)).ignoring_removeFile
    obtain ⟨w', done, later, gone'⟩ :=
      ih fun u mem => alters.writable_iff.mpr (writable u (.tail _ mem))
    simp only [alters.placeOf] at later gone'
    refine ⟨w', ?_, (alters.mono ?_).trans (later.mono ?_), fun u mem => ?_⟩
    · rw [List.forM, bind_apply, removed]
      exact done
    · rintro _ rfl
      exact ⟨t, .head _, rfl⟩
    · rintro m ⟨u, mem, rfl⟩
      exact ⟨u, .tail _ mem, rfl⟩
    · rcases List.mem_cons.mp mem with rfl | mem
      · by_cases again : ∃ v ∈ staged, w.placeOf u = w.placeOf v
        · obtain ⟨v, mem, same⟩ := again
          rw [same]
          exact gone' v mem
        · exact (later.same _ again).trans gone
      · exact gone' u mem

/-- When one cannot be written those before it are removed. -/
theorem exists_refused {before after : List (String × String)}
    (separate : Separate w.here (before ++ f :: after))
    (writable : ∀ g ∈ before, w.Writable (temporary g)) (not : ¬ w.Writable (temporary f)) :
    ∃ fault w', stageFiles [] (before ++ f :: after) w = (.error (.file (temporary f) fault), w') ∧
      (w.Alters w' fun m => ∃ g ∈ before, m = w.placeOf (temporary g)) ∧
      ∀ g ∈ before, w'.files.find? (w.placeOf (temporary g)) = none := by
  obtain ⟨w₁, written, stages⟩ :=
    exists_writtenBeside (separate.of_sublist (List.sublist_append_left _ _)) writable
  have writable₁ : ∀ t ∈ before.map temporary, w₁.Writable t := by
    rintro _ staged
    obtain ⟨g, mem, rfl⟩ := List.mem_map.mp staged
    exact written.alters.writable_iff.mpr (writable g mem)
  obtain ⟨w', removed, alters, gone⟩ := exists_removed writable₁
  cases wrote : w₁.write (temporary f) (Text.Utf8.bytes f.2) with
  | ok w₂ => exact absurd (written.alters.writable_iff.mp (writable_iff.mpr ⟨w₂, wrote⟩)) not
  | error fault =>
    refine ⟨fault, w', ?_, written.alters.trans (alters.mono ?_), fun g mem => ?_⟩
    · rw [stages, List.nil_append, stageFiles, bind_apply, Action.attempt, writeText, writeBytes,
        changing]
      rw [temporary] at wrote
      rw [wrote]
      dsimp only
      rw [bind_apply, removed]
      rfl
    · rintro m ⟨t, staged, rfl⟩
      obtain ⟨g, mem, rfl⟩ := List.mem_map.mp staged
      exact ⟨g, mem, written.alters.placeOf _⟩
    · simpa only [written.alters.placeOf] using gone _ (List.mem_map_of_mem mem)

/-! ## All are moved -/

/-- The files are moved to their places, and nothing else is changed. -/
structure Landed (files : List (String × String)) (w w' : World) : Prop where
  alters : w.Alters w' fun m => ∃ f ∈ files, m = w.placeOf (temporary f) ∨ m = w.placeOf f.1
  texts : ∀ f ∈ files, ∃ executable, w'.files.find? (w.placeOf f.1) =
    some (.file (Text.Utf8.bytes f.2) executable)
  gone : ∀ f ∈ files, w'.files.find? (w.placeOf (temporary f)) = none

/-- A file that has been written beside its place can be moved there unless that is blocked. -/
theorem rename_temporary {content : List UInt8} {executable : Bool} (closed : w.files.Closed)
    (writable : w.Writable (temporary f)) (apart : w.placeOf f.1 ≠ w.placeOf (temporary f))
    (file : w.files.find? (w.placeOf (temporary f)) = some (.file content executable)) :
    (w.Blocked f.1 → ∃ fault, w.rename (temporary f) f.1 = .error fault) ∧
    (¬ w.Blocked f.1 → ∃ w', w.rename (temporary f) f.1 = .ok w' ∧
      (w.Alters w' fun m => m = w.placeOf (temporary f) ∨ m = w.placeOf f.1) ∧
      w'.files.find? (w.placeOf f.1) = some (.file content executable) ∧
      w'.files.find? (w.placeOf (temporary f)) = none) := by
  obtain ⟨l, other, leads, noSlash, -⟩ := writable
  rw [leads.placeOf] at file
  refine ⟨rename_of_blocked leads file apart.symm, fun open' => ?_⟩
  obtain ⟨named, noDir⟩ := not_or.mp open'
  obtain ⟨name, ends⟩ := not_forall_not.mp named
  have leads' : w.Leads f.1 l name := leads.of_sibling ends (by decide) (by decide)
  rw [leads'.placeOf] at noDir
  refine rename_of_open leads file noSlash leads' ends.noSlash ?_ noDir closed
  rintro rfl
  exact apart (leads'.placeOf.trans leads.placeOf.symm)

theorem exists_landed (closed : w.files.Closed) (separate : Separate w.here files)
    (writable : ∀ f ∈ files, w.Writable (temporary f))
    (texts : ∀ f ∈ files, ∃ executable, w.files.find? (w.placeOf (temporary f)) =
      some (.file (Text.Utf8.bytes f.2) executable))
    (open' : ∀ f ∈ files, ¬ w.Blocked f.1) :
    ∃ w', (files.forM fun f => onPath f.1 (Action.rename (sibling f.1 "tmp") f.1)) w =
        (.ok (), w') ∧
      Landed files w w' := by
  induction files generalizing w with
  | nil => exact ⟨w, rfl, .refl w _, nofun, nofun⟩
  | cons f files ih =>
    obtain ⟨executable, file⟩ := texts f (.head _)
    obtain ⟨w₁, moved, alters, text, gone⟩ := (rename_temporary closed (writable f (.head _))
      (separate.apart f (.head _) f (.head _)) file).2 (open' f (.head _))
    have beside {m : Location} (on : m = w.placeOf (temporary f) ∨ m = w.placeOf f.1)
        {g : String × String} (mem : g ∈ files) :
        m ≠ w.placeOf (temporary g) ∧ m ≠ w.placeOf g.1 :=
      separate.beside (List.mem_singleton_self f) mem on
    have separate₁ : Separate w₁.here files :=
      alters.keeps.here.symm ▸ separate.of_sublist (List.sublist_cons_self f files)
    obtain ⟨w', done, landed⟩ := ih (alters.closed closed) separate₁
      (fun g mem => alters.writable_iff.mpr (writable g (.tail _ mem)))
      (fun g mem => by
        rw [alters.placeOf, alters.same _ fun on => (beside on mem).1 rfl]
        exact texts g (.tail _ mem))
      (fun g mem => alters.blocked_iff.not.mpr (open' g (.tail _ mem)))
    have later := landed.alters
    simp only [alters.placeOf] at later
    -- What is moved later leaves the place of the first file and of its temporary alone.
    have kept {m : Location} (on : m = w.placeOf (temporary f) ∨ m = w.placeOf f.1) :
        w'.files.find? m = w₁.files.find? m := by
      refine later.same m ?_
      rintro ⟨g, mem, same | same⟩
      · exact (beside on mem).1 same
      · exact (beside on mem).2 same
    refine ⟨w', ?_, (alters.mono ?_).trans (later.mono ?_), fun g mem => ?_, fun g mem => ?_⟩
    · rw [List.forM, bind_apply]
      rw [temporary] at moved
      rw [onPath_rename moved]
      exact done
    · exact fun m on => ⟨f, .head _, on⟩
    · rintro m ⟨g, mem, on⟩
      exact ⟨g, .tail _ mem, on⟩
    · rcases List.mem_cons.mp mem with rfl | mem
      · exact ⟨executable, (kept (.inr rfl)).trans text⟩
      · simpa only [alters.placeOf] using landed.texts g mem
    · rcases List.mem_cons.mp mem with rfl | mem
      · exact (kept (.inl rfl)).trans gone
      · simpa only [alters.placeOf] using landed.gone g mem

/-! ## All together, or halfway -/

/-- Either every file holds its text and nothing stays beside it, or every file is as it was before
and nothing stays beside it that was not there. -/
inductive Together (files : List (String × String)) (w : World) : Except Error Unit × World → Prop
  | landed {w' : World} (landed : Landed files w w') : Together files w (.ok (), w')
  | refused {e : Error} {w' : World}
    (old : ∀ f ∈ files, w'.files.find? (w.placeOf f.1) = w.files.find? (w.placeOf f.1))
    (beside : ∀ f ∈ files, w'.files.find? (w.placeOf (temporary f)) = none ∨
      w'.files.find? (w.placeOf (temporary f)) = w.files.find? (w.placeOf (temporary f)))
    (same : ∀ m, (∀ f ∈ files, m ≠ w.placeOf (temporary f)) → w'.files.find? m = w.files.find? m) :
    Together files w (.error e, w')

/-- The files before the first that is blocked hold their texts, and the others are as they were
with their temporaries beside them. -/
inductive Partway (files : List (String × String)) (w : World) : Except Error Unit × World → Prop
  | stopped {before after : List (String × String)} {f : String × String} {fault : Fault}
    {w' : World} (whole : files = before ++ f :: after) (open' : ∀ g ∈ before, ¬ w.Blocked g.1)
    (blocked : w.Blocked f.1)
    (new : ∀ g ∈ before, ∃ executable, w'.files.find? (w.placeOf g.1) =
      some (.file (Text.Utf8.bytes g.2) executable))
    (gone : ∀ g ∈ before, w'.files.find? (w.placeOf (temporary g)) = none)
    (old : ∀ g ∈ f :: after, w'.files.find? (w.placeOf g.1) = w.files.find? (w.placeOf g.1))
    (left : ∀ g ∈ f :: after, ∃ executable, w'.files.find? (w.placeOf (temporary g)) =
      some (.file (Text.Utf8.bytes g.2) executable))
    (same : ∀ m, (∀ g ∈ files, m ≠ w.placeOf (temporary g)) → (∀ g ∈ before, m ≠ w.placeOf g.1) →
      w'.files.find? m = w.files.find? m) :
    Partway files w (.error (.file f.1 fault), w')

/-- All files can be written beside their places, and one of them cannot be moved to its place. -/
def OneBlocked (files : List (String × String)) (w : World) : Prop :=
  (∀ f ∈ files, w.Writable (temporary f)) ∧ ∃ f ∈ files, w.Blocked f.1

theorem exists_first_of_exists {α : Type} {p : α → Prop} {xs : List α} (h : ∃ x ∈ xs, p x) :
    ∃ before x after, xs = before ++ x :: after ∧ (∀ y ∈ before, ¬ p y) ∧ p x := by
  induction xs with
  | nil => simp at h
  | cons x rest ih =>
    by_cases first : p x
    · exact ⟨[], x, rest, rfl, nofun, first⟩
    · obtain ⟨before, y, after, rfl, none, holds⟩ := ih (by simpa [first] using h)
      exact ⟨x :: before, y, after, rfl, by simpa [first] using none, holds⟩

section Outcome

variable (separate : Separate w.here files)
include separate

theorem together_of_not_writable (not : ∃ f ∈ files, ¬ w.Writable (temporary f)) :
    Together files w (writeFiles files w) := by
  obtain ⟨before, f, after, rfl, writable, not⟩ := exists_first_of_exists not
  obtain ⟨fault, w', stopped, alters, gone⟩ :=
    exists_refused separate (fun g mem => not_not.mp (writable g mem)) not
  have same (m : Location) (off : ∀ g ∈ before ++ f :: after, m ≠ w.placeOf (temporary g)) :
      w'.files.find? m = w.files.find? m := by
    refine alters.same m ?_
    rintro ⟨g, mem, on⟩
    exact off g (List.mem_append_left _ mem) on
  rw [writeFiles, bind_apply, stopped]
  refine .refused (fun g mem => same _ (separate.apart g mem)) (fun g _ => ?_) same
  by_cases on : ∃ h ∈ before, w.placeOf (temporary g) = w.placeOf (temporary h)
  · obtain ⟨h, mem, place⟩ := on
    exact .inl (place ▸ gone h mem)
  · exact .inr (alters.same _ on)

variable (closed : w.files.Closed) (writable : ∀ f ∈ files, w.Writable (temporary f))
include closed writable

theorem together_of_open (open' : ∀ f ∈ files, ¬ w.Blocked f.1) :
    Together files w (writeFiles files w) := by
  obtain ⟨w₁, written, stages⟩ := exists_writtenBeside separate writable
  have alters := written.alters
  obtain ⟨w', moved, landed⟩ := exists_landed (alters.closed closed)
    (alters.keeps.here.symm ▸ separate) (fun f mem => alters.writable_iff.mpr (writable f mem))
    (fun f mem => by simpa only [alters.placeOf] using written.texts f mem)
    fun f mem => alters.blocked_iff.not.mpr (open' f mem)
  obtain ⟨later, texts, gone⟩ := landed
  simp only [alters.placeOf] at later texts gone
  have staged : stageFiles [] files w = (.ok (), w₁) := by
    have all := stages [] []
    rwa [List.append_nil] at all
  rw [writeFiles, bind_apply, staged]
  dsimp only
  rw [moved]
  exact .landed ⟨(alters.mono fun m ⟨f, mem, on⟩ => ⟨f, mem, .inl on⟩).trans later, texts, gone⟩

theorem partway_of_blocked (blocked : ∃ f ∈ files, w.Blocked f.1) :
    Partway files w (writeFiles files w) := by
  obtain ⟨before, f, after, rfl, open', blocked⟩ := exists_first_of_exists blocked
  obtain ⟨w₁, written, stages⟩ := exists_writtenBeside separate writable
  have alters := written.alters
  have texts₁ := written.texts
  have separate₁ : Separate w₁.here (before ++ f :: after) := alters.keeps.here.symm ▸ separate
  have writable₁ : ∀ g ∈ before ++ f :: after, w₁.Writable (temporary g) := fun g mem =>
    alters.writable_iff.mpr (writable g mem)
  obtain ⟨w', moved, landed⟩ := exists_landed (alters.closed closed)
    (separate₁.of_sublist (List.sublist_append_left _ _))
    (fun g mem => writable₁ g (List.mem_append_left _ mem))
    (fun g mem => by simpa only [alters.placeOf] using texts₁ g (List.mem_append_left _ mem))
    fun g mem => alters.blocked_iff.not.mpr (open' g mem)
  obtain ⟨later, texts, gone⟩ := landed
  simp only [alters.placeOf] at later texts gone
  -- Neither the file that is blocked nor those after it have been touched.
  have rest {g : String × String} (mem : g ∈ f :: after) :
      w'.files.find? (w.placeOf g.1) = w₁.files.find? (w.placeOf g.1) ∧
        w'.files.find? (w.placeOf (temporary g)) = w₁.files.find? (w.placeOf (temporary g)) := by
    refine ⟨later.same _ ?_, later.same _ ?_⟩ <;> rintro ⟨h, mem', on⟩
    · exact (separate.beside mem' mem on).2 rfl
    · exact (separate.beside mem' mem on).1 rfl
  have staged : stageFiles [] (before ++ f :: after) w = (.ok (), w₁) := by
    have all := stages [] []
    rwa [List.append_nil] at all
  have inAll : f ∈ before ++ f :: after := by simp
  obtain ⟨executable, file⟩ := texts₁ f inAll
  have place (path : String) : w'.placeOf path = w.placeOf path := by
    rw [later.placeOf, alters.placeOf]
  have file' : w'.files.find? (w'.placeOf (temporary f)) =
      some (.file (Text.Utf8.bytes f.2) executable) := by
    rw [place, (rest (.head _)).2, file]
  have apart : w'.placeOf f.1 ≠ w'.placeOf (temporary f) := by
    rw [place, place]
    exact separate.apart f inAll f inAll
  obtain ⟨fault, stopped⟩ := (rename_temporary (later.closed (alters.closed closed))
    (later.writable_iff.mpr (writable₁ f inAll)) apart file').1
    (later.blocked_iff.mpr (alters.blocked_iff.mpr blocked))
  have halted : (before ++ f :: after).forM
      (fun f => onPath f.1 (Action.rename (sibling f.1 "tmp") f.1)) w₁ =
        (.error (.file f.1 fault), w') := by
    rw [temporary] at stopped
    rw [List.forM_eq_forM] at moved ⊢
    rw [List.forM_append, bind_apply, moved]
    dsimp only
    rw [List.forM_cons, bind_apply, onPath, mapError, Action.rename, changing, stopped]
  rw [writeFiles, bind_apply, staged]
  dsimp only
  rw [halted]
  refine .stopped rfl open' blocked texts gone (fun g mem => ?_) (fun g mem => ?_)
    fun m off off' => ?_
  · rw [(rest mem).1]
    refine alters.same _ ?_
    rintro ⟨h, mem', on⟩
    exact separate.apart g (List.mem_append_right _ mem) h mem' on
  · rw [(rest mem).2]
    exact texts₁ g (List.mem_append_right _ mem)
  · rw [later.same, alters.same]
    · rintro ⟨g, mem, on⟩
      exact off g mem on
    · rintro ⟨g, mem, on | on⟩
      · exact off g (List.mem_append_left _ mem) on
      · exact off' g mem on

omit writable in
/-- The whole ends halfway just where all files can be written and one is blocked. -/
theorem outcome_of_writeFiles :
    (¬ OneBlocked files w → Together files w (writeFiles files w)) ∧
      (OneBlocked files w → Partway files w (writeFiles files w)) := by
  refine ⟨fun not => ?_, fun h => partway_of_blocked separate closed h.1 h.2⟩
  by_cases writable : ∀ f ∈ files, w.Writable (temporary f)
  · exact together_of_open separate closed writable fun f mem blocked =>
      not ⟨writable, f, mem, blocked⟩
  · exact together_of_not_writable separate (by simpa using writable)

end Outcome

end Generation

end BoardDesign
