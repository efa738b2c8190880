import BoardDesign.Proofs.File.Steady
import BoardDesign.Proofs.Text.Utf8
import BoardDesign.Stage.Cache
import Mathlib.Logic.Function.Basic

/-!
# The cache of a board as a map

The cache is asked for the stages of a board, and puts digests on record and takes them away, in any
order. Its files stand for a map from the stages to the texts of their records.

* `texts`: the map; `Call`: what is asked of a cache, and `Call.apply`: what it does to the map;
* `Grounded`: the files lie in a tree, and the way to the records steps up only through directories
  that are there;
* `grounded_store`, `grounded_invalidate`: what a call does to the files it does to the map;
* `Served`: a cache with the calls that it has served, and `Served.reflects`: what it answers.
-/

namespace BoardDesign

open File File.Path World

namespace Stage

/-- The name of the file that holds the digest of a stage. -/
def recordName (s : Stage) : String := s.id ++ ".hash"

theorem isName_recordName (s : Stage) : IsName s.recordName := by
  cases s <;> exact ⟨by decide, by decide, by decide⟩

theorem recordName_inj {s s' : Stage} (same : s.recordName = s'.recordName) : s = s' := by
  cases s <;> cases s' <;> first | rfl | (revert same; decide)

theorem usual_recordName (s : Stage) : Usual s.recordName := by
  cases s <;> exact ⟨by decide, by decide⟩

end Stage

namespace ContentHash

theorem ofText?_eq_some_iff {text : String} {d : ContentHash} :
    ofText? text = some d ↔ Text.trim text.toList = d.digits := by
  obtain ⟨digits, length, isDigit⟩ := d
  rw [ofText?]
  constructor
  · intro read
    split at read
    · split at read <;> cases read
      rfl
    · cases read
  · rintro rfl
    simp [length, isDigit]

/-- The line that is put on record is read as the digest. -/
theorem ofText?_line (d : ContentHash) : ofText? (d.text ++ "\n") = some d := by
  have read := d.ofText?_text [] ['\n'] rfl (by decide)
  rwa [List.nil_append, String.ofList_append] at read

end ContentHash

namespace Stage.Cache

variable {dir : String} {c : Cache} {w w' w₀ : World} {s : Stage} {d : ContentHash}

theorem placeFrom_hashPath (c : Cache) (stage : Stage) (here : Location) :
    placeFrom here (c.hashPath stage) = placeFrom here c.dir ++ [stage.recordName] :=
  stage.isName_recordName.placeFrom_join here c.dir

/-! ## The map -/

/-- The texts of the records. -/
def texts (w : World) (dir : String) (s : Stage) : Option String :=
  (w.textAt (join dir s.recordName)).toOption

theorem recorded?_eq (w : World) (c : Cache) (s : Stage) :
    recorded? w c s = (texts w c.dir s).bind ContentHash.ofText? := rfl

theorem texts_eq_some_iff {text : String} :
    texts w dir s = some text ↔ w.textAt (join dir s.recordName) = .ok text := by
  rw [texts]
  cases w.textAt (join dir s.recordName) <;> simp [Except.toOption]

/-- The files lie in a tree, and the way to the records steps up only through directories that are
there. -/
structure Grounded (w : World) (dir : String) : Prop where
  closed : w.files.Closed
  steady : w.Steady dir

/-- A record is the text of the file at its place. -/
theorem Grounded.texts_iff (h : Grounded w dir) {text : String} : texts w dir s = some text ↔
    Taken (join dir s.recordName) ∧ w.fileText? (join dir s.recordName) = some text := by
  rw [texts_eq_some_iff, fileText?, Option.bind_eq_some_iff]
  constructor
  · intro read
    obtain ⟨content, there, decoded⟩ := textAt_eq_ok read
    obtain ⟨taken, found⟩ := (h.steady.bytesAt_eq_ok_iff h.closed s.isName_recordName).mp there
    exact ⟨taken, content, found, decoded⟩
  · rintro ⟨taken, content, found, decoded⟩
    have there := (h.steady.bytesAt_eq_ok_iff h.closed s.isName_recordName).mpr ⟨taken, found⟩
    exact textAt_of_bytesAt there decoded

/-- Records stay while their files do. -/
theorem Grounded.texts_congr (h : Grounded w dir) (h' : Grounded w' dir)
    (same : w'.fileAt? (join dir s.recordName) = w.fileAt? (join dir s.recordName)) :
    texts w' dir s = texts w dir s := by
  refine Option.ext fun text => ?_
  rw [h.texts_iff, h'.texts_iff, fileText?, fileText?, same]

/-- What is asked of a cache, and how it ends. -/
inductive Call where
  | store (stage : Stage) (digest : ContentHash) (success : Bool)
  | invalidate (stage : Stage) (success : Bool)
  | lookup (stage : Stage) (digest : ContentHash) (hit : Bool)
deriving DecidableEq, Repr

/-- What a call does to the map; a call that fails does nothing. -/
def Call.apply : Call → (Stage → Option String) → Stage → Option String
  | .store s d true, records => Function.update records s (some (d.text ++ "\n"))
  | .invalidate s true, records => Function.update records s none
  | _, records => records

/-! ## Calls -/

theorem placeOf_hashPath_inj {s' : Stage}
    (same : w.placeOf (c.hashPath s') = w.placeOf (c.hashPath s)) : s' = s := by
  rw [placeOf_eq, placeOf_eq, placeFrom_hashPath, placeFrom_hashPath] at same
  exact recordName_inj (List.singleton_injective (List.append_cancel_left same))

theorem grounded_makeDirs (h : Grounded w dir) (path : String) :
    Grounded (w.makeDirs path).2 dir ∧ texts (w.makeDirs path).2 dir = texts w dir := by
  have adds := makeDirs_adds w path
  have after : Grounded (w.makeDirs path).2 dir :=
    ⟨adds.closed h.closed, h.steady.keeps adds.keeps⟩
  exact ⟨after, funext fun s => h.texts_congr after (fileAt?_makeDirs w path _)⟩

/-- What is written at the path of a record is that record, and no other. -/
theorem grounded_write (h : Grounded w c.dir) {text : String}
    (wrote : w.write (c.hashPath s) (Text.Utf8.bytes text) = .ok w') :
    Grounded w' c.dir ∧ texts w' c.dir = Function.update (texts w c.dir) s (some text) := by
  have after : Grounded w' c.dir :=
    ⟨closed_write h.closed wrote, h.steady.keeps (keeps_write wrote)⟩
  refine ⟨after, funext fun other => ?_⟩
  by_cases here : other = s
  · subst here
    rw [Function.update_self, texts_eq_some_iff]
    exact textAt_of_bytesAt (bytesAt_of_write wrote) (Text.Utf8.text?_bytes text)
  · rw [Function.update_of_ne here]
    refine h.texts_congr after ((fileAt?_write wrote _).trans (if_neg fun same => ?_))
    exact here (placeOf_hashPath_inj same)

/-- Where the file of a record is removed there is no record, and the others stay. -/
theorem grounded_removeFile (h : Grounded w c.dir)
    (removed : w.removeFile (c.hashPath s) = .ok w') :
    Grounded w' c.dir ∧ texts w' c.dir = Function.update (texts w c.dir) s none := by
  have after : Grounded w' c.dir := by
    obtain ⟨l, located, noDir, rfl⟩ := removeFile_eq_ok removed
    exact ⟨h.closed.erase noDir, h.steady.keeps (keeps_erase noDir)⟩
  refine ⟨after, funext fun other => ?_⟩
  by_cases here : other = s
  · subst here
    rw [Function.update_self, Option.eq_none_iff_forall_ne_some]
    intro text found
    obtain ⟨content, there, -⟩ := Option.bind_eq_some_iff.mp (after.texts_iff.mp found).2
    cases (fileAt?_of_removeFile removed).symm.trans there
  · rw [Function.update_of_ne here]
    apply h.texts_congr after
    exact fileAt?_removeFile removed fun same => here (placeOf_hashPath_inj same)

/-- A store fails and has made no more than directories, or it writes. -/
theorem store_cases (c : Cache) (s : Stage) (d : ContentHash) (w : World) :
    (∃ e, c.store s d w = (.error e, (w.makeDirs c.dir).2) ∧ ((w.makeDirs c.dir).1 = .ok () →
      ∃ fault, (w.makeDirs c.dir).2.write (c.hashPath s) (Text.Utf8.bytes (d.text ++ "\n")) =
        .error fault)) ∨
    ∃ w', c.store s d w = (.ok (), w') ∧ (w.makeDirs c.dir).1 = .ok () ∧
      (w.makeDirs c.dir).2.write (c.hashPath s) (Text.Utf8.bytes (d.text ++ "\n")) = .ok w' := by
  rw [store, Action.bind_apply, Action.mapError, Action.makeDirs, Action.ofPair]
  rcases w.makeDirs c.dir with ⟨e | _, w₁⟩
  · refine .inl ⟨_, rfl, fun made => ?_⟩
    cases made
  · dsimp only
    rw [Action.mapError, Action.writeText, Action.writeBytes, Action.changing]
    cases w₁.write (c.hashPath s) (Text.Utf8.bytes (d.text ++ "\n")) with
    | error fault => exact .inl ⟨_, rfl, fun _ => ⟨fault, rfl⟩⟩
    | ok w' => exact .inr ⟨w', rfl, rfl, rfl⟩

/-- A record is taken away, or there is none, or the call fails and nothing happens. -/
theorem invalidate_cases (c : Cache) (s : Stage) (w : World) :
    (∃ w', w.removeFile (c.hashPath s) = .ok w' ∧ c.invalidate s w = (.ok (), w')) ∨
    (w.removeFile (c.hashPath s) = .error .notFound ∧ c.invalidate s w = (.ok (), w)) ∨
    ∃ fault, fault ≠ .notFound ∧ w.removeFile (c.hashPath s) = .error fault ∧
      c.invalidate s w = (.error (.file (c.hashPath s) fault), w) := by
  rw [invalidate, Action.bind_apply, Action.attempt, Action.removeFile, Action.changing]
  cases w.removeFile (c.hashPath s) with
  | ok w' => exact .inl ⟨w', rfl, rfl⟩
  | error fault =>
    by_cases missing : fault = .notFound
    · subst missing
      exact .inr (.inl ⟨rfl, rfl⟩)
    · refine .inr (.inr ⟨fault, missing, rfl, ?_⟩)
      cases fault <;> first | rfl | exact absurd rfl missing

theorem grounded_store (h : Grounded w c.dir) (s : Stage) (d : ContentHash) :
    Grounded (c.store s d w).2 c.dir ∧ texts (c.store s d w).2 c.dir =
      (Call.store s d (c.store s d w).1.isOk).apply (texts w c.dir) := by
  obtain ⟨made, same⟩ := grounded_makeDirs h c.dir
  rcases store_cases c s d w with ⟨e, failed, -⟩ | ⟨w', done, -, wrote⟩
  · rw [failed]
    exact ⟨made, same⟩
  · rw [done, ← same]
    exact grounded_write made wrote

theorem grounded_invalidate (h : Grounded w c.dir) (s : Stage) :
    Grounded (c.invalidate s w).2 c.dir ∧ texts (c.invalidate s w).2 c.dir =
      (Call.invalidate s (c.invalidate s w).1.isOk).apply (texts w c.dir) := by
  rcases invalidate_cases c s w with ⟨w', removed, done⟩ | ⟨missing, done⟩ | ⟨fault, -, -, failed⟩
  · rw [done]
    exact grounded_removeFile h removed
  · have none : texts w c.dir s = none := by
      have nowhere := removeFile_eq_notFound_iff.mp missing
      change (w.textAt (c.hashPath s)).toOption = none
      simp [textAt, bytesAt, nodeAt, nowhere, Except.map, bind, Except.bind, Except.toOption]
    rw [done]
    exact ⟨h, (Function.update_eq_self_iff.mpr none.symm).symm⟩
  · rw [failed]
    exact ⟨h, rfl⟩

/-! ## What succeeds -/

theorem store_eq_ok_iff (h : Grounded w c.dir) : (c.store s d w).1 = .ok () ↔
    (w.makeDirs c.dir).1 = .ok () ∧ (w.makeDirs c.dir).2.isDir (c.hashPath s) = false := by
  have ground := (grounded_makeDirs h c.dir).1
  rcases store_cases c s d w with ⟨e, failed, unwritten⟩ | ⟨w', done, made, wrote⟩
  · rw [failed]
    refine ⟨nofun, fun ⟨made, noDir⟩ => ?_⟩
    obtain ⟨fault, unwritten⟩ := unwritten made
    have leads := ground.steady.leads_of_made ground.closed s.isName_recordName
      s.usual_recordName made
    have free : (w.makeDirs c.dir).2.files.find?
        ((w.makeDirs c.dir).2.placeOf c.dir ++ [s.recordName]) ≠ some .dir := by
      intro found
      cases (leads.isDir found).symm.trans noDir
    obtain ⟨executable, wrote⟩ := leads.write (s.isName_recordName.endsWithSlash_join c.dir) free
      (Text.Utf8.bytes (d.text ++ "\n"))
    cases wrote.symm.trans unwritten
  · rw [done]
    refine ⟨fun _ => ⟨made, Bool.eq_false_iff.mpr fun dir => ?_⟩, fun _ => rfl⟩
    obtain ⟨l, name, executable, leads, noDir, -⟩ := write_eq_ok wrote
    exact noDir (leads.placeOf ▸ ((isDir_iff ground.closed).mp dir).dir)

theorem invalidate_eq_ok_iff (h : Grounded w c.dir) : (c.invalidate s w).1 = .ok () ↔
    w.locate (c.hashPath s) = .error .notFound ∨ w.isFile (c.hashPath s) = true := by
  rw [← removeFile_eq_notFound_iff, isFile_iff_removes h.closed]
  rcases invalidate_cases c s w with
    ⟨w', removed, done⟩ | ⟨missing, done⟩ | ⟨fault, other, left, failed⟩
  · rw [done]
    exact iff_of_true rfl (.inr ⟨w', removed⟩)
  · rw [done]
    exact iff_of_true rfl (.inl missing)
  · rw [failed]
    refine iff_of_false nofun ?_
    rw [left]
    rintro (missing | ⟨w', removed⟩)
    · exact other (Except.error.inj missing)
    · cases removed

/-! ## Caches in use -/

/-- What others do leaves the records, and the way to them. -/
structure Spares (dir : String) (w w' : World) : Prop where
  grounded : Grounded w' dir
  records : texts w' dir = texts w dir

/-- A cache that has served calls, the last of them first; others may change files in between. -/
inductive Served (dir : String) (w₀ : World) : List Call → Cache → World → Prop
  | start : Served dir w₀ [] (.ofDir dir) w₀
  | store {calls c w} (before : Served dir w₀ calls c w) (s : Stage) (d : ContentHash) :
      Served dir w₀ (.store s d (c.store s d w).1.isOk :: calls) c (c.store s d w).2
  | invalidate {calls c w} (before : Served dir w₀ calls c w) (s : Stage) :
      Served dir w₀ (.invalidate s (c.invalidate s w).1.isOk :: calls) c (c.invalidate s w).2
  | lookup {calls c w} (before : Served dir w₀ calls c w) (s : Stage) (d : ContentHash)
      (outputs : List String) {hit : Bool} {c' : Cache} {w' : World}
      (done : c.lookup s d outputs w = (.ok (hit, c'), w')) :
      Served dir w₀ (.lookup s d hit :: calls) c' w'
  | meanwhile {calls c w w'} (before : Served dir w₀ calls c w) (spares : Spares dir w w') :
      Served dir w₀ calls c w'

/-- The call stores a digest for the stage or takes its record away, and succeeds. -/
def Call.settles (s : Stage) : Call → Bool
  | .store s' _ success => s' == s && success
  | .invalidate s' success => s' == s && success
  | .lookup _ _ _ => false

def Call.isLookup : Call → Bool
  | .lookup _ _ _ => true
  | _ => false

/-- The last call that settled the stage stored the digest; or there was none, and the digest is
what the record held in the beginning. -/
def OnRecord (dir : String) (w₀ : World) (calls : List Call) (s : Stage) (d : ContentHash) : Prop :=
  match calls.find? (·.settles s) with
  | some call => call = .store s d true
  | none => ∃ text, w₀.textAt (join dir s.recordName) = .ok text ∧ Text.trim text.toList = d.digits

/-- What a cache answers after calls. -/
structure Reflects (dir : String) (w₀ : World) (calls : List Call) (c : Cache) (w : World) :
    Prop where
  lookup : ∀ s d outputs, ∃ hit, c.lookup s d outputs w = (.ok (hit, c.count hit), w) ∧
    (hit = true ↔ s.cacheable = true ∧ OnRecord dir w₀ calls s d ∧
      ∀ path ∈ outputs, w.doesExist path = true)
  stored : ∀ s d w', c.store s d w = (.ok (), w') →
    w'.textAt (c.hashPath s) = .ok (d.text ++ "\n")
  /-- What is put on record is read back as the digest. -/
  parsed : ∀ d : ContentHash, ContentHash.ofText? (d.text ++ "\n") = some d
  /-- Other stages keep their records. -/
  apart : ∀ s other, other ≠ s →
    (∀ d, texts (c.store s d w).2 dir other = texts w dir other) ∧
      texts (c.invalidate s w).2 dir other = texts w dir other
  /-- A call that fails leaves all records. -/
  failed : ∀ s,
    (∀ d, (c.store s d w).1 ≠ .ok () → texts (c.store s d w).2 dir = texts w dir) ∧
      ((c.invalidate s w).1 ≠ .ok () → (c.invalidate s w).2 = w)
  stores : ∀ s d, (c.store s d w).1 = .ok () ↔
    (w.makeDirs dir).1 = .ok () ∧ (w.makeDirs dir).2.isDir (c.hashPath s) = false
  invalidates : ∀ s, (c.invalidate s w).1 = .ok () ↔
    w.locate (c.hashPath s) = .error .notFound ∨ w.isFile (c.hashPath s) = true
  counted : c.hits + c.misses = calls.countP (·.isLookup)

theorem holds_iff {outputs : List String} : holds w c s d outputs = true ↔
    s.cacheable = true ∧ (texts w c.dir s).bind ContentHash.ofText? = some d ∧
      ∀ path ∈ outputs, w.doesExist path = true := by
  simp [holds, recorded?_eq, and_assoc]

/-- A call that does not settle a stage leaves its record. -/
theorem apply_of_not_settles {call : Call} (idle : call.settles s = false)
    (records : Stage → Option String) : call.apply records s = records s := by
  cases call with
  | store other d success =>
    cases success with
    | false => rfl
    | true => exact Function.update_of_ne (by rintro rfl; simp [Call.settles] at idle) _ _
  | invalidate other success =>
    cases success with
    | false => rfl
    | true => exact Function.update_of_ne (by rintro rfl; simp [Call.settles] at idle) _ _
  | lookup other d hit => rfl

/-- A call that settles a stage leaves the digest that it stores on record, or nothing. -/
theorem apply_of_settles {call : Call} (settles : call.settles s = true)
    (records : Stage → Option String) :
    (call.apply records s).bind ContentHash.ofText? = some d ↔ call = .store s d true := by
  cases call with
  | store other d' success =>
    obtain ⟨rfl, rfl⟩ : other = s ∧ success = true := by simpa [Call.settles] using settles
    simp [Call.apply, ContentHash.ofText?_line]
  | invalidate other success =>
    obtain ⟨rfl, rfl⟩ : other = s ∧ success = true := by simpa [Call.settles] using settles
    simp [Call.apply]
  | lookup other d' hit => cases settles

/-- After calls the map holds what the last of them that settled the stage has put there. -/
theorem onRecord_iff {calls : List Call} : OnRecord dir w₀ calls s d ↔
    (calls.foldr Call.apply (texts w₀ dir) s).bind ContentHash.ofText? = some d := by
  induction calls with
  | nil =>
    simp only [OnRecord, List.find?_nil, List.foldr_nil, Option.bind_eq_some_iff, texts_eq_some_iff,
      ContentHash.ofText?_eq_some_iff]
  | cons call before ih =>
    rw [List.foldr_cons]
    cases settles : call.settles s with
    | true => rw [apply_of_settles settles, OnRecord, List.find?_cons_of_pos settles]
    | false =>
      rw [apply_of_not_settles settles, ← ih, OnRecord, OnRecord,
        List.find?_cons_of_neg (by simp [settles])]

namespace Served

variable {calls : List Call}

theorem dir_eq (h : Served dir w₀ calls c w) : c.dir = dir := by
  induction h with
  | start => rfl
  | store _ _ _ ih => exact ih
  | invalidate _ _ ih => exact ih
  | lookup _ _ _ _ done ih =>
    cases done
    rw [← ih, count]
    split <;> rfl
  | meanwhile _ _ ih => exact ih

/-- The files stand for the map: each call does to them what it does to the map. -/
theorem refines (h : Served dir w₀ calls c w) (ground : Grounded w₀ dir) :
    Grounded w dir ∧ texts w dir = calls.foldr Call.apply (texts w₀ dir) := by
  induction h with
  | start => exact ⟨ground, rfl⟩
  | store before s d ih =>
    obtain ⟨ground, same⟩ := ih
    rw [← before.dir_eq] at ground same ⊢
    obtain ⟨after, changed⟩ := grounded_store ground s d
    exact ⟨after, changed.trans (congrArg _ same)⟩
  | invalidate before s ih =>
    obtain ⟨ground, same⟩ := ih
    rw [← before.dir_eq] at ground same ⊢
    obtain ⟨after, changed⟩ := grounded_invalidate ground s
    exact ⟨after, changed.trans (congrArg _ same)⟩
  | lookup _ _ _ _ done ih =>
    cases done
    exact ih
  | meanwhile _ spares ih => exact ⟨spares.grounded, spares.records.trans ih.2⟩

theorem counted (h : Served dir w₀ calls c w) : c.hits + c.misses = calls.countP (·.isLookup) := by
  induction h with
  | start => rfl
  | store _ _ _ ih => rwa [List.countP_cons_of_neg Bool.false_ne_true]
  | invalidate _ _ ih => rwa [List.countP_cons_of_neg Bool.false_ne_true]
  | lookup _ _ _ _ done ih =>
    cases done
    rw [List.countP_cons_of_pos rfl, ← ih, count]
    split
    · exact Nat.add_right_comm ..
    · rfl
  | meanwhile _ _ ih => exact ih

end Served

/-! ## Some directories -/

/-- A digest of one letter. -/
def letters : ContentHash := ⟨List.replicate 64 'a', by decide, by decide⟩

/-- A digest of the build is on record. -/
def shelf : World :=
  ⟨⟨[(["stages"], .dir),
    (["stages", "build.hash"], .file (Text.Utf8.bytes (letters.text ++ "\n")) false)]⟩,
    [], 0, [], 0, []⟩

/-- A directory lies where the record of the build would. -/
def blocked : World :=
  ⟨⟨[(["stages"], .dir), (["stages", "build.hash"], .dir)]⟩, [], 0, [], 0, []⟩

/-- A file lies where the record of the build would if there were a directory to step up from. -/
def beside : World :=
  ⟨⟨[(["build.hash"], .file (Text.Utf8.bytes letters.text) false)]⟩, [], 0, [], 0, []⟩

end Stage.Cache

end BoardDesign
