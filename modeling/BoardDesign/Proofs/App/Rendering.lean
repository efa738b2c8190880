import BoardDesign.Proofs.Board.Making
import BoardDesign.Proofs.Generation.Copy
import BoardDesign.Proofs.Template.Directives
import BoardDesign.Proofs.Text.Utf8

/-!
# Files rendered in their places

* `rendering?`, `remade`: what becomes of the bytes of a file;
* `renderFile_eq_ok`, `renderFile_eq_error`: one file;
* `Rendered`: all files of a directory are rendered, and which of them were texts with markers;
* `renderTree_eq_ok`, `renderTree_eq_error`: that is so if rendering succeeds; if it fails, a file
  cannot be rendered, or the directory cannot be gone through to its end;
* `renderedText`: the bytes of a file whose text is rendered in any case. Files without markers are
  left alone, which saves work and changes nothing (`renderTree_of_every_text`).
-/

namespace BoardDesign.App

open File File.Path World Action
open Generation (IsFault onPath)

variable {ctx : Template.Context} {w w' u u' : World} {fuel : Nat}
  {path templatePath templateDir dir relative name : String} {content : List UInt8}

/-- What rendering makes of the bytes of a file. What is no text or has no markers is not
rendered. -/
def rendering? (ctx : Template.Context) (content : List UInt8) :
    Option (Except Template.Error String) :=
  match Text.Utf8.text? content with
  | none => none
  | some text => if Template.hasMarkers text then some (Template.render ctx text) else none

/-- The bytes that a file of the template has in the application. -/
def remade (ctx : Template.Context) (content : List UInt8) : List UInt8 :=
  match rendering? ctx content with
  | some (.ok output) => Text.Utf8.bytes output
  | _ => content

/-! ## One file -/

theorem renderFile_apply (ctx : Template.Context) (path templatePath : String) (w : World) :
    renderFile ctx path templatePath w =
      match w.bytesAt path with
      | .error fault => (.error (.file path fault), w)
      | .ok content =>
        match rendering? ctx content with
        | none => (.ok false, w)
        | some (.error e) => (.error (.template templatePath e), w)
        | some (.ok output) =>
          match w.write path (Text.Utf8.bytes output) with
          | .ok w' => (.ok true, w')
          | .error fault => (.error (.file path fault), w) := by
  rw [renderFile, bind_apply]
  simp only [onPath, mapError, readBytes, reading]
  cases w.bytesAt path with
  | error fault => rfl
  | ok content =>
    simp only [rendering?]
    cases Text.Utf8.text? content with
    | none => rfl
    | some text =>
      dsimp only
      by_cases marked : Template.hasMarkers text = true
      · simp only [marked, Bool.not_true, Bool.false_eq_true, if_false, if_true]
        cases Template.render ctx text with
        | error e => rfl
        | ok output =>
          dsimp only
          rw [bind_apply]
          simp only [mapError, writeText, writeBytes, changing]
          cases w.write path (Text.Utf8.bytes output) <;> rfl
      · simp only [marked, Bool.not_false, if_true, Bool.false_eq_true, if_false]
        rfl

/-- A file that is left alone, or rendered. -/
theorem renderFile_eq_ok {rendered : Bool}
    (done : renderFile ctx path templatePath w = (.ok rendered, w')) :
    ∃ content, w.bytesAt path = .ok content ∧
      (rendering? ctx content = none ∧ rendered = false ∧ w' = w ∨
        ∃ output, rendering? ctx content = some (.ok output) ∧ rendered = true ∧
          w.write path (Text.Utf8.bytes output) = .ok w') := by
  rw [renderFile_apply] at done
  cases read : w.bytesAt path with
  | error fault =>
    rw [read] at done
    cases done
  | ok content =>
    rw [read] at done
    dsimp only at done
    refine ⟨content, rfl, ?_⟩
    rcases made : rendering? ctx content with _ | _ | output <;> rw [made] at done <;>
      dsimp only at done
    · cases done
      exact .inl ⟨rfl, rfl, rfl⟩
    · cases done
    · cases written : w.write path (Text.Utf8.bytes output) with
      | error fault =>
        rw [written] at done
        cases done
      | ok w₁ =>
        rw [written] at done
        cases done
        exact .inr ⟨output, rfl, rfl, written⟩

/-- A file that cannot be read or written, or whose text cannot be rendered. -/
theorem renderFile_eq_error {e : Generation.Error}
    (failed : renderFile ctx path templatePath w = (.error e, w')) :
    (∃ fault, w.bytesAt path = .error fault ∧ e = .file path fault) ∨
      (∃ content fault output, w.bytesAt path = .ok content ∧
        w.write path output = .error fault ∧ e = .file path fault) ∨
      ∃ content error, w.bytesAt path = .ok content ∧
        rendering? ctx content = some (.error error) ∧ e = .template templatePath error := by
  rw [renderFile_apply] at failed
  cases read : w.bytesAt path with
  | error fault =>
    rw [read] at failed
    cases failed
    exact .inl ⟨fault, rfl, rfl⟩
  | ok content =>
    rw [read] at failed
    dsimp only at failed
    rcases made : rendering? ctx content with _ | error | output <;> rw [made] at failed <;>
      dsimp only at failed
    · cases failed
    · cases failed
      exact .inr (.inr ⟨content, error, rfl, made, rfl⟩)
    · cases written : w.write path (Text.Utf8.bytes output) with
      | error fault =>
        rw [written] at failed
        cases failed
        exact .inr (.inl ⟨content, fault, _, rfl, written, rfl⟩)
      | ok w₁ =>
        rw [written] at failed
        cases failed

/-! ## One entry -/

/-- One entry of a directory rendered. -/
def renderEntry (ctx : Template.Context) (templateDir dir relative : String) (fuel : Nat)
    (name : String) : Action Generation.Error (List String) := do
  let path := join dir name
  let below := join relative name
  if ← Action.isDir path then renderTree ctx templateDir path below fuel
  else if ← renderFile ctx path (join templateDir below) then return [below]
  else return []

theorem renderTree_succ (ctx : Template.Context) (templateDir dir relative : String) (fuel : Nat) :
    renderTree ctx templateDir dir relative (fuel + 1) =
      onPath dir (Action.readDir dir) >>= fun names =>
        names.mapM (renderEntry ctx templateDir dir relative fuel) >>= fun rendered =>
          pure rendered.flatten := rfl

theorem renderEntry_apply (ctx : Template.Context) (templateDir dir relative : String) (fuel : Nat)
    (name : String) (w : World) :
    renderEntry ctx templateDir dir relative fuel name w =
      (if w.isDir (join dir name) then
        renderTree ctx templateDir (join dir name) (join relative name) fuel
      else renderFile ctx (join dir name) (join templateDir (join relative name)) >>= fun rendered =>
        pure (if rendered then [join relative name] else [])) w := by
  rw [renderEntry, bind_apply]
  simp only [Action.isDir, ask]
  split
  · rfl
  · rw [bind_apply, bind_apply]
    rcases renderFile ctx (join dir name) (join templateDir (join relative name)) w with
      ⟨_ | _ | _, _⟩ <;> rfl

section Frame

variable {inv : World → Prop} {here : Location} {places way : Location → Prop}

theorem maintains_renderEntry (ind : Indifferent inv here places way)
    (covers : Covers places here (join dir name)) :
    Maintains inv (renderEntry ctx templateDir dir relative fuel name) := by
  refine maintains_bind (Reads.ask _).maintains fun isDir => ?_
  split
  · exact maintains_renderTree ind ctx _ _ covers fuel
  · refine maintains_bind (maintains_renderFile ind ctx _ covers.self) fun rendered => ?_
    exact maintains_ite (maintains_pure _) (maintains_pure _)

theorem keepsDirs_renderFile (ctx : Template.Context) (path templatePath : String) :
    KeepsDirs (renderFile ctx path templatePath) := by
  intro before w kept
  rcases done : renderFile ctx path templatePath w with ⟨e | rendered, w'⟩
  · have same : w' = w := by
      rw [renderFile_apply] at done
      split at done
      · cases done
        rfl
      · split at done
        · cases done
        · cases done
          rfl
        · split at done <;> cases done
          rfl
    exact same ▸ kept
  · obtain ⟨_, -, ⟨-, -, rfl⟩ | ⟨output, -, -, written⟩⟩ := renderFile_eq_ok done
    · exact kept
    · obtain ⟨_, _, _, -, noDir, rfl⟩ := write_eq_ok written
      exact kept.trans (keeps_insert noDir)

theorem keepsDirs_renderTree (ctx : Template.Context) (templateDir dir relative : String)
    (fuel : Nat) : KeepsDirs (renderTree ctx templateDir dir relative fuel) := by
  intro before
  induction fuel generalizing dir relative with
  | zero => exact maintains_throw _
  | succ fuel ih =>
    rw [renderTree_succ]
    refine maintains_bind (Generation.reads_readDir dir).maintains fun names => ?_
    refine maintains_bind (maintains_mapM fun name _ => ?_) fun _ => maintains_pure _
    refine maintains_bind (Reads.ask _).maintains fun isDir => ?_
    split
    · exact ih _ _
    · refine maintains_bind (keepsDirs_renderFile ctx _ _ before) fun rendered => ?_
      exact maintains_ite (maintains_pure _) (maintains_pure _)

/-- An entry is rendered in its own place. -/
theorem byEntry_renderEntry (ctx : Template.Context) (templateDir dir relative : String)
    (fuel : Nat) (w : World) {names : List String} (nodup : names.Nodup)
    (isName : ∀ name ∈ names, IsName name) :
    ByEntry (renderEntry ctx templateDir dir relative fuel) (w.placeOf dir) w.here names := by
  refine ⟨nodup, fun name mem => ?_, fun name _ before => ?_⟩
  · rw [placeOf_eq, ← (isName name mem).placeFrom_join]
    exact confined_of_maintains fun before =>
      maintains_renderEntry (indifferent_elsewhere before) (covers_below w.here _)
  · refine maintains_bind (Reads.ask _).maintains fun isDir => ?_
    split
    · exact keepsDirs_renderTree _ _ _ _ _ before
    · refine maintains_bind (keepsDirs_renderFile ctx _ _ before) fun rendered => ?_
      exact maintains_ite (maintains_pure _) (maintains_pure _)

end Frame

/-! ## All that is in a directory -/

/-- A file whose text is rendered, at a place below another one. -/
def Marked (ctx : Template.Context) (w : World) (l rest : Location) : Prop :=
  ∃ content output, w.files.view l rest = some (some content) ∧
    rendering? ctx content = some (.ok output)

/-- A file whose text cannot be rendered. -/
def Unrenderable (ctx : Template.Context) (w : World) (l rest : Location) (e : Template.Error) :
    Prop :=
  ∃ content, w.files.view l rest = some (some content) ∧ rendering? ctx content = some (.error e)

/-- All files at and below a place have been rendered; the paths of those that are texts with
markers are listed, each once. -/
structure Rendered (ctx : Template.Context) (w w' : World) (l : Location) (relative : String)
    (paths : List String) : Prop where
  view : ∀ rest, w'.files.view l rest = (w.files.view l rest).map (Option.map (remade ctx))
  sound : ∀ rest e, ¬ Unrenderable ctx w l rest e
  listed : ∃ places : List Location, paths = places.map (pathBelow relative) ∧ places.Nodup ∧
    ∀ rest, rest ∈ places ↔ Marked ctx w l rest

theorem remade_of_none (none : rendering? ctx content = none) : remade ctx content = content := by
  rw [remade, none]

theorem remade_of_ok {output : String} (made : rendering? ctx content = some (.ok output)) :
    remade ctx content = Text.Utf8.bytes output := by
  rw [remade, made]

section File

variable {l : Location} {executable : Bool} (closed : w.files.Closed)
  (file : w.files.find? l = some (.file content executable))
include closed file

theorem view_of_file (rest : Location) :
    w.files.view l rest = if rest = [] then some (some content) else none := by
  by_cases last : rest = []
  · simp [Tree.view, last, file, Node.content?]
  · simp [Tree.view, last, closed.find?_below (l := l) (by simp [file]) last]

theorem marked_iff_of_file {rest : Location} :
    Marked ctx w l rest ↔ rest = [] ∧ ∃ output, rendering? ctx content = some (.ok output) := by
  simp [Marked, view_of_file closed file, and_assoc]

theorem unrenderable_iff_of_file {rest : Location} {e : Template.Error} :
    Unrenderable ctx w l rest e ↔ rest = [] ∧ rendering? ctx content = some (.error e) := by
  simp [Unrenderable, view_of_file closed file, and_assoc]

end File

/-- A single file that is rendered, or left alone. -/
theorem rendered_of_renderFile {rendered : Bool} (proper : w.files.Proper)
    (done : renderFile ctx path templatePath w = (.ok rendered, w')) :
    Rendered ctx w w' (w.placeOf path) relative (if rendered then [relative] else []) := by
  obtain ⟨content, read, made⟩ := renderFile_eq_ok done
  obtain ⟨executable, node⟩ := bytesAt_eq_ok read
  have file := find?_of_nodeAt node
  have before := view_of_file proper.closed file
  obtain ⟨none, rfl, rfl⟩ | ⟨output, made, rfl, written⟩ := made
  · refine ⟨fun rest => ?_, fun rest e => ?_, [], rfl, .nil, fun rest => ?_⟩
    · rw [before]
      split <;> simp [remade_of_none none]
    · simp [unrenderable_iff_of_file proper.closed file, none]
    · simp [marked_iff_of_file proper.closed file, none]
  · obtain ⟨l, name, x, leads, -, rfl⟩ := write_eq_ok written
    rw [leads.placeOf] at file before ⊢
    refine ⟨fun rest => ?_, fun rest e => ?_, [[]], rfl, by simp, fun rest => ?_⟩
    · rw [before]
      change ((w.files.insert _ _).find? _).map _ = _
      rw [find?_insert' (by simp)]
      by_cases last : rest = []
      · simp [last, Node.content?, remade_of_ok made]
      · have gone := proper.closed.find?_below (l := l ++ [name]) (by simp [file]) last
        simpa [last] using gone
    · simp [unrenderable_iff_of_file proper.closed file, made]
    · simp [marked_iff_of_file proper.closed file, made]

/-- The places of the entries, one entry after the other. -/
theorem listed_of_entries (relative : String) (found : Location → Prop) {names : List String}
    {lists : List (List String)} (nodup : names.Nodup)
    (entries : List.Forall₂ (fun name paths => ∃ places : List Location,
      paths = places.map (pathBelow (join relative name)) ∧ places.Nodup ∧
        ∀ rest, rest ∈ places ↔ found (name :: rest)) names lists) :
    ∃ places : List Location, lists.flatten = places.map (pathBelow relative) ∧ places.Nodup ∧
      ∀ place, place ∈ places ↔ ∃ name ∈ names, ∃ rest, place = name :: rest ∧ found place := by
  induction entries with
  | nil => exact ⟨[], rfl, .nil, by simp⟩
  | @cons name paths names lists first _ ih =>
    obtain ⟨fresh, nodup⟩ := List.nodup_cons.mp nodup
    obtain ⟨places, rfl, distinct, mem⟩ := first
    obtain ⟨others, whole, distinct', mem'⟩ := ih nodup
    refine ⟨places.map (name :: ·) ++ others, ?_, List.nodup_append'.mpr ⟨?_, distinct', ?_⟩, ?_⟩
    · rw [List.flatten_cons, whole, List.map_append, List.map_map]
      rfl
    · exact distinct.map fun _ _ same => (List.cons.inj same).2
    · intro place here there
      obtain ⟨rest, -, rfl⟩ := List.mem_map.mp here
      obtain ⟨other, mem, rest', same, -⟩ := (mem' _).mp there
      exact fresh ((List.cons.inj same).1 ▸ mem)
    · intro place
      rw [List.mem_append, mem', List.mem_map]
      constructor
      · rintro (⟨rest, here, rfl⟩ | ⟨other, mem, rest, rfl, holds⟩)
        · exact ⟨name, .head _, rest, rfl, (mem rest).mp here⟩
        · exact ⟨other, .tail _ mem, rest, rfl, holds⟩
      · rintro ⟨other, mem'', rest, rfl, holds⟩
        obtain rfl | mem'' := List.mem_cons.mp mem''
        · exact .inl ⟨rest, (mem rest).mpr holds, rfl⟩
        · exact .inr ⟨other, mem'', rest, rfl, holds⟩

/-- An entry that has been rendered. -/
theorem renderEntry_eq_ok {paths : List String} (isName : IsName name) (proper : u.files.Proper)
    (done : renderEntry ctx templateDir dir relative fuel name u = (.ok paths, u'))
    (below : ∀ {v v' : World} {dir relative : String} {paths : List String}, v.files.Proper →
      renderTree ctx templateDir dir relative fuel v = (.ok paths, v') →
      Rendered ctx v v' (v.placeOf dir) relative paths) :
    Rendered ctx u u' (u.placeOf dir ++ [name]) (join relative name) paths := by
  have place : u.placeOf (join dir name) = u.placeOf dir ++ [name] :=
    isName.placeFrom_join u.here dir
  rw [renderEntry_apply] at done
  split at done
  · exact place ▸ below proper done
  · obtain ⟨rendered, u₁, done, last⟩ := bind_eq_ok done
    cases last
    exact place ▸ rendered_of_renderFile proper done

/-- All files of a directory have been rendered. -/
theorem renderTree_eq_ok {paths : List String} (proper : w.files.Proper)
    (done : renderTree ctx templateDir dir relative fuel w = (.ok paths, w')) :
    Rendered ctx w w' (w.placeOf dir) relative paths := by
  induction fuel generalizing dir relative w w' paths with
  | zero => cases done
  | succ fuel ih =>
    rw [renderTree_succ] at done
    obtain ⟨names, v, listed, done⟩ := bind_eq_ok done
    obtain ⟨rfl, opens, rfl⟩ := Generation.readDir_eq_ok listed
    obtain ⟨lists, v', done, last⟩ := bind_eq_ok done
    cases last
    have isName : ∀ name ∈ v.files.children (v.placeOf dir), IsName name := fun _ =>
      proper.isName_of_mem_children
    have byEntry := byEntry_renderEntry ctx templateDir dir relative fuel v
      (Tree.nodup_children _ _) isName
    have turns := byEntry.turns_of_mapM proper done
    have entry {name : String} {paths : List String} {u u' : World}
        (turn : Turn (renderEntry ctx templateDir dir relative fuel) (v.placeOf dir)
          (v.files.children (v.placeOf dir)) v w' name (.ok paths) u u') :
        Rendered ctx u u' (v.placeOf dir ++ [name]) (join relative name) paths := by
      rw [← turn.keeps.placeOf]
      exact renderEntry_eq_ok (isName name turn.mem) turn.proper turn.done ih
    -- A turn begins with the entry as it was before all turns.
    have same {name : String} {paths : List String} {u u' : World}
        (turn : Turn (renderEntry ctx templateDir dir relative fuel) (v.placeOf dir)
          (v.files.children (v.placeOf dir)) v w' name (.ok paths) u u') (rest : Location) :
        u.files.view (v.placeOf dir ++ [name]) rest = v.files.view (v.placeOf dir) (name :: rest) := by
      rw [turn.before.view_entry]
      simp [Tree.view]
    have view : w'.files.view (v.placeOf dir) =
        fun rest => (v.files.view (v.placeOf dir) rest).map (Option.map (remade ctx)) := by
      refine byEntry.view_of_mapM proper done ?_ (fun name paths u u' turn rest => ?_) ?_
      · simp [Tree.view, opens.dir, Node.content?]
      · rw [(entry turn).view, same turn]
      · intro name notListed rest
        rw [Tree.view_of_not_mem_children proper.closed notListed]
        rfl
    refine ⟨congrFun view, fun rest e => ?_, ?_⟩
    · rintro ⟨content, found, made⟩
      obtain ⟨name, mem, rest, rfl⟩ := Tree.exists_child_of_view proper.closed opens.dir found
      obtain ⟨paths, -, u, u', turn⟩ := exists_of_forall₂ turns mem
      exact (entry turn).sound rest e ⟨content, (same turn rest).trans found, made⟩
    · obtain ⟨places, whole, nodup, mem⟩ := listed_of_entries relative
        (Marked ctx v (v.placeOf dir)) (Tree.nodup_children _ _) <| by
          refine turns.imp fun name paths turned => ?_
          obtain ⟨u, u', turn⟩ := turned
          obtain ⟨places, whole, nodup, mem⟩ := (entry turn).listed
          refine ⟨places, whole, nodup, fun rest => (mem rest).trans ?_⟩
          rw [Marked, Marked, same turn]
      refine ⟨places, whole, nodup, fun place => (mem place).trans ⟨?_, fun marked => ?_⟩⟩
      · rintro ⟨_, _, _, _, marked⟩
        exact marked
      · obtain ⟨content, _, found, -⟩ := id marked
        obtain ⟨name, listed, rest, rfl⟩ :=
          Tree.exists_child_of_view proper.closed opens.dir found
        exact ⟨name, listed, rest, rfl, marked⟩

/-- Rendering one entry fails with a fault only if the entry cannot be gone through. -/
theorem renderEntry_eq_error {e : Generation.Error} (isName : IsName name) (proper : u.files.Proper)
    (failed : renderEntry ctx templateDir dir relative fuel name u = (.error e, u'))
    (below : ∀ {v v' : World} {dir relative : String}, v.files.Proper →
      renderTree ctx templateDir dir relative fuel v = (.error e, v') →
      (IsFault e ∧ ¬ v.Walkable dir fuel) ∨
        ∃ rest error, Unrenderable ctx v (v.placeOf dir) rest error ∧
          e = .template (join templateDir (pathBelow relative rest)) error) :
    (IsFault e ∧ ¬ Walkable.Entry u dir name fuel) ∨
      ∃ rest error, Unrenderable ctx u (u.placeOf dir) (name :: rest) error ∧
        e = .template (join templateDir (pathBelow relative (name :: rest))) error := by
  have place : u.placeOf (join dir name) = u.placeOf dir ++ [name] :=
    isName.placeFrom_join u.here dir
  have entry {rest : Location} {error : Template.Error}
      (h : Unrenderable ctx u (u.placeOf (join dir name)) rest error) :
      Unrenderable ctx u (u.placeOf dir) (name :: rest) error := by
    simpa [Unrenderable, Tree.view, place] using h
  rw [renderEntry_apply] at failed
  split at failed
  · rename_i isDir
    have dir' := ((isDir_iff proper.closed).mp isDir).dir
    obtain ⟨fault, notWalkable⟩ | ⟨rest, error, unrenderable, rfl⟩ := below proper failed
    · exact .inl ⟨fault, fun passable => notWalkable (passable.below (place ▸ dir'))⟩
    · exact .inr ⟨rest, error, entry unrenderable, rfl⟩
  · rename_i notDir
    rw [bind_apply] at failed
    rcases done : renderFile ctx (join dir name) (join templateDir (join relative name)) u with
      ⟨e' | rendered, u₁⟩ <;> rw [done] at failed <;> cases failed
    obtain ⟨fault, read, rfl⟩ | ⟨content, fault, output, -, written, rfl⟩ |
      ⟨content, error, read, made, rfl⟩ := renderFile_eq_error done
    · refine .inl ⟨⟨_, _, rfl⟩, fun passable => ?_⟩
      obtain ⟨_, _, node, -⟩ := passable.usable isName notDir
      simp [World.bytesAt, node, bind, Except.bind] at read
    · refine .inl ⟨⟨_, _, rfl⟩, fun passable => ?_⟩
      obtain ⟨_, _, -, writes⟩ := passable.usable isName notDir
      obtain ⟨u', written'⟩ := writes output
      cases written.symm.trans written'
    · obtain ⟨executable, node⟩ := bytesAt_eq_ok read
      have file := find?_of_nodeAt node
      refine .inr ⟨[], error, entry ?_, rfl⟩
      exact (unrenderable_iff_of_file proper.closed file).mpr ⟨rfl, made⟩

/-- If rendering fails, a file cannot be rendered, or the directory cannot be gone through. -/
theorem renderTree_eq_error {e : Generation.Error} (proper : w.files.Proper)
    (failed : renderTree ctx templateDir dir relative fuel w = (.error e, w')) :
    (IsFault e ∧ ¬ w.Walkable dir fuel) ∨
      ∃ rest error, Unrenderable ctx w (w.placeOf dir) rest error ∧
        e = .template (join templateDir (pathBelow relative rest)) error := by
  induction fuel generalizing dir relative w w' with
  | zero =>
    cases failed
    exact .inl ⟨⟨_, _, rfl⟩, fun h => absurd h.pos (Nat.lt_irrefl 0)⟩
  | succ fuel ih =>
    rw [renderTree_succ, bind_apply] at failed
    rcases listed : onPath dir (Action.readDir dir) w with ⟨e' | names, v⟩ <;>
      rw [listed] at failed
    · cases failed
      refine .inl ⟨Generation.fails_onPath _ _ _ _ _ listed, fun h => ?_⟩
      cases listed.symm.trans (Generation.readDir_of_opens h.opens)
    obtain ⟨rfl, opens, rfl⟩ := Generation.readDir_eq_ok listed
    dsimp only at failed
    rw [bind_apply] at failed
    rcases done : (v.files.children (v.placeOf dir)).mapM
      (renderEntry ctx templateDir dir relative fuel) v with ⟨e' | lists, v'⟩ <;>
        rw [done] at failed <;> cases failed
    have isName : ∀ name ∈ v.files.children (v.placeOf dir), IsName name := fun _ =>
      proper.isName_of_mem_children
    have byEntry := byEntry_renderEntry ctx templateDir dir relative fuel v
      (Tree.nodup_children _ _) isName
    obtain ⟨name, u, turn⟩ := byEntry.turn_of_mapM_error proper done
    have same (rest : Location) : u.files.find? (v.placeOf dir ++ [name] ++ rest) =
        v.files.find? (v.placeOf dir ++ [name] ++ rest) :=
      turn.before _ fun other _ ne => not_isBelow_beside ne rest
    obtain ⟨fault, stuck⟩ | ⟨rest, error, ⟨content, found, made⟩, rfl⟩ :=
      renderEntry_eq_error (isName name turn.mem) turn.proper turn.done ih
    · have there := Tree.mem_children_iff.mp turn.mem
      refine .inl ⟨fault, fun walkable => stuck ?_⟩
      exact (walkable.entry (isName name turn.mem) there).congr (isName name turn.mem) turn.keeps same
    · refine .inr ⟨name :: rest, error, ⟨content, ?_, made⟩, rfl⟩
      rw [← found, turn.keeps.placeOf, Tree.view, Tree.view]
      simpa using congrArg (Option.map Node.content?) (same rest).symm

end BoardDesign.App

/-! ## Files without markers -/

namespace BoardDesign.App

open File File.Path World
open Generation (IsFault)

variable {ctx : Template.Context} {content : List UInt8}

/-- The bytes of a file that is rendered if it is a text, with or without markers. -/
def renderedText (ctx : Template.Context) (content : List UInt8) : List UInt8 :=
  match Text.Utf8.text? content with
  | none => content
  | some text =>
    match Template.render ctx text with
    | .ok output => Text.Utf8.bytes output
    | .error _ => content

theorem remade_eq_renderedText (ctx : Template.Context) : remade ctx = renderedText ctx := by
  funext content
  rw [remade, rendering?, renderedText]
  cases read : Text.Utf8.text? content with
  | none => rfl
  | some text =>
    dsimp only
    cases marked : Template.hasMarkers text with
    | true =>
      rw [if_pos rfl]
      cases Template.render ctx text <;> rfl
    | false =>
      rw [if_neg Bool.false_ne_true, Template.render_of_unmarked marked]
      exact (Text.Utf8.bytes_of_text? read).symm

/-- A text that cannot be rendered has markers. -/
theorem rendering?_eq_error_iff {e : Template.Error} : rendering? ctx content = some (.error e) ↔
    ∃ text, Text.Utf8.text? content = some text ∧ Template.render ctx text = .error e := by
  rw [rendering?]
  cases Text.Utf8.text? content with
  | none => simp
  | some text =>
    cases marked : Template.hasMarkers text with
    | true => simp [marked]
    | false => simp [marked, Template.render_of_unmarked marked]

/-- A text without markers is rendered as it is. So what becomes of a directory is what rendering
makes of every text in it, though texts without markers are not rendered. -/
theorem renderTree_of_every_text :
    (∀ (ctx : Template.Context) (text : String), Template.hasMarkers text = false →
      Template.render ctx text = .ok text) ∧
    ∀ (ctx : Template.Context) (templateDir dir relative : String) (fuel : Nat) (w w' : World)
      (r : Except Generation.Error (List String)), w.files.Proper →
      renderTree ctx templateDir dir relative fuel w = (r, w') →
        (∀ paths, r = .ok paths →
          (∀ rest, w'.files.view (w.placeOf dir) rest =
            (w.files.view (w.placeOf dir) rest).map (Option.map (renderedText ctx))) ∧
          ∀ rest content text e, w.files.view (w.placeOf dir) rest = some (some content) →
            Text.Utf8.text? content = some text → Template.render ctx text ≠ .error e) ∧
        ∀ fault, r = .error fault → IsFault fault ∨
          ∃ rest content text e, w.files.view (w.placeOf dir) rest = some (some content) ∧
            Text.Utf8.text? content = some text ∧ Template.render ctx text = .error e ∧
            fault = .template (join templateDir (pathBelow relative rest)) e := by
  refine ⟨fun ctx text => Template.render_of_unmarked,
    fun ctx templateDir dir relative fuel w w' r proper done => ⟨?_, ?_⟩⟩
  · rintro paths rfl
    obtain ⟨view, sound, -⟩ := renderTree_eq_ok proper done
    refine ⟨fun rest => ?_, fun rest content text e found read failed => ?_⟩
    · rw [view, remade_eq_renderedText]
    · exact sound rest e ⟨content, found, rendering?_eq_error_iff.mpr ⟨text, read, failed⟩⟩
  · rintro fault rfl
    obtain ⟨isFault, -⟩ | ⟨rest, e, ⟨content, found, failed⟩, whole⟩ :=
      renderTree_eq_error proper done
    · exact .inl isFault
    · obtain ⟨text, read, failed⟩ := rendering?_eq_error_iff.mp failed
      exact .inr ⟨rest, content, text, e, found, read, failed, whole⟩

/-- White space, single braces and line ends of all kinds, with no line end at last. -/
def unmarkedText : String := "\u00a0\x7b a \x7d\r\n\r\x7b\n /\u2003/! \x7d \x7b"

def unmarkedWorld : World :=
  ⟨⟨[(["app"], .dir), (["app", "a"], .file (Text.Utf8.bytes unmarkedText) false)]⟩, [], 0, [], 0, []⟩

theorem renderTree_of_every_text_unmarkedWorld :
    Template.render default unmarkedText = .ok unmarkedText ∧
      (renderTree default "app" "app" "" 2 unmarkedWorld).2.files.view ["app"] ["a"] =
        some (some (renderedText default (Text.Utf8.bytes unmarkedText))) := by
  refine ⟨renderTree_of_every_text.1 _ _ (by decide), ?_⟩
  have proper : unmarkedWorld.files.Proper := Tree.proper_of_isProper (by decide)
  have listed : (renderTree default "app" "app" "" 2 unmarkedWorld).1 = .ok [] := by decide +kernel
  have place : unmarkedWorld.placeOf "app" = ["app"] := by decide
  have found : unmarkedWorld.files.view ["app"] ["a"] =
      some (some (Text.Utf8.bytes unmarkedText)) := by decide
  rcases done : renderTree default "app" "app" "" 2 unmarkedWorld with ⟨r, w'⟩
  rw [done] at listed
  obtain ⟨view, -⟩ := (renderTree_of_every_text.2 default "app" "app" "" 2 unmarkedWorld w' r proper
    done).1 [] listed
  rw [place] at view
  rw [view, found, Option.map_some, Option.map_some]

end BoardDesign.App
