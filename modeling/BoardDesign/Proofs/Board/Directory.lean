import BoardDesign.Editor.Session
import BoardDesign.Proofs.Board.Content
import BoardDesign.Proofs.Board.Labels
import BoardDesign.Proofs.Board.Making

/-!
# Where the directories of a board lie

The name of a board is made of a text that somebody typed. White space and signs become
underscores; slashes and dots stay.

* `Label.isName_boardName_iff`: which texts give a name that a directory can have;
* `Child`: a path that stands for a name in a directory (`child_join_iff`);
* `Workspace.Encloses`: everything that is kept under the name of a board lies right within the
  directories of a workspace;
* `Confined`: nothing has changed but an output and what is put beside it for a while;
* `placed_iff`: everything of a board lies in its places just when its name is one that a directory
  can have, and then nothing else is changed when the board and its application are made;
* `view_of_blankBoard`: a board with a blank name is made in the place of all boards.
-/

namespace BoardDesign

open File File.Path World Action

variable {here : Location} {dir name : String}

/-! ## Names -/

namespace Graph.Label

theorem boardChar_eq_iff {c d : Char} (kept : d = '/' ∨ d = '.') : boardChar c = d ↔ c = d := by
  unfold boardChar
  split
  · rename_i other
    constructor
    · rintro rfl
      rcases kept with same | same <;> cases same
    · rintro rfl
      rcases kept with rfl | rfl <;> cases other
  · exact Iff.rfl

theorem map_boardChar_eq_iff {cs ds : List Char} (kept : ∀ d ∈ ds, d = '/' ∨ d = '.') :
    cs.map boardChar = ds ↔ cs = ds := by
  induction cs generalizing ds with
  | nil => exact Iff.rfl
  | cons c cs ih =>
    cases ds with
    | nil => simp
    | cons d ds =>
      rw [List.map_cons, List.cons.injEq, List.cons.injEq, boardChar_eq_iff (kept d (.head _)),
        ih fun e mem => kept e (.tail d mem)]

/-- A board can be named after a text just when a directory can have the text as its name. -/
theorem isName_boardName_iff (s : String) : IsName (boardName s) ↔ IsName (Text.trimmed s) := by
  have same (t : String) (kept : ∀ d ∈ t.toList, d = '/' ∨ d = '.') :
      boardName s = t ↔ Text.trimmed s = t := by
    rw [boardName, Text.trimmed, ← String.toList_inj, ← String.toList_inj, String.toList_ofList,
      String.toList_ofList, map_boardChar_eq_iff kept]
  have slash : '/' ∈ (boardName s).toList ↔ '/' ∈ (Text.trimmed s).toList := by
    simp [boardName, Text.trimmed, boardChar_eq_iff]
  have parts (t : String) : IsName t ↔ t ≠ "" ∧ '/' ∉ t.toList ∧ t ≠ "." ∧ t ≠ ".." :=
    ⟨fun h => ⟨h.filled, h.noSlash, h.noDots⟩, fun ⟨filled, noSlash, noDots⟩ =>
      ⟨filled, noSlash, noDots⟩⟩
  rw [parts, parts, ne_eq, ne_eq, ne_eq, same "" (by simp), same "." (by simp),
    same ".." (by simp), slash]

end Graph.Label

/-! ## Places -/

/-- The path stands for a name in a directory, for those who read it and for those who follow
it. -/
structure Child (dir path name : String) : Prop where
  named : fileName? path = some name
  place : ∀ here, placeFrom here path = placeFrom here dir ++ [name]

theorem child_join_iff : Child dir (join dir name) name ↔ IsName name := by
  constructor
  · intro child
    obtain ⟨_, _, isName, _⟩ := exists_parent child.named
    exact isName
  · intro isName
    obtain ⟨before, pieces⟩ := pieces_join dir isName.noSlash
    have named := fileName?_of_pieces pieces ⟨isName.toList_ne_nil,
      fun same => isName.noDots.1 (String.toList_inj.mp same),
      fun same => isName.noDots.2 (String.toList_inj.mp same)⟩
    rw [String.ofList_toList] at named
    exact ⟨named, fun here => isName.placeFrom_join here dir⟩

/-- With an ending every text is a name, unless it has a slash. -/
theorem isName_append_iff {ending : String} (long : 2 < ending.length)
    (noSlash : '/' ∉ ending.toList) : IsName (name ++ ending) ↔ '/' ∉ name.toList := by
  have other (t : String) (short : t.length ≤ 2) : name ++ ending ≠ t := by
    rintro rfl
    rw [String.length_append] at short
    omega
  refine ⟨fun isName mem => isName.noSlash ?_, fun free => ⟨other "" (by decide), ?_,
    other "." (by decide), other ".." (by decide)⟩⟩
  · rw [String.toList_append]
    exact List.mem_append_left _ mem
  · rw [String.toList_append]
    exact fun mem => (List.mem_append.mp mem).elim free noSlash

/-- What is kept under the name of a board lies right within the directories that the workspace has
for it. -/
structure Workspace.Encloses (ws : Workspace) (board : String) : Prop where
  made : Child ws.boardsDir (ws.boardDir board) board
  built : Child ws.buildRoot (ws.buildDir board) board
  kept : Child ws.buildsRoot (ws.buildsDir board) board
  application : Child ws.generatedDir (join ws.generatedDir board) board
  lock : Child ws.locksDir (Workspace.Lock.pathFor ws.locksDir board) (board ++ ".lock")

theorem Workspace.encloses_iff (ws : Workspace) (board : String) :
    ws.Encloses board ↔ IsName board := by
  refine ⟨fun encloses => child_join_iff.mp encloses.made, fun isName => ?_⟩
  have inside (dir : String) : Child dir (join dir board) board := child_join_iff.mpr isName
  exact ⟨inside _, inside _, inside _, inside _,
    child_join_iff.mpr ((isName_append_iff (by decide) (by decide)).mpr isName.noSlash)⟩

theorem Editor.Backend.child_savePath_iff (b : Editor.Backend) (dataflow : Json) :
    Child (join b.settings.workspace.root "save") (b.savePath dataflow)
        (Editor.Backend.saveName dataflow ++ ".json") ↔
      '/' ∉ (Editor.Backend.saveName dataflow).toList :=
  child_join_iff.trans (isName_append_iff (by decide) (by decide))

/-! ## Outputs -/

/-- The places at and below a name in a directory, and those of what is put beside it for a
while. -/
def AtOrBeside (dir : Location) (name : String) (m : Location) : Prop :=
  Tree.isBelow (dir ++ [name]) m = true ∨
    Tree.isBelow (dir ++ ["." ++ name ++ ".staging"]) m = true ∨
    Tree.isBelow (dir ++ ["." ++ name ++ ".old"]) m = true

section Output

variable {path : String} (child : Child dir path name)
include child

theorem Child.sibling {suffix : String} (filled : suffix ≠ "") (noSlash : '/' ∉ suffix.toList) :
    placeFrom here (sibling path suffix) =
      placeFrom here dir ++ ["." ++ name ++ "." ++ suffix] := by
  have beside := placeFrom_of_fileName? child.named here
  rw [child.place here] at beside
  rw [placeFrom_sibling path filled noSlash, (List.append_inj' beside rfl).1, siblingName,
    child.named, Option.getD_some]

theorem Child.covers : Covers (AtOrBeside (placeFrom here dir) name) here path := by
  refine covers_isBelow fun m below => .inl ?_
  rwa [child.place here] at below

theorem Child.room : Generation.Room here (AtOrBeside (placeFrom here dir) name)
    (Through here path) path where
  staging := covers_isBelow fun m below => .inr (.inl (by
    rwa [child.sibling (by decide) (by decide), String.append_assoc] at below))
  old := covers_isBelow fun m below => .inr (.inr (by
    rwa [child.sibling (by decide) (by decide), String.append_assoc] at below))
  parents := fun _ above _ through => through.of_parent above

end Output

/-- Nothing has changed but what lies at the name in the directory or beside it, and directories
have been made on the way there. -/
def Confined (dir path name : String) (before w : World) : Prop :=
  Elsewhere before.here (AtOrBeside (before.placeOf dir) name) (Through before.here path) before w

section Confined

variable {w : World} (proper : w.files.Proper) (isName : IsName name) (g : Graph.ValidDesign)
  (ws : Workspace)
include proper isName

theorem Board.confined_generateBoard (resourcesDir zephyrBase : String) :
    Confined ws.boardsDir (ws.boardDir name) name w
      (generateBoard g (ws.target name resourcesDir zephyrBase) w).2 := by
  let t := ws.target name resourcesDir zephyrBase
  have child : Child ws.boardsDir t.boardDir name := child_join_iff.mpr isName
  have ind : Indifferent (Confined ws.boardsDir t.boardDir name w) w.here
      (AtOrBeside (w.placeOf ws.boardsDir) name) (Through w.here t.boardDir) :=
    indifferent_elsewhere w
  have fills : Maintains (Confined ws.boardsDir t.boardDir name w)
      (writeBoardFiles g t (sibling t.boardDir "staging")) := by
    refine maintains_writeBoardFiles ind child.room.staging fun file mem => ?_
    refine (child.room.staging.join ?_).self
    have noSlash : '/' ∉ name.toList := isName.noSlash
    simp only [List.mem_cons, List.not_mem_nil, or_false, t, Workspace.target] at mem
    rcases mem with rfl | rfl | rfl
    · exact .of_mem (c := 'K') (by simp) (by decide) (by simp [noSlash])
    · exact .of_mem (c := 'd') (by simp) (by decide) (by simp [noSlash])
    · exact .of_mem (c := 'd') (by simp) (by decide) (by simp [noSlash])
  have made := maintains_generateBoard ind child.room fills fun _ _ _ _ _ => child.covers
  exact made w (elsewhere_self proper)

theorem App.confined_generate (templateDir : String) (force : Bool) :
    Confined ws.generatedDir (join ws.generatedDir name) name w
      (generate g ⟨templateDir, join ws.generatedDir name, force⟩ w).2 := by
  let source : Source := ⟨templateDir, join ws.generatedDir name, force⟩
  have child : Child ws.generatedDir source.outputDir name := child_join_iff.mpr isName
  have ind : Indifferent (Confined ws.generatedDir source.outputDir name w) w.here
      (AtOrBeside (w.placeOf ws.generatedDir) name) (Through w.here source.outputDir) :=
    indifferent_elsewhere w
  have made := maintains_generate ind g child.room child.covers
  exact made w (elsewhere_self proper)

end Confined

/-! ## Boards of designs -/

namespace Graph

variable {d : Design} {c : EffectiveCatalog} {g : ValidDesign}

theorem design_of_validate (valid : validate d c = .ok g) : g.design = d := by
  rw [validate] at valid
  split at valid
  · cases valid
    rfl
  · cases valid

/-- A design is valid under every name if it is under one. -/
theorem validate_named (valid : validate d c = .ok g) (name : Option String) :
    validate { d with name := name } c = .ok { g with design := { d with name := name } } := by
  have same : issues { d with name := name } c = issues d c := rfl
  rw [validate] at valid ⊢
  rw [same]
  split at valid
  · cases valid
    rfl
  · cases valid

/-- The text that the board of a design is named after. -/
def givenName (d : Design) (g : ValidDesign) : String :=
  (d.name <|> g.boardRoot?.map (·.typeName)).getD Label.untitled

/-- A board can be named after a text, and its places lie right within the directories of the
workspace, just when the text can itself be the name of a directory. Any text can be the name of a
valid design. When the text can, nothing else is changed where the board and its application are
made; a document is saved in its directory unless there is a slash in the name. -/
theorem placed_iff (valid : validate d c = .ok g) :
    (IsName g.boardName ↔ IsName (Text.trimmed (givenName d g))) ∧
      (∀ ws : Workspace, ws.Encloses g.boardName ↔ IsName (Text.trimmed (givenName d g))) ∧
      (∀ name, ∃ g', validate { d with name := some name } c = .ok g' ∧
        (IsName g'.boardName ↔ IsName (Text.trimmed name))) ∧
      (IsName (Text.trimmed (givenName d g)) → ∀ (ws : Workspace) (w : World), w.files.Proper →
        (∀ resourcesDir zephyrBase, Confined ws.boardsDir (ws.boardDir g.boardName) g.boardName w
          (Board.generateBoard g (ws.target g.boardName resourcesDir zephyrBase) w).2) ∧
        ∀ templateDir force, Confined ws.generatedDir (join ws.generatedDir g.boardName)
          g.boardName w
          (App.generate g ⟨templateDir, join ws.generatedDir g.boardName, force⟩ w).2) ∧
      ∀ (b : Editor.Backend) (dataflow : Json),
        Child (join b.settings.workspace.root "save") (b.savePath dataflow)
            (Editor.Backend.saveName dataflow ++ ".json") ↔
          '/' ∉ (Editor.Backend.saveName dataflow).toList := by
  have named : IsName g.boardName ↔ IsName (Text.trimmed (givenName d g)) := by
    rw [ValidDesign.boardName, design_of_validate valid]
    exact Label.isName_boardName_iff _
  refine ⟨named, fun ws => (ws.encloses_iff _).trans named, fun name => ?_,
    fun isName ws w proper => ?_,
    fun b dataflow => b.child_savePath_iff dataflow⟩
  · exact ⟨_, validate_named valid (some name), Label.isName_boardName_iff name⟩
  · have isName' := named.mpr isName
    exact ⟨Board.confined_generateBoard proper isName' g ws,
      App.confined_generate proper isName' g ws⟩

/-- The design that is used here under several names. -/
def called (name : String) : Design := { Board.bareDesign with name := some name }

def calledBoard (name : String) : ValidDesign := { Board.bareBoard with design := called name }

theorem validate_called (name : String) :
    validate (called name) Board.bareTypes = .ok (calledBoard name) :=
  validate_named (by decide) (some name)

theorem placed_iff_myBoard :
    (calledBoard "my board").boardName = "my_board" ∧
      (∀ ws : Workspace, ws.Encloses (calledBoard "my board").boardName) ∧
      ∀ (ws : Workspace) (w : World), w.files.Proper → ∀ resourcesDir zephyrBase,
        Confined ws.boardsDir (ws.boardDir (calledBoard "my board").boardName)
          (calledBoard "my board").boardName w
          (Board.generateBoard (calledBoard "my board")
            (ws.target (calledBoard "my board").boardName resourcesDir zephyrBase) w).2 := by
  have isName : IsName (Text.trimmed (givenName (called "my board") (calledBoard "my board"))) :=
    ⟨by decide, by decide, by decide, by decide⟩
  obtain ⟨-, encloses, -, confined, -⟩ := placed_iff (validate_called "my board")
  exact ⟨by decide, fun ws => (encloses ws).mpr isName,
    fun ws w proper => (confined isName ws w proper).1⟩

/-- A valid design whose board has a name with a slash. -/
theorem slashed_boardName :
    validate (called "a/b") Board.bareTypes = .ok (calledBoard "a/b") ∧
      ¬ IsName (calledBoard "a/b").boardName ∧
      ∀ ws : Workspace, ¬ Child ws.boardsDir (ws.boardDir (calledBoard "a/b").boardName)
        (calledBoard "a/b").boardName := by
  have slash : ¬ IsName (calledBoard "a/b").boardName := fun isName =>
    isName.noSlash (by decide)
  exact ⟨validate_called "a/b", slash, fun ws child => slash (child_join_iff.mp child)⟩

end Graph

/-! ## Boards with a blank name -/

/-- A board whose name is blank is made in the place of all boards. -/
theorem Board.view_of_blankBoard {g : Graph.ValidDesign} {ws : Workspace} {w w' : World}
    {resourcesDir zephyrBase dir : String} (proper : w.files.Proper)
    (apart : ∀ soc config, socName g = .ok soc →
      (ws.target "" resourcesDir zephyrBase).config? w soc = some config →
        (ws.target "" resourcesDir zephyrBase).Apart w soc config)
    (done : generateBoard g (ws.target "" resourcesDir zephyrBase) w = (.ok dir, w')) :
    ∃ files, w'.files.view (w.placeOf ws.boardsDir) = viewOfFiles files := by
  obtain ⟨-, -, -, soc, s, -, -, view⟩ := view_of_generateBoard proper apart done
  have place : w.placeOf (join ws.boardsDir "") = w.placeOf ws.boardsDir := placeFrom_join rfl
  exact ⟨_, place ▸ view⟩

end BoardDesign
