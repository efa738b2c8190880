import BoardDesign.Proofs.Run.History
import BoardDesign.Proofs.Stage.Inputs

/-!
# What the digest of a stage stands for

The bytes that a stage digests tell the stage and all that it declares, and nothing else changes
them: neither the order in which directories are listed nor permissions.

* `Job`: a stage that can be skipped, with what it is run for;
* `Job.Declares`: the inputs that it declares, as they lie in a world;
* `fields_of_task`: the fields that are digested are those of the declared inputs;
* `digested_iff_declared`: the same bytes are digested just where the same is declared.
-/

namespace BoardDesign

open File File.Path World Action
open Stage (Error Field Inputs dirFields)

variable {s s' : Setup} {r r' : Run} {w w' : World}

/-- A stage that can be skipped, with what it is run for besides its board. -/
inductive Job where
  | prepareBoard (g : Graph.ValidDesign)
  | build (app : String) (template : Option String)
  | prepareSimulatorFiles (templatesDir : Option String)

/-- What a reader finds below each location in a directory, if there is one. -/
abbrev DirectoryTree := Option (Location → Option (Option (List UInt8)))

/-- The inputs that a stage declares. -/
inductive Declared where
  | prepareBoard (graph catalog board : String) (resources : DirectoryTree)
  | build (boardDir app : DirectoryTree) (board template : String)
  | prepareSimulatorFiles (devicetree program : List UInt8) (script board : String)

namespace Job

def task (s : Setup) (r : Run) : Job → Action Error Run.Task
  | .prepareBoard g => Run.boardTask s g r
  | .build app template => Run.buildTask s app template r
  | .prepareSimulatorFiles templatesDir => Run.simulatorTask s templatesDir r

/-- What the stage declares for a board in a world. -/
inductive Declares (s : Setup) (board : String) (w : World) : Job → Declared → Prop where
  | prepareBoard {g : Graph.ValidDesign} {soc : String} (named : Board.socName g = .ok soc) :
    Declares s board w (.prepareBoard g)
      (.prepareBoard g.design.toJson.compact g.catalog.toJson.compact board
        (w.treeAt ((s.workspace.target board s.resourcesDir s.zephyrBase).socDir soc)))
  | build {app dir : String} (found : w.canonical app = .ok dir) (template : Option String) :
    Declares s board w (.build app template)
      (.build (w.treeAt (s.workspace.boardDir board)) (w.treeAt dir) board (template.getD ""))
  | prepareSimulatorFiles {devicetree program : List UInt8} {script : String}
    {templatesDir : Option String}
    (dts : w.bytesAt (Board.BuildFiles.inDir (s.workspace.buildsDir board)).devicetree =
      .ok devicetree)
    (elf : w.bytesAt (Board.BuildFiles.inDir (s.workspace.buildsDir board)).program = .ok program)
    (template : Board.scriptTemplate templatesDir w = (.ok script, w)) :
    Declares s board w (.prepareSimulatorFiles templatesDir)
      (.prepareSimulatorFiles devicetree program script board)

end Job

namespace Run

variable {t : Task} {board : String} {g : Graph.ValidDesign} {app : String} {template : Option String}
  {templatesDir : Option String}

theorem boardTask_eq_ok (h : boardTask s g r w = (.ok t, w')) :
    w' = w ∧ ∃ soc, Board.socName g = .ok soc ∧ t.inputs.fields =
      [Field.ofText "stage" (Stage.id .prepareBoard),
        Field.ofText "graph" g.design.toJson.compact,
        Field.ofText "catalog" g.catalog.toJson.compact, Field.ofText "board" r.board] ++
      dirFields w "soc_resources"
        ((s.workspace.target r.board s.resourcesDir s.zephyrBase).socDir soc) := by
  obtain ⟨soc, w₁, named, h⟩ := bind_eq_ok h
  obtain ⟨i, w₂, read, h⟩ := bind_eq_ok h
  cases known : Board.socName g with
  | error e =>
    rw [known] at named
    cases named
  | ok soc' =>
    rw [known] at named
    cases named
    cases read
    cases h
    exact ⟨rfl, soc, rfl, by simp [Inputs.text, Inputs.add, Inputs.ofStage]⟩

theorem buildTask_eq_ok (h : buildTask s app template r w = (.ok t, w')) :
    w' = w ∧ ∃ dir, w.canonical app = .ok dir ∧ t.inputs.fields =
      Field.ofText "stage" (Stage.id .build) ::
        (dirFields w "board_dir" (s.workspace.boardDir r.board) ++
          (dirFields w "app" dir ++
            [Field.ofText "board" r.board, Field.ofText "template" (template.getD "")])) := by
  obtain ⟨_, w₁, required, located⟩ := bind_eq_ok h
  obtain rfl : w₁ = w := (Reads.forM fun path _ => reads_requireDir _ path).same required
  obtain ⟨dir, w₂, found, collected⟩ := bind_eq_ok located
  obtain rfl : w₂ = w₁ := ((Reads.reading _).mapError _).same found
  obtain ⟨i, w₃, read, made⟩ := bind_eq_ok collected
  cases read
  cases made
  exact ⟨rfl, dir, reading_of_mapError found, by simp [Inputs.text, Inputs.add, Inputs.ofStage]⟩

theorem simulatorTask_eq_ok (h : simulatorTask s templatesDir r w = (.ok t, w')) :
    w' = w ∧ ∃ devicetree program script,
      w.bytesAt (Board.BuildFiles.inDir (s.workspace.buildsDir r.board)).devicetree =
        .ok devicetree ∧
      w.bytesAt (Board.BuildFiles.inDir (s.workspace.buildsDir r.board)).program = .ok program ∧
      Board.scriptTemplate templatesDir w = (.ok script, w) ∧
      t.inputs.fields = [Field.ofText "stage" (Stage.id .prepareSimulatorFiles),
        ⟨"dts", devicetree⟩, ⟨"elf", program⟩, Field.ofText "resc_template" script,
        Field.ofText "board" r.board] := by
  obtain ⟨_, w₁, required, prepared⟩ := bind_eq_ok h
  obtain rfl : w₁ = w := (Reads.forM fun path _ => reads_requireFile _ path).same required
  obtain ⟨script, w₂, template, collected⟩ := bind_eq_ok prepared
  obtain rfl : w₂ = w₁ := ((Board.reads_scriptTemplate _).mapError _).same template
  obtain ⟨i, w₃, read, made⟩ := bind_eq_ok collected
  obtain ⟨i₁, w₄, first, others⟩ := bind_eq_ok read
  obtain ⟨devicetree, w₅, devicetreeRead, added⟩ := bind_eq_ok first
  obtain rfl : w₅ = w₂ := ((Reads.reading _).mapError _).same devicetreeRead
  cases added
  obtain ⟨i₂, w₆, second, whole⟩ := bind_eq_ok others
  obtain ⟨program, w₇, programRead, added⟩ := bind_eq_ok second
  obtain rfl : w₇ = w₄ := ((Reads.reading _).mapError _).same programRead
  cases added
  cases whole
  cases made
  have devicetreeBytes := reading_of_mapError devicetreeRead
  have programBytes := reading_of_mapError programRead
  have scriptText := mapError_eq_ok template
  exact ⟨rfl, devicetree, program, script, devicetreeBytes, programBytes, scriptText,
    by simp [Inputs.text, Inputs.add, Inputs.ofStage]⟩

end Run

/-! ## What is declared and what is digested -/

def Declared.stage : Declared → Stage
  | .prepareBoard .. => .prepareBoard
  | .build .. => .build
  | .prepareSimulatorFiles .. => .prepareSimulatorFiles

namespace Job

variable {j j' : Job} {board : String} {d d' : Declared} {t t' : Run.Task}

def stage : Job → Stage
  | .prepareBoard _ => .prepareBoard
  | .build _ _ => .build
  | .prepareSimulatorFiles _ => .prepareSimulatorFiles

theorem Declares.stage (h : j.Declares s board w d) : d.stage = j.stage := by
  cases h <;> rfl

/-- A stage declares one thing only. -/
theorem Declares.unique (h : j.Declares s board w d) (h' : j.Declares s board w d') : d = d' := by
  cases h with
  | prepareBoard named =>
    cases h' with
    | prepareBoard named' =>
      cases named.symm.trans named'
      rfl
  | build found template =>
    cases h' with
    | build found' =>
      cases found.symm.trans found'
      rfl
  | prepareSimulatorFiles dts elf template =>
    cases h' with
    | prepareSimulatorFiles dts' elf' template' =>
      cases dts.symm.trans dts'
      cases elf.symm.trans elf'
      cases template.symm.trans template'
      rfl

theorem exists_declared_iff (h : j.Declares s board w d) {board' : String}
    (h' : j'.Declares s' board' w' d') :
    (∃ x, j.Declares s board w x ∧ j'.Declares s' board' w' x) ↔ d = d' := by
  constructor
  · rintro ⟨x, declared, declared'⟩
    exact (h.unique declared).trans (declared'.unique h')
  · rintro rfl
    exact ⟨d, h, h'⟩

theorem reads_task (j : Job) (s : Setup) (r : Run) : Reads (j.task s r) := by
  cases j with
  | prepareBoard g => exact Run.reads_boardTask g r
  | build app template => exact Run.reads_buildTask app template r
  | prepareSimulatorFiles templatesDir => exact Run.reads_simulatorTask templatesDir r

/-- The first field tells the stage. -/
theorem fields_of_task (made : j.task s r w = (.ok t, w')) :
    ∃ rest, t.inputs.fields = Field.ofText "stage" (Stage.id j.stage) :: rest := by
  cases j with
  | prepareBoard g =>
    obtain ⟨-, soc, -, fields⟩ := Run.boardTask_eq_ok made
    exact ⟨_, fields⟩
  | build app template =>
    obtain ⟨-, dir, -, fields⟩ := Run.buildTask_eq_ok made
    exact ⟨_, fields⟩
  | prepareSimulatorFiles templatesDir =>
    obtain ⟨-, devicetree, program, script, -, -, -, fields⟩ := Run.simulatorTask_eq_ok made
    exact ⟨_, fields⟩

theorem stage_eq_of_fields (made : j.task s r w = (.ok t, w)) (made' : j'.task s' r' w' = (.ok t', w'))
    (same : t.inputs.fields = t'.inputs.fields) : j.stage = j'.stage := by
  obtain ⟨rest, fields⟩ := fields_of_task made
  obtain ⟨rest', fields'⟩ := fields_of_task made'
  rw [fields, fields', List.cons.injEq, Field.ofText_inj] at same
  have read := congrArg Stage.ofId? same.1
  rwa [Stage.ofId?_id, Stage.ofId?_id, Option.some.injEq] at read

section

variable (proper : w.files.Proper) (proper' : w'.files.Proper) (distinct : w.files.Distinct)
  (distinct' : w'.files.Distinct)
include proper proper' distinct distinct'

/-- Two tasks have the same fields just where the same is declared. -/
theorem fields_eq_iff_declared (made : j.task s r w = (.ok t, w))
    (made' : j'.task s' r' w' = (.ok t', w')) :
    t.inputs.fields = t'.inputs.fields ↔
      ∃ d, j.Declares s r.board w d ∧ j'.Declares s' r'.board w' d := by
  by_cases stages : j.stage = j'.stage
  swap
  · refine iff_of_false (fun same => stages (stage_eq_of_fields made made' same)) ?_
    rintro ⟨d, declared, declared'⟩
    exact stages (declared.stage.symm.trans declared'.stage)
  cases j with
  | prepareBoard g =>
    cases j' <;> cases stages
    rename_i g'
    obtain ⟨-, soc, named, fields⟩ := Run.boardTask_eq_ok made
    obtain ⟨-, soc', named', fields'⟩ := Run.boardTask_eq_ok made'
    rw [exists_declared_iff (.prepareBoard named) (.prepareBoard named'), fields, fields']
    simp [Stage.dirFields_eq_iff proper proper' distinct distinct']
  | build app template =>
    cases j' <;> cases stages
    rename_i app' template'
    obtain ⟨-, dir, found, fields⟩ := Run.buildTask_eq_ok made
    obtain ⟨-, dir', found', fields'⟩ := Run.buildTask_eq_ok made'
    have apps (w : World) (dir : String) (more : List Field) :
        ∀ f ∈ (dirFields w "app" dir ++ more).head?, f.isBelow "board_dir" = false :=
      Stage.not_isBelow_head_dirFields more (by decide)
    have names (board : String) (more : List Field) :
        ∀ f ∈ (Field.ofText "board" board :: more).head?, f.isBelow "app" = false := by
      rintro f ⟨⟩
      rw [Stage.isBelow_ofText]
      decide
    rw [exists_declared_iff (.build found template) (.build found' template'), fields, fields',
      List.cons_eq_cons, and_iff_right rfl, Declared.build.injEq,
      ← Stage.dirFields_eq_iff proper proper' distinct distinct',
      ← Stage.dirFields_eq_iff proper proper' distinct distinct']
    constructor
    · intro same
      obtain ⟨boardDirs, same⟩ := Stage.dirFields_append_inj (apps _ _ _) (apps _ _ _) same
      obtain ⟨appDirs, same⟩ := Stage.dirFields_append_inj (names _ _) (names _ _) same
      exact ⟨boardDirs, appDirs, by simpa using same⟩
    · rintro ⟨boardDirs, appDirs, boards, templates⟩
      rw [boardDirs, appDirs, boards, templates]
  | prepareSimulatorFiles templatesDir =>
    cases j' <;> cases stages
    rename_i templatesDir'
    obtain ⟨-, devicetree, program, script, dts, elf, template, fields⟩ :=
      Run.simulatorTask_eq_ok made
    obtain ⟨-, devicetree', program', script', dts', elf', template', fields'⟩ :=
      Run.simulatorTask_eq_ok made'
    rw [exists_declared_iff (.prepareSimulatorFiles dts elf template)
      (.prepareSimulatorFiles dts' elf' template'), fields, fields']
    simp

end

end Job

/-! ## The order of the files -/

namespace Action

variable {ε δ α β : Type} {a : Action ε α}

/-- The action changes nothing and has the same result in both worlds. -/
structure Agrees (w w' : World) (a : Action ε α) : Prop where
  reads : Reads a
  result : (a w').1 = (a w).1

theorem agrees_pure (x : α) : Agrees w w' (pure x : Action ε α) := ⟨.pure x, rfl⟩

theorem agrees_throw (e : ε) : Agrees w w' (throw e : Action ε α) := ⟨.throw e, rfl⟩

theorem agrees_ofExcept (x : Except ε α) : Agrees w w' (ofExcept x) := ⟨.ofExcept x, rfl⟩

theorem agrees_ask {f : World → α} (same : f w' = f w) : Agrees w w' (ask f : Action ε α) :=
  ⟨.ask f, congrArg Except.ok same⟩

theorem agrees_reading {f : World → Except ε α} (same : f w' = f w) : Agrees w w' (reading f) :=
  ⟨.reading f, same⟩

theorem Agrees.mapError (h : Agrees w w' a) (f : ε → δ) : Agrees w w' (a.mapError f) := by
  have result (v : World) : (Action.mapError f a v).1 = (a v).1.mapError f := by
    unfold Action.mapError
    rcases a v with ⟨_ | _, _⟩ <;> rfl
  exact ⟨h.reads.mapError f, by rw [result, result, h.result]⟩

theorem Agrees.bind {f : α → Action ε β} (h : Agrees w w' a) (h' : ∀ x, Agrees w w' (f x)) :
    Agrees w w' (a >>= f) := by
  refine ⟨h.reads.bind fun x => (h' x).reads, ?_⟩
  have result := h.result
  rw [bind_apply, bind_apply]
  rcases done : a w with ⟨_ | x, v⟩ <;> rcases done' : a w' with ⟨_ | x', v'⟩ <;>
    rw [done, done'] at result <;> cases result
  · rfl
  · rw [h.reads.same done, h.reads.same done']
    exact (h' x).result

theorem agrees_forM {xs : List β} {f : β → Action ε PUnit} (h : ∀ x, Agrees w w' (f x)) :
    Agrees w w' (xs.forM f) := by
  induction xs with
  | nil => exact agrees_pure _
  | cons x rest ih => exact (h x).bind fun _ => ih

end Action

section Reordered

variable (same : w.Reordered w') (distinct : w.files.Distinct)
include same distinct

theorem World.Reordered.dirFields (name path : String) :
    dirFields w' name path = dirFields w name path := by
  unfold Stage.dirFields
  rw [same.locate distinct]
  cases w.locate path with
  | error e => rfl
  | ok l => simp only [same.isDirAt distinct, same.contents distinct]

theorem Board.agrees_scriptTemplate (templatesDir : Option String) :
    Agrees w w' (Board.scriptTemplate templatesDir) := by
  cases templatesDir with
  | none => exact agrees_pure _
  | some dir =>
    exact (agrees_reading (by rw [World.textAt, World.textAt, same.bytesAt distinct])).mapError _

theorem Run.agrees_requireDir (stage : Stage) (path : String) :
    Agrees w w' (Run.requireDir stage path) := by
  refine (agrees_ask (by rw [World.isDir, World.isDir, same.nodeAt distinct])).bind fun there => ?_
  split
  · exact agrees_throw _
  · exact agrees_pure _

theorem Run.agrees_requireFile (stage : Stage) (path : String) :
    Agrees w w' (Run.requireFile stage path) := by
  refine (agrees_ask (by rw [World.isFile, World.isFile, same.nodeAt distinct])).bind fun there => ?_
  split
  · exact agrees_throw _
  · exact agrees_pure _

theorem Stage.Inputs.agrees_dir (i : Inputs) (name path : String) :
    Agrees w w' (i.dir name path) :=
  agrees_ask (by rw [same.dirFields distinct])

theorem Stage.Inputs.agrees_file (i : Inputs) (name path : String) :
    Agrees w w' (i.file name path) :=
  ((agrees_reading (same.bytesAt distinct path)).mapError _).bind fun _ => agrees_pure _

/-- A task is the same whatever the order in which the files are kept. -/
theorem Job.agrees_task (j : Job) (s : Setup) (r : Run) : Agrees w w' (j.task s r) := by
  cases j with
  | prepareBoard g =>
    exact (agrees_ofExcept _).bind fun soc =>
      (Stage.Inputs.agrees_dir same distinct _ _ _).bind fun _ => agrees_pure _
  | build app template =>
    refine (agrees_forM fun path => Run.agrees_requireDir same distinct _ path).bind fun _ => ?_
    refine Agrees.bind ?_ fun dir => ?_
    · exact (agrees_reading (by rw [World.canonical, World.canonical, same.locate distinct])).mapError _
    · exact ((Stage.Inputs.agrees_dir same distinct _ _ _).bind fun _ =>
        (Stage.Inputs.agrees_dir same distinct _ _ _).bind fun _ => agrees_pure _).bind fun _ =>
          agrees_pure _
  | prepareSimulatorFiles templatesDir =>
    refine (agrees_forM fun path => Run.agrees_requireFile same distinct _ path).bind fun _ => ?_
    refine ((Board.agrees_scriptTemplate same distinct templatesDir).mapError _).bind fun script => ?_
    exact ((Stage.Inputs.agrees_file same distinct _ _ _).bind fun _ =>
      (Stage.Inputs.agrees_file same distinct _ _ _).bind fun _ => agrees_pure _).bind fun _ =>
        agrees_pure _

end Reordered

/-! ## The whole -/

/-- The bytes that two tasks digest are the same just where both stages declare the same. So the
bytes of one stage are never those of another one, and nothing tells in which order directories are
listed. -/
theorem digested_iff_declared {j j' : Job} {t t' : Run.Task} (proper : w.files.Proper)
    (proper' : w'.files.Proper) (distinct : w.files.Distinct) (distinct' : w'.files.Distinct)
    (made : (j.task s r w).1 = .ok t) (made' : (j'.task s' r' w').1 = .ok t') (fits : t.inputs.Fits)
    (fits' : t'.inputs.Fits) :
    (t.inputs.bytes = t'.inputs.bytes ↔
      ∃ d, j.Declares s r.board w d ∧ j'.Declares s' r'.board w' d) ∧
    (j.stage ≠ j'.stage → t.inputs.bytes ≠ t'.inputs.bytes) ∧
    ∀ v, w.Reordered v → ∃ u, (j.task s r v).1 = .ok u ∧ u.inputs.bytes = t.inputs.bytes := by
  have done := (j.reads_task s r).done made
  have done' := (j'.reads_task s' r').done made'
  have fields : t.inputs.bytes = t'.inputs.bytes ↔ t.inputs.fields = t'.inputs.fields :=
    ⟨fun same => congrArg _ (Inputs.bytes_inj fits fits' same),
      fun same => congrArg (List.flatMap Field.bytes) same⟩
  refine ⟨?_, fun apart same => ?_, fun v reordered => ⟨t, ?_, rfl⟩⟩
  · rw [fields, Job.fields_eq_iff_declared proper proper' distinct distinct' done done']
  · exact apart (Job.stage_eq_of_fields done done' (fields.mp same))
  · rw [(j.agrees_task reordered distinct s r).result, made]

/-- An application of one file with one byte, and a board without files. -/
def oneByte (b : UInt8) : World := worldOf [(["a"], .dir), (["a", "m"], .file [b] false),
  (["boards"], .dir), (["boards", "x"], .dir)]

def runOfX : Run := ⟨"x", ⟨"/.locks/x.lock", "x", ⟨1, "build", ""⟩⟩, .ofDir "/builds/x/.stages", [], 0⟩

theorem dirFields_oneByte (b : UInt8) :
    dirFields (oneByte b) "board_dir" "/boards/x" = [Field.ofText "board_dir" "<dir>"] ∧
      dirFields (oneByte b) "app" "/a" = [Field.ofText "app" "<dir>", ⟨"app/m", [b]⟩] := by
  have board : (oneByte b).locate "/boards/x" = .ok ["boards", "x"] := rfl
  have app : (oneByte b).locate "/a" = .ok ["a"] := rfl
  have isDir : (oneByte b).isDirAt ["boards", "x"] = true ∧ (oneByte b).isDirAt ["a"] = true :=
    ⟨rfl, rfl⟩
  have contents : (oneByte b).files.contents ["boards", "x"] = [] ∧
      (oneByte b).files.contents ["a"] = [(["m"], .file [b] false)] :=
    ⟨List.mergeSort_nil, List.mergeSort_singleton _⟩
  unfold Stage.dirFields
  simp only [board, app, isDir, contents, if_true]
  exact ⟨rfl, rfl⟩

theorem fits_oneByte {t : Run.Task} {b : UInt8}
    (made : ((Job.build "/a" none).task (forgetfulSetup "x") runOfX (oneByte b)).1 = .ok t) :
    t.inputs.Fits := by
  obtain ⟨-, dir, found, fields⟩ := Run.buildTask_eq_ok ((Job.reads_task _ _ _).done made)
  obtain rfl : "/a" = dir := Except.ok.inj found
  have workspace : (forgetfulSetup "x").workspace.boardDir runOfX.board = "/boards/x" := by decide
  rw [workspace, (dirFields_oneByte b).1, (dirFields_oneByte b).2] at fields
  rw [Inputs.Fits, fields]
  have app : Field.Fits ⟨"app/m", [b]⟩ :=
    ⟨show (Text.Utf8.bytes "app/m").length < Nat.pow 2 64 by decide, by simp⟩
  simpa [app] using by decide +kernel

/-- An application of which one byte is changed is digested to other bytes. -/
theorem digested_iff_declared_oneByte : ∃ t t',
    ((Job.build "/a" none).task (forgetfulSetup "x") runOfX (oneByte 1)).1 = .ok t ∧
    ((Job.build "/a" none).task (forgetfulSetup "x") runOfX (oneByte 2)).1 = .ok t' ∧
    t.inputs.bytes ≠ t'.inputs.bytes := by
  have made (b : UInt8) : ∃ t, ((Job.build "/a" none).task (forgetfulSetup "x") runOfX
      (oneByte b)).1 = .ok t := ⟨_, rfl⟩
  obtain ⟨t, made₁⟩ := made 1
  obtain ⟨t', made₂⟩ := made 2
  refine ⟨t, t', made₁, made₂, fun same => ?_⟩
  obtain ⟨d, declared, declared'⟩ := (digested_iff_declared
    (Tree.proper_of_isProper (by decide +kernel)) (Tree.proper_of_isProper (by decide +kernel))
    (by unfold Tree.Distinct; decide +kernel) (by unfold Tree.Distinct; decide +kernel)
    made₁ made₂ (fits_oneByte made₁) (fits_oneByte made₂)).1.mp same
  have whole := (declared.unique (.build rfl none)).symm.trans (declared'.unique (.build rfl none))
  obtain ⟨-, apps, -⟩ := Declared.build.inj whole
  have byte := congrArg (Option.bind · fun tree => tree ["m"]) apps
  exact absurd byte (by decide +kernel)

end BoardDesign
