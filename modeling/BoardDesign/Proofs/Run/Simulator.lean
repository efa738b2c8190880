import BoardDesign.Proofs.Board.Platform
import BoardDesign.Proofs.Run.Inputs
import BoardDesign.Proofs.Run.Reuse

/-!
# The simulator's files that are used again

The script names the paths of the build, and the digest does not depend on them. So the files that
are left when the stage is skipped are those that would be made now, as long as the builds are kept
where they were when the files were made.

* `Run.Translates`: the translator makes the same description of the same devicetree;
* `texts_of_preparePlatform`: what the files hold, from the texts that are read;
* `texts_of_simulatorTask`: what they hold when the stage has been executed;
* `simulatorFiles_of_skipped`: what they hold when the stage is skipped.
-/

namespace BoardDesign

open File File.Path World Action
open Board (BuildFiles PlatformFiles)
open Stage (EndsAsRecord Error Field Inputs)

theorem World.isAbsolute_join_left {base : String} (absolute : isAbsolute base = true) (path : String) :
    isAbsolute (join base path) = true := by
  cases relative : isAbsolute path with
  | true => simp [File.Path.join, relative]
  | false => rw [isAbsolute_join relative, absolute]

theorem World.placeFrom_of_isAbsolute {path : String} (absolute : isAbsolute path = true)
    (here : Location) : placeFrom here path = placeFrom [] path := by
  rw [placeFrom, placeFrom, if_pos absolute, if_pos absolute]

/-- The directory in which the builds of a board are kept, without dots and needless slashes. -/
def Workspace.keptIn (ws : Workspace) (board : String) : String :=
  locationText (placeFrom [] (ws.buildsDir board))

theorem Workspace.isAbsolute_buildsDir {ws : Workspace} (root : isAbsolute ws.root = true)
    (board : String) : isAbsolute (ws.buildsDir board) = true :=
  isAbsolute_join_left (isAbsolute_join_left root "builds") board

variable {s s₀ : Setup} {r r₀ r' r₀' : Run} {w w' w₀ w₁ w₂ w₃ : World} {t t₀ : Run.Task}
  {templatesDir templatesDir₀ : Option String} {board builds dir : String}
  {describe : String → String}

/-! ## Paths through the canonical directory -/

namespace Board

variable (same : ∀ here, placeFrom here dir = placeFrom here builds)
include same

theorem fileAt?_devicetree (w : World) :
    w.fileAt? (BuildFiles.inDir dir).devicetree = w.fileAt? (BuildFiles.inDir builds).devicetree := by
  have zephyr := placeFrom_join_congr (same w.here) "zephyr"
  have place : w.placeOf (BuildFiles.inDir dir).devicetree =
      w.placeOf (BuildFiles.inDir builds).devicetree := placeFrom_join_congr zephyr "zephyr.dts"
  rw [fileAt?, fileAt?, place]

theorem fileAt?_platformFiles (w : World) (board : String) :
    w.fileAt? (PlatformFiles.inDir dir board).script =
        w.fileAt? (PlatformFiles.inDir builds board).script ∧
      w.fileAt? (PlatformFiles.inDir dir board).description =
        w.fileAt? (PlatformFiles.inDir builds board).description := by
  have script : w.placeOf (PlatformFiles.inDir dir board).script =
      w.placeOf (PlatformFiles.inDir builds board).script := placeFrom_join_congr (same w.here) _
  have description : w.placeOf (PlatformFiles.inDir dir board).description =
      w.placeOf (PlatformFiles.inDir builds board).description := placeFrom_join_congr (same w.here) _
  exact ⟨by rw [fileAt?, fileAt?, script], by rw [fileAt?, fileAt?, description]⟩

end Board

namespace Run

/-! ## What the files hold -/

/-- The translator makes the same description of the same devicetree, whatever else there is. -/
def Translates (s : Setup) (describe : String → String) : Prop :=
  ∀ r dir w devicetree description w', isAbsolute dir = true →
    w.textAt (BuildFiles.inDir dir).devicetree = .ok devicetree →
    translate s r (BuildFiles.inDir dir).devicetree w = (.ok description, w') →
    description = describe devicetree

/-- What the simulator's files of a board hold: the script for the build in one directory, and the
description of the devicetree. -/
def HoldsTexts (w : World) (files : PlatformFiles) (script description : String) : Prop :=
  w.fileAt? files.script = some (Text.Utf8.bytes script) ∧
    w.fileAt? files.description = some (Text.Utf8.bytes description)

theorem texts_of_preparePlatform {account : Generation.Error → Error} {files : PlatformFiles}
    (absolute : isAbsolute builds = true) (translates : Translates s describe)
    (h : Board.preparePlatform account board builds templatesDir (translate s r) w =
      (.ok files, w')) :
    ∃ devicetree template script,
      (w.fileAt? (BuildFiles.inDir builds).devicetree).bind Text.Utf8.text? = some devicetree ∧
      Board.scriptTemplate templatesDir w = (.ok template, w) ∧
      Board.scriptFor board (locationText (placeFrom [] builds)) devicetree template = .ok script ∧
      HoldsTexts w' (PlatformFiles.inDir builds board) script (describe devicetree) := by
  obtain ⟨dir, devicetree, template, script, description, v, located, read, templateRead, rendered,
    described, rfl, scriptText, descriptionText⟩ := Board.fileAt?_of_preparePlatform h
  have same (here : Location) : placeFrom here dir = placeFrom here builds := by
    rw [placeFrom_canonical absolute located, placeOf_eq, placeFrom_of_isAbsolute absolute,
      placeFrom_of_isAbsolute absolute here]
  have canonical : dir = locationText (placeFrom [] builds) := by
    rw [canonical_eq_ok located, placeOf_eq, placeFrom_of_isAbsolute absolute]
  have absolute' : isAbsolute dir = true := canonical ▸ isAbsolute_locationText _
  refine ⟨devicetree, template, script, ?_, templateRead, canonical ▸ rendered, ?_⟩
  · rw [← Board.fileAt?_devicetree same, fileAt?_of_textAt read]
  · rw [← translates r dir w devicetree description v absolute' read described]
    obtain ⟨scripts, descriptions⟩ := Board.fileAt?_platformFiles same w' board
    exact ⟨scripts ▸ scriptText, descriptions ▸ descriptionText⟩

/-! ## The stage -/

/-- The body of the stage makes the files of the board that it is run for. -/
theorem yields_simulatorTask (s : Setup) (templatesDir : Option String) (r : Run) :
    Yields (fun t => t.stage = .prepareSimulatorFiles ∧
      ∀ r' w x w', t.body r' w = (.ok x, w') → x.outcome = .executed ∧
        ∃ files, Board.preparePlatform (.generation .prepareSimulatorFiles) r'.board
          (s.workspace.buildsDir r.board) templatesDir (translate s r') w = (.ok files, w'))
      (simulatorTask s templatesDir r) := by
  refine yields_bind fun _ => yields_bind fun script => yields_bind fun inputs => yields_pure ?_
  refine ⟨rfl, fun r' w x w' done => ?_⟩
  obtain ⟨⟨files, time⟩, w₁, timed, result⟩ := bind_eq_ok done
  cases result
  exact ⟨rfl, files, timed_eq_ok timed⟩

/-- The template is the same where its file holds the same. -/
theorem scriptTemplate_congr {template template' : String}
    (h : Board.scriptTemplate templatesDir w = (.ok template, w))
    (h' : Board.scriptTemplate templatesDir w' = (.ok template', w'))
    (same : ∀ dir, w'.fileAt? (join dir Board.scriptTemplateFile) =
      w.fileAt? (join dir Board.scriptTemplateFile)) : template' = template := by
  cases templatesDir with
  | none =>
    cases h
    cases h'
    rfl
  | some dir =>
    have text := fileAt?_of_textAt (Board.textAt_of_scriptTemplate h)
    have text' := fileAt?_of_textAt (Board.textAt_of_scriptTemplate h')
    rw [same, text] at text'
    exact (Option.some.inj text').symm

/-- What the files hold when the stage has been executed: they were made from the same texts as its
inputs. -/
theorem texts_of_simulatorTask (root : isAbsolute s.workspace.root = true)
    (translates : Translates s describe)
    (h : r.Stages .prepareSimulatorFiles (simulatorTask s templatesDir) w t .executed r' w') :
    Stage.Cache.recorded? w' r.cache .prepareSimulatorFiles = some t.inputs.hash ∧
    ∃ content program devicetree template script,
      t.inputs.fields = [Field.ofText "stage" (Stage.id .prepareSimulatorFiles),
        ⟨"dts", content⟩, ⟨"elf", program⟩, Field.ofText "resc_template" template,
        Field.ofText "board" r.board] ∧
      Text.Utf8.text? content = some devicetree ∧
      Board.scriptFor r.board (s.workspace.keptIn r.board) devicetree template = .ok script ∧
      HoldsTexts w' (PlatformFiles.inDir (s.workspace.buildsDir r.board) r.board) script
        (describe devicetree) := by
  obtain ⟨r₁, w₁, r₂, w₂, x, w₃, entered, made, board', taken, body, saved⟩ :=
    h.executed (reads_simulatorTask templatesDir)
  have board : r₁.board = r.board := (enter_eq_ok entered).1
  obtain ⟨stage, made'⟩ := yields_simulatorTask s templatesDir r₁ w₁ t w₁ made
  obtain ⟨-, files, prepared⟩ := made' r₂ w₂ x w₃ body
  obtain ⟨-, content, program, template, dts, -, templateRead, fields⟩ := simulatorTask_eq_ok made
  rw [board] at dts fields prepared
  rw [board'] at prepared
  rw [stage] at saved
  obtain ⟨devicetree, template', script, text, templateRead', rendered, scripts, descriptions⟩ :=
    texts_of_preparePlatform (Workspace.isAbsolute_buildsDir root r.board) translates prepared
  -- The record that is taken away is none of the files that are read.
  have notRecord : ¬ EndsAsRecord
      (w₁.placeOf (BuildFiles.inDir (s.workspace.buildsDir r.board)).devicetree) :=
    Stage.not_endsAsRecord_join _ "" "zephyr.dts" (c := 's') (by decide) (by decide) (by decide)
      (by decide) w₁.here
  have devicetreeKept := Stage.Cache.fileAt?_of_invalidate taken notRecord
  rw [devicetreeKept, fileAt?_of_bytesAt dts] at text
  obtain rfl := scriptTemplate_congr templateRead templateRead' fun dir =>
    Stage.Cache.fileAt?_of_invalidate taken (Stage.not_endsAsRecord_join dir "" "run.resc" (c := 'c')
      (by decide) (by decide) (by decide) (by decide) w₁.here)
  -- Nor is the record that is written one of the files that are made.
  obtain ⟨-, recorded, kept⟩ := Stage.Cache.stored saved
  have scripts' := kept _ _ (Stage.not_endsAsRecord_join _ r.board ".resc" (c := 'c') (by decide)
    (by decide) (by decide) (by decide) w₃.here) scripts
  have descriptions' := kept _ _ (Stage.not_endsAsRecord_join _ r.board ".repl" (c := 'l') (by decide)
    (by decide) (by decide) (by decide) w₃.here) descriptions
  exact ⟨recorded, content, program, devicetree, template', script, fields, text, rendered, scripts',
    descriptions'⟩

/-- The record and the simulator's files of a board are those of another run in another world,
wherever the workspaces lie. -/
structure Kept (s₀ : Setup) (r₀ : Run) (w₀ : World) (s : Setup) (r : Run) (w : World) : Prop where
  record : Stage.Cache.recorded? w r.cache .prepareSimulatorFiles =
    Stage.Cache.recorded? w₀ r₀.cache .prepareSimulatorFiles
  script : w.fileAt? (PlatformFiles.inDir (s.workspace.buildsDir r.board) r.board).script =
    w₀.fileAt? (PlatformFiles.inDir (s₀.workspace.buildsDir r₀.board) r₀.board).script
  description : w.fileAt? (PlatformFiles.inDir (s.workspace.buildsDir r.board) r.board).description =
    w₀.fileAt? (PlatformFiles.inDir (s₀.workspace.buildsDir r₀.board) r₀.board).description

theorem executes_simulatorTask {outcome : Stage.Outcome}
    (h : r.Stages .prepareSimulatorFiles (simulatorTask s templatesDir) w t outcome r' w') (r₁ : Run) :
    Yields (·.outcome = .executed) (t.body r₁) := by
  obtain ⟨r₂, w₂, -, made, -⟩ := h.performs (reads_simulatorTask templatesDir)
  exact fun w x w' done => ((yields_simulatorTask s templatesDir r₂ w₂ t w₂ made).2 r₁ w x w' done).1

/-- The files that are left when the stage is skipped are the description of the devicetree as it is
now, and the script for it and for the template as they are now, with the build where it was when
the stage was executed. So if the builds are still kept there, preparing the files again would
leave both as they are. -/
theorem simulatorFiles_of_skipped (root₀ : isAbsolute s₀.workspace.root = true)
    (root : isAbsolute s.workspace.root = true) (translates₀ : Translates s₀ describe)
    (translates : Translates s describe)
    (executed : r₀.Stages .prepareSimulatorFiles (simulatorTask s₀ templatesDir₀) w₀ t₀ .executed r₀' w₁)
    (skipped : r.Stages .prepareSimulatorFiles (simulatorTask s templatesDir) w t .cached r' w')
    (kept : Kept s₀ r₀ w₁ s r w')
    (fits₀ : t₀.inputs.Fits) (fits : t.inputs.Fits)
    (noCollision : t₀.inputs.hash = t.inputs.hash → t₀.inputs.bytes = t.inputs.bytes) :
    let builds := s.workspace.buildsDir r.board
    let files := PlatformFiles.inDir builds r.board
    (∃ devicetree template script,
      w'.textAt (BuildFiles.inDir builds).devicetree = .ok devicetree ∧
      Board.scriptTemplate templatesDir w' = (.ok template, w') ∧
      Board.scriptFor r.board (s₀.workspace.keptIn r.board) devicetree template = .ok script ∧
      HoldsTexts w' files script (describe devicetree)) ∧
    ∀ account made v, Board.preparePlatform account r.board builds templatesDir (translate s r) w' =
        (.ok made, v) →
      v.fileAt? files.description = w'.fileAt? files.description ∧
      (s.workspace.keptIn r.board = s₀.workspace.keptIn r.board →
        v.fileAt? files.script = w'.fileAt? files.script) := by
  obtain ⟨recorded₀, content, program, devicetree, template, left, fields₀, decoded, rendered, texts⟩ :=
    texts_of_simulatorTask root₀ translates₀ executed
  obtain ⟨⟨r₁, entered, made⟩, recorded⟩ := skipped.skipped (reads_simulatorTask templatesDir)
    (executes_simulatorTask skipped)
  have board : r₁.board = r.board := (enter_eq_ok entered).1
  obtain ⟨-, content', program', template', dts, -, templateRead, fields⟩ := simulatorTask_eq_ok made
  rw [(yields_simulatorTask s templatesDir r₁ w' t w' made).1, kept.record, recorded₀,
    Option.some.injEq] at recorded
  have inputs := Inputs.bytes_inj fits₀ fits (noCollision recorded)
  rw [board] at dts fields
  rw [inputs, fields] at fields₀
  obtain ⟨rfl, rfl, rfl, boards⟩ : content' = content ∧ program' = program ∧ template' = template ∧
      r.board = r₀.board := by simpa using fields₀
  have script := kept.script
  have description := kept.description
  rw [← boards] at rendered texts script description
  have now : HoldsTexts w' (PlatformFiles.inDir (s.workspace.buildsDir r.board) r.board) left
    (describe devicetree) := ⟨script.trans texts.1, description.trans texts.2⟩
  have current : w'.textAt (BuildFiles.inDir (s.workspace.buildsDir r.board)).devicetree =
      .ok devicetree := by
    rw [textAt, dts]
    simp [bind, Except.bind, decoded]
  refine ⟨⟨devicetree, template', left, current, templateRead, rendered, now⟩, ?_⟩
  intro account made v again
  obtain ⟨devicetree', template'', script', text', templateRead', rendered', texts'⟩ :=
    texts_of_preparePlatform (Workspace.isAbsolute_buildsDir root r.board) translates again
  rw [fileAt?_of_bytesAt dts, Option.bind_some, decoded] at text'
  cases text'
  cases templateRead.symm.trans templateRead'
  refine ⟨texts'.2.trans now.2.symm, fun same => ?_⟩
  rw [← Workspace.keptIn, same, rendered] at rendered'
  rw [texts'.1, now.1, Except.ok.inj rendered']

/-! ## A workspace that has been moved -/

/-- A program that prints a text whatever it is given. -/
def printing (text : String) : Tool.Launcher := fun _ w =>
  .ok ⟨fun _ _ => ⟨some (0, .code 0), [(.out, Text.Utf8.bytes text)], w⟩, 0⟩

theorem yields_captured {c : Tool.Call} {text : String} (launch : c.launch = printing text)
    (log : String) :
    Yields (fun x => x = (.code 0, Text.Utf8.bytes text)) (c.captured log) := by
  refine yields_bind fun _ => Yields.bind (Q := fun p => ∃ w, p =
    ⟨fun _ _ => ⟨some (0, .code 0), [(.out, Text.Utf8.bytes text)], w⟩, 0⟩) ?_ ?_
  · intro w p w' started
    rw [Tool.Call.start, launch] at started
    exact ⟨w, (Except.ok.inj (Prod.mk.inj started).1).symm⟩
  · rintro _ ⟨w, rfl⟩
    exact yields_bind fun _ => yields_bind fun _ => yields_pure (by simp [Tool.outputOf])

theorem translates_printing {text : String} (launch : s.launch = printing text)
    (lossless : Text.Utf8.lossy (Text.Utf8.bytes text) = text) : Translates s fun _ => text := by
  intro r dir w devicetree description w' _ _ done
  obtain ⟨result, w₁, captured, printed⟩ := bind_eq_ok done
  obtain rfl := yields_captured launch _ w result w₁ captured
  cases printed
  exact lossless

/-- A workspace in a directory below the root. -/
def setupAt (root : String) : Setup where
  workspace := ⟨"/" ++ root⟩
  resourcesDir := "/r"
  zephyrBase := "/z"
  tools := default
  env := .empty
  showsOutput := false
  grace := 0
  stop := fun _ => none
  pid := 1
  launch := printing "cpu\n"

def runAt (root : String) : Run :=
  ⟨"x", ⟨"/" ++ root ++ "/.locks/x.lock", "x", ⟨1, "build", ""⟩⟩,
    .ofDir ("/" ++ root ++ "/builds/x/.stages"), [], 0⟩

/-- A board that has been built, and a template that names the program. -/
def builtFiles (root : String) : List (Location × Node) := [
  (["t"], .dir), (["t", "run.resc"], textFile "\x7b\x7b elf_path \x7d\x7d\n"),
  ([root], .dir), ([root, ".locks"], .dir), ([root, "builds"], .dir), ([root, "builds", "x"], .dir),
  ([root, "builds", "x", "zephyr"], .dir),
  ([root, "builds", "x", "zephyr", "zephyr.dts"], textFile ""),
  ([root, "builds", "x", "zephyr", "zephyr.elf"], textFile "")]

/-- The workspace as it is after the simulator's files were made for it at `/a`, and it was moved. -/
def movedFiles : List (Location × Node) := builtFiles "b" ++ [
  (["b", "builds", "x", ".stages"], .dir),
  (["b", "builds", "x", ".stages", "prepare_simulator_files.hash"],
    textFile "421147a6f5687bd8f7c5ee016b29a79102fde81abbcbfe5fe62a7089c6fcda6b\n"),
  (["b", "builds", "x", "x.resc"], textFile "/a/builds/x/zephyr/zephyr.elf\n"),
  (["b", "builds", "x", "x.repl"], textFile "cpu\n")]

def taskAt (root : String) : Run → Action Error Task := simulatorTask (setupAt root) (some "/t")

/-- The world in which the stage is entered. -/
def enteredAt (root : String) (w : World) : World :=
  ((runAt root).enter .prepareSimulatorFiles w).2

/-- What is read for the stage. -/
def ReadsBuilt (root : String) (w : World) : Prop :=
  w.bytesAt (BuildFiles.inDir ((setupAt root).workspace.buildsDir "x")).devicetree = .ok [] ∧
    w.bytesAt (BuildFiles.inDir ((setupAt root).workspace.buildsDir "x")).program = .ok [] ∧
    w.textAt (join "/t" Board.scriptTemplateFile) = .ok "\x7b\x7b elf_path \x7d\x7d\n"

def builtInputs : List Field := [Field.ofText "stage" (Stage.id .prepareSimulatorFiles),
  ⟨"dts", []⟩, ⟨"elf", []⟩, Field.ofText "resc_template" "\x7b\x7b elf_path \x7d\x7d\n",
  Field.ofText "board" "x"]

theorem fields_of_stages {root : String} {outcome : Stage.Outcome} {r' : Run}
    (h : (runAt root).Stages .prepareSimulatorFiles (taskAt root) w t outcome r' w')
    (built : ReadsBuilt root (enteredAt root w)) : t.inputs.fields = builtInputs := by
  obtain ⟨r₁, w₁, entered, made, -⟩ := h.performs (reads_simulatorTask _)
  have board : r₁.board = "x" := (enter_eq_ok entered).1
  obtain rfl : enteredAt root w = w₁ := congrArg Prod.snd entered
  obtain ⟨-, devicetree, program, template, dts, elf, read, fields⟩ := simulatorTask_eq_ok made
  rw [board] at dts elf fields
  have text := Board.textAt_of_scriptTemplate read
  obtain rfl := Except.ok.inj (built.1.symm.trans dts)
  obtain rfl := Except.ok.inj (built.2.1.symm.trans elf)
  obtain rfl := Except.ok.inj (built.2.2.symm.trans text)
  rw [fields, builtInputs]

theorem script_of_preparePlatform {root script : String} {made : PlatformFiles}
    {account : Generation.Error → Error}
    (absolute : isAbsolute (setupAt root).workspace.root = true) (built : ReadsBuilt root w)
    (done : Board.preparePlatform account "x" ((setupAt root).workspace.buildsDir "x") (some "/t")
      (translate (setupAt root) (runAt root)) w = (.ok made, w'))
    (known : Board.scriptFor "x" ((setupAt root).workspace.keptIn "x") ""
      "\x7b\x7b elf_path \x7d\x7d\n" = .ok script) :
    w'.fileAt? (PlatformFiles.inDir ((setupAt root).workspace.buildsDir "x") "x").script =
      some (Text.Utf8.bytes script) := by
  obtain ⟨devicetree, template, script', text, templateRead, rendered, texts⟩ :=
    texts_of_preparePlatform (Workspace.isAbsolute_buildsDir absolute "x")
      (translates_printing rfl (by decide +kernel)) done
  rw [fileAt?_of_bytesAt built.1, Option.bind_some] at text
  obtain rfl : "" = devicetree := Option.some.inj text
  have read := Board.textAt_of_scriptTemplate templateRead
  obtain rfl := Except.ok.inj (built.2.2.symm.trans read)
  obtain rfl := Except.ok.inj (known.symm.trans rendered)
  exact texts.1

/-- The stage is executed at `/a`, and skipped for the same files at `/b`. -/
theorem exists_moved : ∃ t₀ r₀' w₁ t r' w',
    (runAt "a").Stages .prepareSimulatorFiles (taskAt "a") (worldOf (builtFiles "a")) t₀ .executed
      r₀' w₁ ∧
    (runAt "b").Stages .prepareSimulatorFiles (taskAt "b") (worldOf movedFiles) t .cached r' w' ∧
    Kept (setupAt "a") (runAt "a") w₁ (setupAt "b") (runAt "b") w' ∧ t₀.inputs = t.inputs ∧
    t.inputs.Fits ∧ w' = enteredAt "b" (worldOf movedFiles) := by
  have atFirst : outcomes ((runAt "a").staged .prepareSimulatorFiles (taskAt "a")
      (worldOf (builtFiles "a"))).1 = [.executed] := by decide +kernel
  have later : outcomes ((runAt "b").staged .prepareSimulatorFiles (taskAt "b")
      (worldOf movedFiles)).1 = [.cached] := by decide +kernel
  obtain ⟨t₀, r₀', w₁, executed⟩ := exists_stages rfl atFirst
  obtain ⟨t, r', w', skipped⟩ := exists_stages rfl later
  have fields₀ := fields_of_stages executed (by unfold ReadsBuilt; decide +kernel)
  have fields := fields_of_stages skipped (by unfold ReadsBuilt; decide +kernel)
  have inputs : t₀.inputs = t.inputs := congrArg Inputs.mk (fields₀.trans fields.symm)
  have fits : t.inputs.Fits := by
    rw [Inputs.Fits, fields]
    decide +kernel
  obtain ⟨⟨r₁, entered, made⟩, recorded⟩ := skipped.skipped (reads_simulatorTask _)
    (executes_simulatorTask skipped)
  obtain rfl : enteredAt "b" (worldOf movedFiles) = w' := congrArg Prod.snd entered
  obtain ⟨stage, -⟩ := yields_simulatorTask _ _ r₁ _ t _ made
  obtain ⟨recorded₀, content, program, devicetree, template, script, texts⟩ :=
    texts_of_simulatorTask (by decide) (translates_printing rfl (by decide +kernel)) executed
  obtain ⟨whole, decoded, rendered, scripts, descriptions⟩ := texts
  rw [fields₀] at whole
  obtain ⟨rfl, rfl, rfl, -⟩ : content = [] ∧ program = [] ∧
      template = "\x7b\x7b elf_path \x7d\x7d\n" ∧ "x" = (runAt "a").board := by
    simpa [builtInputs, eq_comm] using whole
  obtain rfl : "" = devicetree := Option.some.inj decoded
  have known : Board.scriptFor "x" ((setupAt "a").workspace.keptIn "x") ""
      "\x7b\x7b elf_path \x7d\x7d\n" = .ok "/a/builds/x/zephyr/zephyr.elf\n" := by decide +kernel
  obtain rfl := Except.ok.inj (known.symm.trans rendered)
  have record : Stage.Cache.recorded? (enteredAt "b" (worldOf movedFiles)) (runAt "b").cache
      .prepareSimulatorFiles = some t₀.inputs.hash := by rw [← stage, recorded, inputs]
  have files : HoldsTexts (enteredAt "b" (worldOf movedFiles))
      (PlatformFiles.inDir ((setupAt "b").workspace.buildsDir (runAt "b").board) (runAt "b").board)
      "/a/builds/x/zephyr/zephyr.elf\n" "cpu\n" := by
    unfold HoldsTexts
    decide +kernel
  exact ⟨t₀, r₀', w₁, t, r', _, executed, skipped, ⟨record.trans recorded₀.symm,
    files.1.trans scripts.symm, files.2.trans descriptions.symm⟩, inputs, fits, rfl⟩

/-- What the theorem says of the stage that is skipped at `/b`: the script is that for the build at
`/a`. -/
theorem simulatorFiles_of_skipped_moved : ∃ t r' w',
    (runAt "b").Stages .prepareSimulatorFiles (taskAt "b") (worldOf movedFiles) t .cached r' w' ∧
    ∃ devicetree template script,
      w'.textAt (BuildFiles.inDir ((setupAt "b").workspace.buildsDir "x")).devicetree =
        .ok devicetree ∧
      Board.scriptTemplate (some "/t") w' = (.ok template, w') ∧
      Board.scriptFor "x" ((setupAt "a").workspace.keptIn "x") devicetree template = .ok script ∧
      HoldsTexts w' (PlatformFiles.inDir ((setupAt "b").workspace.buildsDir "x") "x") script
        "cpu\n" := by
  obtain ⟨t₀, r₀', w₁, t, r', w', executed, skipped, kept, inputs, fits, -⟩ := exists_moved
  have translates (root : String) : Translates (setupAt root) fun _ => "cpu\n" :=
    translates_printing rfl (by decide +kernel)
  exact ⟨t, r', w', skipped, (simulatorFiles_of_skipped (by decide) (by decide) (translates "a")
    (translates "b") executed skipped kept (inputs ▸ fits) fits fun _ => by rw [inputs]).1⟩

/-- When the stage is skipped in a workspace that has been moved the script is not the one that
would be written now. -/
theorem moved_script_differs : ∃ t₀ r₀' w₁ t r' w',
    Translates (setupAt "a") (fun _ => "cpu\n") ∧ Translates (setupAt "b") (fun _ => "cpu\n") ∧
    (runAt "a").Stages .prepareSimulatorFiles (taskAt "a") (worldOf (builtFiles "a")) t₀ .executed
      r₀' w₁ ∧
    (runAt "b").Stages .prepareSimulatorFiles (taskAt "b") (worldOf movedFiles) t .cached r' w' ∧
    Kept (setupAt "a") (runAt "a") w₁ (setupAt "b") (runAt "b") w' ∧ t₀.inputs = t.inputs ∧
    ∃ made v, Board.preparePlatform (.generation .prepareSimulatorFiles) "x"
        ((setupAt "b").workspace.buildsDir "x") (some "/t") (translate (setupAt "b") (runAt "b")) w' =
      (.ok made, v) ∧
      v.fileAt? "/b/builds/x/x.resc" ≠ w'.fileAt? "/b/builds/x/x.resc" := by
  obtain ⟨t₀, r₀', w₁, t, r', w', executed, skipped, kept, inputs, -, rfl⟩ := exists_moved
  have translates (root : String) : Translates (setupAt root) fun _ => "cpu\n" :=
    translates_printing rfl (by decide +kernel)
  have again : (Board.preparePlatform (.generation .prepareSimulatorFiles) "x"
      ((setupAt "b").workspace.buildsDir "x") (some "/t") (translate (setupAt "b") (runAt "b"))
      (enteredAt "b" (worldOf movedFiles))).1.toOption.isSome = true := by decide +kernel
  rcases done : Board.preparePlatform (.generation .prepareSimulatorFiles) "x"
      ((setupAt "b").workspace.buildsDir "x") (some "/t") (translate (setupAt "b") (runAt "b"))
      (enteredAt "b" (worldOf movedFiles)) with ⟨e | made, v⟩ <;> rw [done] at again
  · cases again
  refine ⟨t₀, r₀', w₁, t, r', _, translates "a", translates "b", executed, skipped, kept, inputs,
    made, v, done, ?_⟩
  have built : ReadsBuilt "b" (enteredAt "b" (worldOf movedFiles)) := by
    unfold ReadsBuilt
    decide +kernel
  have path : (PlatformFiles.inDir ((setupAt "b").workspace.buildsDir "x") "x").script =
      "/b/builds/x/x.resc" := by decide
  have known : Board.scriptFor "x" ((setupAt "b").workspace.keptIn "x") ""
      "\x7b\x7b elf_path \x7d\x7d\n" = .ok "/b/builds/x/zephyr/zephyr.elf\n" := by decide +kernel
  have new := script_of_preparePlatform (by decide) built done known
  have old : (enteredAt "b" (worldOf movedFiles)).fileAt? "/b/builds/x/x.resc" =
      some (Text.Utf8.bytes "/a/builds/x/zephyr/zephyr.elf\n") := by decide +kernel
  rw [path] at new
  rw [old, new]
  decide +kernel

end Run

end BoardDesign
