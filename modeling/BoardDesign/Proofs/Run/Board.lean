import BoardDesign.Proofs.Board.Content
import BoardDesign.Proofs.Catalog.Proper
import BoardDesign.Proofs.File.Passing
import BoardDesign.Proofs.Run.Inputs
import BoardDesign.Proofs.Run.LockPlace
import BoardDesign.Proofs.Run.Reuse

/-!
# The board's directory that is used again

When the stage of a board is skipped its directory is the one that would be made now, if what is
read besides the inputs of the stage is as it was: the files of the Zephyr tree that the settings of
the SoC name.

* `World.Regular`: trees as they are, which nothing that is done to them changes;
* `fileAt?_of_treeAt`: files of directories with the same digest;
* `view_of_store`: a digest put on record leaves the directory of the board alone;
* `Target.SameElsewhere`: what is read besides the inputs of the stage is the same;
* `sources?_of_same`: so a board is made from the same as before;
* `board_of_skipped`: what the directory holds when the stage is skipped.
-/

namespace BoardDesign

open File File.Path World Action
open Graph (ValidDesign)
open Stage (EndsAsRecord Error Field Inputs dirFields)

variable {w w' w₀ w₁ : World} {path dir dir' name : String}

/-! ## Regular trees -/

/-- Each location is taken once, by something that lies in a directory and has a name. -/
structure World.Regular (w : World) : Prop where
  proper : w.files.Proper
  distinct : w.files.Distinct

namespace Action

variable {ε : Type}

theorem regular_create (path : String) (content : List UInt8) :
    Maintains World.Regular (create path content : Action Fault Unit) := by
  refine maintains_changing fun w w' h done => ?_
  have guards : World.Guards (fun _ => False) w w' := World.guards_create h.proper done id
  obtain ⟨l, name, -, -, rfl⟩ := create_eq_ok done
  exact ⟨guards.proper, h.distinct.insert _ _⟩

theorem regular_rename (source target : String) :
    Maintains World.Regular (rename source target : Action Fault Unit) := by
  refine maintains_changing fun w w' h done => ?_
  have guards : World.Guards (fun _ => False) w w' :=
    World.guards_rename h.proper done fun _ none => none.elim
  obtain ⟨_, _, _, _, -, -, ⟨rfl, -⟩ | ⟨rfl, -, -⟩⟩ := rename_eq_ok' done
  · exact h
  · exact ⟨guards.proper, h.distinct.move _ _⟩

theorem regular_removeFile (path : String) :
    Maintains World.Regular (removeFile path : Action Fault Unit) := by
  refine maintains_changing fun w w' h done => ?_
  have guards : World.Guards (fun _ => False) w w' := World.guards_removeFile h.proper done
  obtain ⟨l, -, -, rfl⟩ := removeFile_eq_ok done
  exact ⟨guards.proper, h.distinct.erase _⟩

end Action

theorem Run.regular_enter (r : Run) (stage : Stage) : Maintains World.Regular (r.enter stage) := by
  refine maintains_bind ?_ fun _ => maintains_pure _
  rw [Workspace.Lock.setStage, Steps.alone_bind]
  refine maintains_bind ?_ fun _ => ?_
  · rw [Workspace.Lock.writePrivate, Steps.alone_atomic]
    exact maintains_mapError (regular_create _ _) _
  · rw [Steps.alone_bind]
    refine maintains_bind ?_ fun _ => maintains_pure _
    rw [Steps.alone_atomic]
    exact maintains_mapError (regular_rename _ _) _

theorem Stage.Cache.regular_invalidate (c : Stage.Cache) (stage : Stage) :
    Maintains World.Regular (c.invalidate stage) := by
  refine maintains_bind (maintains_attempt (regular_removeFile _)) fun removed => ?_
  split
  · exact maintains_pure _
  · exact maintains_pure _
  · exact maintains_throw _

/-! ## Directories with the same digest -/

theorem World.treeAt_eq_some {view : Location → Option (Option (List UInt8))}
    (h : w.treeAt dir = some view) : view = w.files.view (w.placeOf dir) := by
  unfold World.treeAt at h
  split at h
  · rename_i l located
    split at h
    · cases h
      rw [locate_eq_ok located]
    · cases h
  · cases h

/-- A path that stays below the directory in which it is followed. -/
structure World.Inner (path : String) : Prop where
  relative : isAbsolute path = false
  noUp : ".." ∉ names path

theorem World.Inner.placeFrom_join (inner : Inner name) (here : Location) (base : String) :
    placeFrom here (join base name) = placeFrom here base ++ steps name := by
  rw [World.placeFrom_join inner.relative, foldl_enter_of_noUp inner.noUp, steps]

theorem IsName.inner (isName : IsName name) : Inner name := ⟨isName.relative, isName.noUp⟩

theorem World.fileAt?_of_view (inner : Inner name) :
    w.fileAt? (join dir name) = (w.files.view (w.placeOf dir) (steps name)).join := by
  rw [fileAt?, Tree.view, placeOf_eq, placeOf_eq, inner.placeFrom_join]
  cases w.files.find? _ <;> rfl

/-- Files of directories with the same digest. -/
theorem World.fileAt?_of_treeAt (same : w.treeAt dir = w'.treeAt dir')
    (there : (w'.treeAt dir').isSome = true) (inner : Inner name) :
    w.fileAt? (join dir name) = w'.fileAt? (join dir' name) := by
  obtain ⟨view, tree⟩ := Option.isSome_iff_exists.mp there
  rw [fileAt?_of_view inner, fileAt?_of_view inner, ← treeAt_eq_some tree,
    ← treeAt_eq_some (same.trans tree)]

/-! ## The record and the directory -/

/-- A digest that is put on record changes nothing but what is on the way to the record. -/
theorem Stage.Cache.find?_of_store {c : Stage.Cache} {stage : Stage} {d : ContentHash} {l : Location}
    (plain : Plain c.dir) (done : c.store stage d w = (.ok (), w'))
    (off : ¬ l <+: w.placeOf (c.hashPath stage)) : w'.files.find? l = w.files.find? l := by
  obtain ⟨⟨⟩, w₁, made, wrote⟩ := bind_eq_ok done
  have left : (w.makeDirs c.dir).2 = w₁ := congrArg Prod.snd (mapError_eq_ok made)
  have here : w₁.here = w.here := left ▸ (makeDirs_adds w c.dir).keeps.here
  have dirs : w₁.files.find? l = w.files.find? l := by
    rw [← left]
    refine (find?_of_makeDirsFrom _ l).resolve_right fun through => off ?_
    rw [placeOf_eq, c.placeFrom_hashPath]
    exact (prefix_of_through plain through).trans (List.prefix_append _ _)
  obtain ⟨k, last, _, leads, -, rfl⟩ := write_eq_ok (changing_of_mapError wrote)
  have place : w.placeOf (c.hashPath stage) = k ++ [last] := by
    rw [← leads.placeOf, placeOf_eq, placeOf_eq, here]
  have apart : l ≠ k ++ [last] := by
    rintro rfl
    exact off (place ▸ List.prefix_refl _)
  exact (find?_insert' (by simp) l).trans ((if_neg apart).trans dirs)

/-- A digest that is put on record leaves the directory of the board as it is. -/
theorem Workspace.Ordinary.view_of_store {ws : Workspace} {board : String} {c : Stage.Cache}
    {stage : Stage} {d : ContentHash} (ordinary : ws.Ordinary board)
    (relative : isAbsolute board = false) (dir : c.dir = ws.stagesDir board)
    (done : c.store stage d w = (.ok (), w')) :
    w'.files.view (w'.placeOf (ws.boardDir board)) = w.files.view (w.placeOf (ws.boardDir board)) := by
  have here := (Stage.Cache.stored done).1
  have plain : Plain c.dir := dir ▸ ordinary.buildsDir.join Workspace.isName_stages.noUp
  have boards : w.placeOf (ws.boardDir board) =
      placeFrom [] ws.root ++ "boards" :: steps board := by
    rw [placeOf_eq, ordinary.boardDir.placeFrom, ← ordinary.boardDir.placeFrom []]
    exact Workspace.dirPlace_of_relative ordinary Workspace.isName_boards relative
  have builds : w.placeOf c.dir = placeFrom [] ws.root ++ "builds" :: (steps board ++ [".stages"]) := by
    have dirs := Workspace.dirPlace_of_relative ordinary Workspace.isName_builds relative
    change placeFrom [] (ws.buildsDir board) = _ at dirs
    rw [dir, placeOf_eq, Workspace.stagesDir, Workspace.isName_stages.placeFrom_join,
      ordinary.buildsDir.placeFrom, ← ordinary.buildsDir.placeFrom [], dirs, List.append_assoc,
      List.cons_append]
  funext rest
  rw [Tree.view, Tree.view, placeOf_eq, here, ← placeOf_eq,
    Stage.Cache.find?_of_store plain done fun above => ?_]
  rw [boards, placeOf_eq, c.placeFrom_hashPath, ← placeOf_eq, builds, List.append_assoc,
    List.append_assoc, List.prefix_append_right_inj] at above
  exact absurd (List.cons_prefix_cons.mp above).1 (by decide)

/-! ## What a board is made from again -/

/-- The design is valid for a catalog that is composed of what has been read. -/
structure Graph.ValidDesign.Loaded (g : ValidDesign) : Prop where
  valid : Graph.validate g.design g.catalog = .ok g
  composed : ∃ text base ms, Catalog.read text = .ok base ∧
    (∀ m ∈ ms, ∃ text origin, Modification.read text origin = .ok m) ∧
    base.compose ms = .ok g.catalog

theorem Graph.ValidDesign.Loaded.tidy {g : ValidDesign} (h : g.Loaded) : g.catalog.Tidy := by
  obtain ⟨_, _, _, base, ms, composed⟩ := h.composed
  refine Catalog.tidy_of_compose (Catalog.proper_of_read base) (fun m mem => ?_) composed
  obtain ⟨_, _, read⟩ := ms m mem
  exact Modification.proper_of_read read

/-- Where the board of a run is made, and from what. -/
def Run.target (r : Run) (s : Setup) : Board.Target :=
  s.workspace.target r.board s.resourcesDir s.zephyrBase

namespace Board

/-- What is read besides the directory of the SoC is the same in both worlds: the files of the
Zephyr tree that the settings of the SoC name, and the devicetree of a SoC whose name leads out of
the directory. None of it lies in the directory that is filled with the new content. -/
structure Target.SameElsewhere (t : Target) (w : World) (t' : Target) (w' : World) (soc : String)
    (c : SocConfig) : Prop where
  apart : t.Apart w soc c
  apart' : t'.Apart w' soc c
  base : w.fileText? (t.basePath c) = w'.fileText? (t'.basePath c)
  copies : ∀ file ∈ c.additionalFiles,
    t.copyOf? (Generation.makeStaging t.boardDir w).2 file =
      t'.copyOf? (Generation.makeStaging t'.boardDir w').2 file
  devicetree : ¬ Inner (soc ++ ".dts") →
    w.fileAt? (t.devicetreePath soc) = w'.fileAt? (t'.devicetreePath soc)

/-- The files in the directory of the SoC are the same in both worlds. -/
structure Target.SameResources (t : Target) (w : World) (t' : Target) (w' : World) (soc : String) :
    Prop where
  config : w.fileAt? (t.configPath soc) = w'.fileAt? (t'.configPath soc)
  overlay : w.fileAt? (t.overlayPath soc) = w'.fileAt? (t'.overlayPath soc)
  devicetree : Inner (soc ++ ".dts") →
    w.fileAt? (t.devicetreePath soc) = w'.fileAt? (t'.devicetreePath soc)

variable {t t' : Target} {soc : String}

theorem Target.SameResources.config? (h : t.SameResources w t' w' soc) :
    t.config? w soc = t'.config? w' soc := by
  rw [Target.config?, Target.config?, fileText?, fileText?, h.config]

/-- While a board is prepared the files of its SoC stay as they are, and so they are the same in
directories with the same digest. -/
theorem sameResources {c : Stage.Cache} {stage : Stage} (taken : c.invalidate stage w₁ = (.ok (), w))
    (same : w₁.treeAt (t.socDir soc) = w'.treeAt (t'.socDir soc))
    (there : (w'.treeAt (t'.socDir soc)).isSome = true) : t.SameResources w t' w' soc := by
  have kept (front suffix : String) (inner : Inner (front ++ suffix)) (noSlash : '/' ∉ suffix.toList)
      (long : 2 < suffix.toList.length) {last : Char} (ends : suffix.toList.getLast? = some last)
      (other : last ≠ 'h') : w.fileAt? (join (t.socDir soc) (front ++ suffix)) =
        w'.fileAt? (join (t'.socDir soc) (front ++ suffix)) := by
    rw [c.fileAt?_of_invalidate taken, fileAt?_of_treeAt same there inner]
    exact Stage.not_endsAsRecord_join _ front suffix noSlash long ends other _
  have config := kept "" socConfigFile (by simpa using isName_socConfigFile.inner) (by decide)
    (by decide) rfl (by decide)
  have overlay := kept "" "overlay.dts" (by simpa using isName_overlay.inner) (by decide)
    (by decide) rfl (by decide)
  rw [String.empty_append] at config overlay
  exact ⟨config, overlay, fun inner => kept soc ".dts" inner (by decide) (by decide) rfl (by decide)⟩

theorem Target.SameResources.overlay? (h : t.SameResources w t' w' soc) :
    t.overlay? w soc = t'.overlay? w' soc := by
  unfold Target.overlay?
  rw [h.overlay]

/-- The board is made from the same. -/
theorem Target.SameResources.sources? (h : t.SameResources w t' w' soc)
    (elsewhere : ∀ c, t'.config? w' soc = some c → t.SameElsewhere w t' w' soc c) :
    t.sources? w soc = t'.sources? w' soc := by
  unfold Target.sources? Target.sourcesIn?
  rw [h.config?]
  cases config : t'.config? w' soc with
  | none => simp only [Option.bind_eq_bind, Option.bind_none]
  | some c =>
    have same := elsewhere c config
    have dts : w.fileAt? (t.devicetreePath soc) = w'.fileAt? (t'.devicetreePath soc) := by
      by_cases inner : Inner (soc ++ ".dts")
      · exact h.devicetree inner
      · exact same.devicetree inner
    have devicetree : t.devicetree? w soc = t'.devicetree? w' soc := by
      rw [Target.devicetree?, Target.devicetree?, fileText?, fileText?, dts, h.overlay?]
    have copies := List.filterMap_congr same.copies
    simp only [Option.bind_eq_bind, Option.bind_some, same.base, devicetree, copies]

/-- The board has the same files. -/
theorem Sources.files_congr {g g' : ValidDesign} (same : g.Alike g') (s : Sources) (board : String) :
    s.files g board = s.files g' board := by
  simp only [Sources.files, designDevicetree_congr same]

end Board

namespace Run

variable {s s' : Setup} {r r' : Run} {g g' : ValidDesign} {t : Task}

theorem yields_boardTask (s : Setup) (g : ValidDesign) (r : Run) :
    Yields (fun t => t.stage = .prepareBoard ∧
      ∀ r' w x w', t.body r' w = (.ok x, w') → x.outcome = .executed ∧
        ∃ dir, Board.generateBoard g (r.target s) w = (.ok dir, w')) (boardTask s g r) := by
  refine yields_bind fun soc => yields_bind fun inputs => yields_pure ⟨rfl, ?_⟩
  intro r' w x w' done
  obtain ⟨⟨dir, time⟩, w₁, timed, result⟩ := bind_eq_ok done
  cases result
  exact ⟨rfl, dir, mapError_eq_ok (timed_eq_ok timed)⟩

/-- The world in which a stage is run: the stage has been entered, and its record is gone. -/
def prepared (r : Run) (stage : Stage) (w : World) : World :=
  (r.cache.invalidate stage (r.enter stage w).2).2

/-- When the stage has been executed the board has been made, and then the digest of its inputs was
put on record. -/
theorem boardTask_executed
    (executed : r.Stages .prepareBoard (boardTask s g) w t .executed r' w') :
    ∃ r₁ w₁ dir w₃, r₁.board = r.board ∧ r.enter .prepareBoard w = (.ok r₁, w₁) ∧
      boardTask s g r₁ w₁ = (.ok t, w₁) ∧
      r.cache.invalidate .prepareBoard w₁ = (.ok (), r.prepared .prepareBoard w) ∧
      Board.generateBoard g (r.target s) (r.prepared .prepareBoard w) = (.ok dir, w₃) ∧
      r.cache.store .prepareBoard t.inputs.hash w₃ = (.ok (), w') := by
  obtain ⟨r₁, w₁, r₂, w₂, x, w₃, entered, made, -, taken, ran, saved⟩ :=
    executed.executed (reads_boardTask g)
  have board : r₁.board = r.board := (enter_eq_ok entered).1
  obtain ⟨stage, body⟩ := yields_boardTask s g r₁ w₁ t w₁ made
  obtain ⟨-, dir, generated⟩ := body r₂ w₂ x w₃ ran
  rw [stage] at taken saved
  obtain rfl : r.prepared .prepareBoard w = w₂ := by
    rw [prepared, entered]
    exact congrArg Prod.snd taken
  rw [target, board] at generated
  exact ⟨r₁, w₁, dir, w₃, board, entered, made, taken, generated, saved⟩

/-- What is found in the directory of a board that has been made and put on record. -/
theorem view_of_recorded {dir : String} {d : ContentHash} (root : Plain s.workspace.root)
    (cache : r.cache.dir = s.workspace.stagesDir r.board) (proper : w.files.Proper)
    (apart : ∀ soc config, Board.socName g = .ok soc → (r.target s).config? w soc = some config →
      (r.target s).Apart w soc config)
    (generated : Board.generateBoard g (r.target s) w = (.ok dir, w₁))
    (saved : r.cache.store .prepareBoard d w₁ = (.ok (), w')) :
    ∃ soc sources, Board.socName g = .ok soc ∧ (r.target s).sources? w soc = some sources ∧
      w'.files.view (w'.placeOf (s.workspace.boardDir r.board)) =
        viewOfFiles (sources.files g r.board) := by
  obtain ⟨relative, noUp, here, soc, sources, named, found, view⟩ :=
    Board.view_of_generateBoard proper apart generated
  refine ⟨soc, sources, named, found, ?_⟩
  have ordinary : s.workspace.Ordinary r.board := ⟨root, noUp⟩
  rw [ordinary.view_of_store relative cache saved, placeOf_eq, here]
  exact view

/-- The record of the stage and the directory of the board are those of another run in another
world, wherever the workspaces lie. -/
structure KeptBoard (s₀ : Setup) (r₀ : Run) (w₀ : World) (s : Setup) (r : Run) (w : World) : Prop where
  record : Stage.Cache.recorded? w r.cache .prepareBoard =
    Stage.Cache.recorded? w₀ r₀.cache .prepareBoard
  board : w.files.view (w.placeOf (s.workspace.boardDir r.board)) =
    w₀.files.view (w₀.placeOf (s₀.workspace.boardDir r₀.board))

theorem executes_boardTask {outcome : Stage.Outcome}
    (h : r.Stages .prepareBoard (boardTask s g) w t outcome r' w') (r₁ : Run) :
    Yields (·.outcome = .executed) (t.body r₁) := by
  obtain ⟨r₂, w₂, -, made, -⟩ := h.performs (reads_boardTask g)
  exact fun w x w' done => ((yields_boardTask s g r₂ w₂ t w₂ made).2 r₁ w x w' done).1

/-- The directory that is left when the stage is skipped holds the files that are made of what there
is now. So making the board again would leave it as it is. -/
theorem board_of_skipped {s₀ : Setup} {r₀ r₀' : Run} {g₀ : ValidDesign} {t₀ : Task}
    (root₀ : Plain s₀.workspace.root) (cache₀ : r₀.cache.dir = s₀.workspace.stagesDir r₀.board)
    (regular₀ : w₀.Regular) (regular : w.Regular) (loaded₀ : g₀.Loaded) (loaded : g.Loaded)
    (executed : r₀.Stages .prepareBoard (boardTask s₀ g₀) w₀ t₀ .executed r₀' w₁)
    (skipped : r.Stages .prepareBoard (boardTask s g) w t .cached r' w')
    (kept : KeptBoard s₀ r₀ w₁ s r w') (fits₀ : t₀.inputs.Fits) (fits : t.inputs.Fits)
    (noCollision : t₀.inputs.hash = t.inputs.hash → t₀.inputs.bytes = t.inputs.bytes)
    (resources : ∀ soc, Board.socName g = .ok soc →
      (w'.treeAt ((r.target s).socDir soc)).isSome = true)
    (elsewhere : ∀ soc c, Board.socName g = .ok soc → (r.target s).config? w' soc = some c →
      (r₀.target s₀).SameElsewhere (r₀.prepared .prepareBoard w₀) (r.target s) w' soc c) :
    (∃ soc sources, Board.socName g = .ok soc ∧ (r.target s).sources? w' soc = some sources ∧
      w'.files.view (w'.placeOf (s.workspace.boardDir r.board)) =
        viewOfFiles (sources.files g r.board)) ∧
    ∀ dir v, Board.generateBoard g (r.target s) w' = (.ok dir, v) →
      v.files.view (v.placeOf (s.workspace.boardDir r.board)) =
        w'.files.view (w'.placeOf (s.workspace.boardDir r.board)) := by
  obtain ⟨r₁, v₁, dir, v₃, board₀, entered₀, made₀, taken, generated, saved⟩ :=
    boardTask_executed executed
  obtain ⟨⟨r₂, entered, made⟩, recorded⟩ := skipped.skipped (reads_boardTask g)
    (executes_boardTask skipped)
  have board : r₂.board = r.board := (enter_eq_ok entered).1
  have entered₁ : v₁.Regular := (r₀.regular_enter _).of_done regular₀ entered₀
  have entered₂ : w'.Regular := (r.regular_enter _).of_done regular entered
  have prepared : (r₀.prepared .prepareBoard w₀).Regular :=
    (r₀.cache.regular_invalidate _).of_done entered₁ taken
  -- The same has been digested.
  rw [(yields_boardTask s g r₂ w' t w' made).1, kept.record, (Stage.Cache.stored saved).2.1,
    Option.some.injEq] at recorded
  have inputs := Inputs.bytes_inj fits₀ fits (noCollision recorded)
  obtain ⟨-, soc₀, named₀, fields₀⟩ := boardTask_eq_ok made₀
  obtain ⟨-, soc, named, fields⟩ := boardTask_eq_ok made
  rw [inputs, fields, board, board₀] at fields₀
  obtain ⟨texts, dirs⟩ := List.append_inj fields₀ (by simp only [List.length_cons])
  obtain ⟨graphs, catalogs, boards⟩ : g.design.toJson.compact = g₀.design.toJson.compact ∧
      g.catalog.toJson.compact = g₀.catalog.toJson.compact ∧ r.board = r₀.board := by
    simpa using texts
  have alike : g.Alike g₀ :=
    ValidDesign.alike_of_compact loaded.valid loaded₀.valid loaded.tidy loaded₀.tidy graphs catalogs
  obtain rfl : soc = soc₀ := by
    rw [Board.socName_congr alike, named₀] at named
    exact Except.ok.inj named.symm
  have trees := (Stage.dirFields_eq_iff entered₂.proper entered₁.proper entered₂.distinct
    entered₁.distinct).mp dirs
  have same : (r₀.target s₀).SameResources (r₀.prepared .prepareBoard w₀) (r.target s) w' soc :=
    Board.sameResources taken trees.symm (resources soc named)
  have sources := same.sources? fun c config => elsewhere soc c named config
  -- The board has been made of what there is now.
  obtain ⟨soc', made', named', found, view⟩ := view_of_recorded root₀ cache₀ prepared.proper
    (fun soc' c named' config => by
      obtain rfl : soc = soc' := Except.ok.inj (named₀.symm.trans named')
      exact (elsewhere soc c named (same.config?.symm.trans config)).apart) generated saved
  obtain rfl : soc = soc' := Except.ok.inj (named₀.symm.trans named')
  rw [sources] at found
  rw [← kept.board, ← boards, ← made'.files_congr alike] at view
  refine ⟨⟨soc, made', named, found, view⟩, fun dir v again => ?_⟩
  obtain ⟨-, -, here, soc'', made'', named'', found', view'⟩ :=
    Board.view_of_generateBoard entered₂.proper (fun soc' c named' config =>
      (elsewhere soc' c named' config).apart') again
  obtain rfl : soc = soc'' := Except.ok.inj (named.symm.trans named'')
  obtain rfl : made' = made'' := Option.some.inj (found.symm.trans found')
  rw [view, placeOf_eq, here]
  exact view'

/-! ## A Zephyr tree that has changed -/

/-- The files in the directory of a SoC. -/
def socFiles : List (Location × Node) := [(["MCU.dts"], textFile ""),
  (["configs.yaml"], textFile "vendor: v\ndefconfig_file: d\nboard_socs:\n  - name: a\n")]

def socPlace : Location := ["r", "zephyr-data", "socs", "MCU"]

/-- The resources of the SoC, and the configuration for it in the Zephyr tree. -/
def resourcesWith (config : String) : List (Location × Node) :=
  [([".locks"], .dir), (["r"], .dir), (["r", "zephyr-data"], .dir),
    (["r", "zephyr-data", "socs"], .dir), (socPlace, .dir)] ++
  (socFiles.map fun e => (socPlace ++ e.1, e.2)) ++ [(["z"], .dir), (["z", "d"], textFile config)]

/-- The board made with an empty configuration. -/
def boardFiles : List (Location × Node) := [
  (["x.dts"], textFile "\n\n// nodes from graph\n\n"), (["x_defconfig"], textFile ""),
  (["board.yml"], textFile "board:\n  name: x\n  vendor: v\n  socs:\n  - name: a\n"),
  (["Kconfig.x"], textFile "config BOARD_X\n\tbool \"x\"\n\tselect SOC_A\n"), ([], .dir)]

def boardPlace : Location := ["boards", "x"]

/-- The workspace after the board was made. -/
def madeWith (config : String) : List (Location × Node) := resourcesWith config ++
  (boardFiles.map fun e => (boardPlace ++ e.1, e.2)) ++ [
    (["boards"], .dir), (["builds"], .dir), (["builds", "x"], .dir), (["builds", "x", ".stages"], .dir),
    (["builds", "x", ".stages", "prepare_board.hash"],
      textFile "cb14f9fb00d0004897adb1a819f1802151569e3a403023679641c33283ec6118\n")]

def bareSetup : Setup := forgetfulSetup "x"

def bareRun : Run :=
  ⟨"x", ⟨"/.locks/x.lock", "x", ⟨1, "prepare_board", ""⟩⟩, .ofDir "/builds/x/.stages", [], 0⟩

def bareTarget : Board.Target := bareRun.target bareSetup

def bareTask : Run → Action Error Task := boardTask bareSetup bareBoard

/-- The world in which the stage is entered. -/
def enteredBare (w : World) : World := (bareRun.enter .prepareBoard w).2

theorem socName_bareBoard {soc : String} (named : Board.socName bareBoard = .ok soc) :
    soc = "MCU" := by
  have known : Board.socName bareBoard = .ok "MCU" := by decide +kernel
  exact Except.ok.inj (named.symm.trans known)

theorem loaded_bareBoard : bareBoard.Loaded where
  valid := by decide
  composed := ⟨"\x7b\"metadata\":\x7b\x7d,\"nodes\":[\x7b\"name\":\"MCU\",\"category\":\"SoC/MCU\"\x7d]\x7d",
    bareCatalog, [], by decide +kernel, nofun, by decide⟩

/-- What is read for the stage. -/
def ReadsBare (w : World) : Prop :=
  w.locate (bareTarget.socDir "MCU") = .ok socPlace ∧ w.isDirAt socPlace = true ∧
    (w.files.below socPlace).filter (fun e => !e.1.isEmpty) = socFiles

instance (w : World) : Decidable (ReadsBare w) := inferInstanceAs (Decidable (_ ∧ _))

def bareGraph : String :=
  "\x7b\"id\":\"\",\"name\":null,\"nodes\":[\x7b\"id\":\"node-0\",\"type_name\":\"MCU\"," ++
    "\"label\":\"mcu\",\"named\":true,\"properties\":\x7b\x7d,\"interfaces\":[]\x7d]," ++
    "\"by_label\":\x7b\"mcu\":0\x7d,\"connections\":[],\"unresolved\":[]\x7d"

theorem bareGraph_eq : bareBoard.design.toJson.compact = bareGraph := by decide +kernel

def bareCatalogText : String :=
  "\x7b\"composed\":\x7b\"metadata\":\x7b\x7d,\"nodes\":[\x7b\"name\":\"MCU\"," ++
    "\"category\":\"SoC/MCU\"\x7d]\x7d,\"resolved\":\x7b\"MCU\":\x7b\"name\":\"MCU\"," ++
    "\"category\":\"SoC/MCU\"\x7d\x7d\x7d"

theorem bareCatalogText_eq : bareBoard.catalog.toJson.compact = bareCatalogText := by decide +kernel

/-- What the stage digests. -/
def bareInputs : List Field := [Field.ofText "stage" (Stage.id .prepareBoard),
  Field.ofText "graph" bareGraph, Field.ofText "catalog" bareCatalogText, Field.ofText "board" "x"] ++
    Stage.treeFields "soc_resources" socFiles

theorem fields_of_bareTask (made : bareTask r w = (.ok t, w')) (board : r.board = "x")
    (reads : ReadsBare w) : t.inputs.fields = bareInputs := by
  obtain ⟨-, soc, named, fields⟩ := boardTask_eq_ok made
  obtain rfl := socName_bareBoard named
  obtain ⟨located, isDir, found⟩ := reads
  rw [board] at fields
  have contents : w.files.contents socPlace = socFiles := by
    rw [Tree.contents, found]
    exact List.mergeSort_of_pairwise (by decide +kernel)
  have resources : dirFields w "soc_resources" (bareTarget.socDir "MCU") =
      Stage.treeFields "soc_resources" socFiles := by
    rw [dirFields, located]
    simp only [isDir, if_true, contents]
  rw [fields, bareGraph_eq, bareCatalogText_eq, bareInputs, ← resources]
  rfl

theorem fits_bareInputs : ∀ f ∈ bareInputs, f.Fits := by decide +kernel

theorem hash_bareInputs : ContentHash.ofText?
    "cb14f9fb00d0004897adb1a819f1802151569e3a403023679641c33283ec6118\n" =
      some (Inputs.mk bareInputs).hash := by
  decide +kernel

/-- The board made with an empty configuration lies in its directory. -/
def HoldsBoard (t : Tree) : Prop :=
  t.Distinct ∧ t.find? boardPlace = some .dir ∧ t.below boardPlace = boardFiles

instance (t : Tree) : Decidable (HoldsBoard t) := inferInstanceAs (Decidable (_ ∧ _))

theorem view_of_holdsBoard {t u : Tree} (h : HoldsBoard t) (h' : HoldsBoard u) :
    t.view boardPlace = u.view boardPlace :=
  Tree.view_eq_of_below h.1 h'.1 h.2.1 h'.2.1 (h.2.2.trans h'.2.2.symm)

theorem toOption_eq_some {ε α : Type} {x : Except ε α} {a : α} (h : x.toOption = some a) : x = .ok a := by
  cases x with
  | ok b => exact congrArg Except.ok (Option.some.inj h)
  | error e => cases h

theorem exists_ok {ε α : Type} {a : Action ε α} (h : (a w).1.toOption.isSome = true) :
    ∃ x, a w = (.ok x, (a w).2) := by
  obtain ⟨x, found⟩ := Option.isSome_iff_exists.mp h
  exact ⟨x, Prod.ext (toOption_eq_some found) rfl⟩

/-- The task of the stage in a world that has been entered. -/
theorem exists_bareTask {outputs : List String} (h : ((bareRun.enter .prepareBoard w).1.toOption.bind
      fun r => (bareTask r (enteredBare w)).1.toOption.map fun t => (t.stage, t.outputs)) =
        some (.prepareBoard, outputs)) :
    ∃ r t, bareRun.enter .prepareBoard w = (.ok r, enteredBare w) ∧
      bareTask r (enteredBare w) = (.ok t, enteredBare w) ∧ t.stage = .prepareBoard ∧
      t.outputs = outputs := by
  obtain ⟨r, entered, h⟩ := Option.bind_eq_some_iff.mp h
  obtain ⟨t, made, h⟩ := Option.map_eq_some_iff.mp h
  obtain ⟨stage, outputs⟩ := Prod.mk.inj h
  have entered : (bareRun.enter .prepareBoard w).1 = .ok r := toOption_eq_some entered
  have made : (bareTask r (enteredBare w)).1 = .ok t := toOption_eq_some made
  exact ⟨r, t, Prod.ext entered rfl, (reads_boardTask _ r).done made, stage, outputs⟩

/-- The stage is executed, and skipped when the configuration is the same and when it is another. -/
theorem exists_remade {config : String} (one : config = "" ∨ config = "CONFIG_A=y\n") :
    ∃ t₀ r₀' w₁ t r' w',
      bareRun.Stages .prepareBoard bareTask (worldOf (resourcesWith "")) t₀ .executed r₀' w₁ ∧
      bareRun.Stages .prepareBoard bareTask (worldOf (madeWith config)) t .cached r' w' ∧
      KeptBoard bareSetup bareRun w₁ bareSetup bareRun w' ∧ t₀.inputs = t.inputs ∧ t.inputs.Fits ∧
      w' = enteredBare (worldOf (madeWith config)) := by
  have atFirst : outcomes (bareRun.staged .prepareBoard bareTask
      (worldOf (resourcesWith ""))).1 = [.executed] := by decide +kernel
  obtain ⟨t₀, r₀', w₁, executed⟩ := exists_stages rfl atFirst
  obtain ⟨r₁, v₁, dir, w₂, board, entered₀, made₀, -, -, saved⟩ := boardTask_executed executed
  obtain rfl : enteredBare (worldOf (resourcesWith "")) = v₁ := congrArg Prod.snd entered₀
  have fields₀ := fields_of_bareTask made₀ board (by decide +kernel)
  have later : ((bareRun.enter .prepareBoard (worldOf (madeWith config))).1.toOption.bind fun r =>
      (bareTask r (enteredBare (worldOf (madeWith config)))).1.toOption.map
        fun t => (t.stage, t.outputs)) = some (.prepareBoard, ["/boards/x"]) := by
    rcases one with rfl | rfl <;> decide +kernel
  obtain ⟨r, t, entered, made, stage, outputs⟩ := exists_bareTask later
  have fields := fields_of_bareTask made (enter_eq_ok entered).1
    (by rcases one with rfl | rfl <;> decide +kernel)
  have inputs : t.inputs = ⟨bareInputs⟩ := congrArg Inputs.mk fields
  have inputs₀ : t₀.inputs = ⟨bareInputs⟩ := congrArg Inputs.mk fields₀
  have recorded : Stage.Cache.recorded? (enteredBare (worldOf (madeWith config))) bareRun.cache
      .prepareBoard = some (Inputs.mk bareInputs).hash := by
    rw [← hash_bareInputs]
    rcases one with rfl | rfl <;> decide +kernel
  have there : (enteredBare (worldOf (madeWith config))).doesExist "/boards/x" = true := by
    rcases one with rfl | rfl <;> decide +kernel
  have holds : Stage.Cache.holds (enteredBare (worldOf (madeWith config))) bareRun.cache t.stage
      t.inputs.hash t.outputs = true := by
    rw [Stage.Cache.holds, stage, inputs, outputs, recorded]
    simp [there, Stage.cacheable]
  obtain ⟨r', skipped⟩ := stages_of_holds entered made holds
  refine ⟨t₀, r₀', w₁, t, r', _, executed, skipped, ⟨?_, ?_⟩, inputs₀.trans inputs.symm,
    inputs ▸ fits_bareInputs, rfl⟩
  · rw [recorded, (Stage.Cache.stored saved).2.1, inputs₀]
  · obtain rfl : (bareRun.staged .prepareBoard bareTask (worldOf (resourcesWith ""))).2 = w₁ :=
      congrArg Prod.snd executed.done
    refine view_of_holdsBoard ?_ (by decide +kernel)
    rcases one with rfl | rfl <;> decide +kernel

theorem config_bareTarget {c : Board.SocConfig} (known : (bareTarget.config? w "MCU").map (fun c =>
      (c.defconfigFile, c.additionalFiles)) = some ("d", []))
    (config : bareTarget.config? w "MCU" = some c) : c.defconfigFile = "d" ∧ c.additionalFiles = [] := by
  rw [config] at known
  simpa using known

/-- The configuration is the same before and after, and no other file is read. -/
theorem sameElsewhere_bareTarget {c : Board.SocConfig} (base : c.defconfigFile = "d")
    (copies : c.additionalFiles = [])
    (places : w.placeOf bareTarget.staging = ["boards", ".x.staging"] ∧
      w'.placeOf bareTarget.staging = ["boards", ".x.staging"] ∧
      w.placeOf (join "/z" "d") = ["z", "d"] ∧ w'.placeOf (join "/z" "d") = ["z", "d"])
    (same : w.fileText? (join "/z" "d") = w'.fileText? (join "/z" "d")) :
    bareTarget.SameElsewhere w bareTarget w' "MCU" c := by
  have path : bareTarget.basePath c = join "/z" "d" := by
    rw [Board.Target.basePath, base]
    rfl
  obtain ⟨staging, staging', place, place'⟩ := places
  have noCopies {P : String → Prop} : ∀ file ∈ c.additionalFiles, P file := by simp [copies]
  have noSlash {P : Prop} (slash : '/' ∈ "MCU".toList) : P := absurd slash (by decide)
  refine ⟨⟨?_, noCopies, noSlash⟩, ⟨?_, noCopies, noSlash⟩, ?_, noCopies, fun outside => ?_⟩
  · rw [path, staging, place]
    decide
  · rw [path, staging', place']
    decide
  · rw [path, same]
  · exact absurd (IsName.inner ⟨by decide, by decide, by decide⟩) outside

/-- What the theorem says of the board that is used again with the same configuration. -/
theorem board_of_skipped_unchanged : ∃ t r' w',
    bareRun.Stages .prepareBoard bareTask (worldOf (madeWith "")) t .cached r' w' ∧
    (∃ soc sources, Board.socName bareBoard = .ok soc ∧
      bareTarget.sources? w' soc = some sources ∧
      w'.files.view (w'.placeOf (bareSetup.workspace.boardDir bareRun.board)) =
        viewOfFiles (sources.files bareBoard bareRun.board)) ∧
    ∀ dir v, Board.generateBoard bareBoard bareTarget w' = (.ok dir, v) →
      v.files.view (v.placeOf (bareSetup.workspace.boardDir bareRun.board)) =
        w'.files.view (w'.placeOf (bareSetup.workspace.boardDir bareRun.board)) := by
  obtain ⟨t₀, r₀', w₁, t, r', w', executed, skipped, kept, inputs, fits, rfl⟩ :=
    exists_remade (.inl rfl)
  refine ⟨t, r', _, skipped, board_of_skipped plain_root (by decide)
    ⟨Tree.proper_of_isProper (by decide), by decide⟩ ⟨Tree.proper_of_isProper (by decide), by decide⟩
    loaded_bareBoard loaded_bareBoard executed skipped kept (inputs ▸ fits) fits
    (fun _ => by rw [inputs]) (fun soc named => ?_) fun soc c named config => ?_⟩
  · obtain rfl := socName_bareBoard named
    decide +kernel
  · obtain rfl := socName_bareBoard named
    obtain ⟨base, copies⟩ := config_bareTarget (by decide +kernel) config
    exact sameElsewhere_bareTarget base copies (by decide +kernel) (by decide +kernel)

/-- When the stage is skipped the board is not the one that would be made from the configuration
that is in the Zephyr tree now. -/
theorem remade_board_differs : ∃ t₀ r₀' w₁ t r' w',
    bareRun.Stages .prepareBoard bareTask (worldOf (resourcesWith "")) t₀ .executed r₀' w₁ ∧
    bareRun.Stages .prepareBoard bareTask (worldOf (madeWith "CONFIG_A=y\n")) t .cached r' w' ∧
    KeptBoard bareSetup bareRun w₁ bareSetup bareRun w' ∧ t₀.inputs = t.inputs ∧
    ∃ dir v, Board.generateBoard bareBoard bareTarget w' = (.ok dir, v) ∧
      v.fileAt? "/boards/x/x_defconfig" ≠ w'.fileAt? "/boards/x/x_defconfig" := by
  obtain ⟨t₀, r₀', w₁, t, r', w', executed, skipped, kept, inputs, -, rfl⟩ :=
    exists_remade (.inr rfl)
  refine ⟨t₀, r₀', w₁, t, r', _, executed, skipped, kept, inputs, ?_⟩
  have again : (Board.generateBoard bareBoard bareTarget
      (enteredBare (worldOf (madeWith "CONFIG_A=y\n")))).1.toOption.isSome = true := by
    decide +kernel
  have new : (Board.generateBoard bareBoard bareTarget
      (enteredBare (worldOf (madeWith "CONFIG_A=y\n")))).2.fileAt? "/boards/x/x_defconfig" ≠
        some [] := by
    decide +kernel
  have old : (enteredBare (worldOf (madeWith "CONFIG_A=y\n"))).fileAt? "/boards/x/x_defconfig" =
      some [] := by decide +kernel
  obtain ⟨dir, made⟩ := exists_ok again
  refine ⟨dir, _, made, ?_⟩
  rw [old]
  exact new

end Run

end BoardDesign
