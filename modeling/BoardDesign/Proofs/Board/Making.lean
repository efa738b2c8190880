import BoardDesign.Proofs.Generation.Aside
import BoardDesign.Proofs.Run.Spared

/-!
# What is maintained while a board and its application are made

* `App.maintains_generate`: an invariant that does not depend on the directory of the application
  and on what is put beside it;
* `Board.maintains_writeBoardFiles`: one that does not depend on the files of a board;
* `Board.maintains_generateBoard`: one that does not depend on the directory of the board.
-/

namespace BoardDesign

open File File.Path World Action Generation

variable {inv : World → Prop} {here : Location} {places way : Location → Prop} {path dir : String}
  (ind : Indifferent inv here places way)
include ind

/-! ## An application -/

namespace App

theorem maintains_renderFile (ctx : Template.Context) (templatePath : String)
    (there : places (placeFrom here path)) : Maintains inv (renderFile ctx path templatePath) := by
  have reads : Reads (Generation.onPath path (Action.readBytes path)) :=
    (Reads.reading _).mapError _
  refine maintains_bind reads.maintains fun content => ?_
  split
  · exact maintains_pure _
  · refine maintains_ite (maintains_pure _) ?_
    split
    · exact maintains_throw _
    · exact maintains_bind (maintains_onPath _ (ind.writeBytes _ _ there)) fun _ =>
        maintains_pure _

theorem maintains_renderTree (ctx : Template.Context) (templateDir relative : String)
    (covers : Covers places here dir) (fuel : Nat) :
    Maintains inv (renderTree ctx templateDir dir relative fuel) := by
  induction fuel generalizing dir relative with
  | zero => exact maintains_throw _
  | succ fuel ih =>
    refine maintains_readDir ind fun names isName => ?_
    refine maintains_bind (maintains_mapM fun name mem => ?_) fun _ => maintains_pure _
    have below := covers.join (isName name mem)
    refine maintains_bind (Reads.ask _).maintains fun isDir => ?_
    split
    · exact ih _ below
    · refine maintains_bind (maintains_renderFile ind ctx _ below.self) fun rendered => ?_
      exact maintains_ite (maintains_pure _) (maintains_pure _)

theorem maintains_fill (ctx : Template.Context) (templateDir : String)
    (covers : Covers places here dir) : Maintains inv (fill ctx templateDir dir) := by
  have rules : IsName rulesFile := ⟨by decide, by decide, by decide⟩
  have rendered := maintains_renderTree ind ctx templateDir "" covers Generation.deepestPath
  refine maintains_bind (maintains_copyTreeFrom ind covers _) fun _ => ?_
  refine maintains_bind (Reads.ask _).maintains fun there => ?_
  split
  · have removed := ind.removeFile (join dir rulesFile) (covers.join rules).self
    exact maintains_bind (maintains_onPath _ removed) fun _ => rendered
  · exact rendered

theorem maintains_generate (g : Graph.ValidDesign) {source : Source}
    (room : Room here places way source.outputDir) (covers : Covers places here source.outputDir) :
    Maintains inv (generate g source) := by
  refine maintains_bind (Reads.ask _).maintains fun isDir =>
    maintains_when (maintains_throw _) fun _ => ?_
  refine maintains_bind (reads_loadLists _).maintains fun lists => ?_
  refine maintains_bind (maintains_replaceDir ind room _ ?_ fun _ _ _ _ _ => covers) fun _ =>
    maintains_pure _
  exact maintains_fill ind _ _ room.staging

end App

/-! ## A board -/

namespace Board

variable {g : Graph.ValidDesign} {t : Target}

theorem maintains_copyAdditional (zephyrBase file : String) (covers : Covers places here dir) :
    Maintains inv (copyAdditional zephyrBase dir file) := by
  unfold copyAdditional
  dsimp only
  split
  · exact maintains_pure _
  · rename_i name named
    obtain ⟨_, _, isName, _⟩ := exists_parent named
    refine maintains_bind (Reads.ask _).maintains fun there => ?_
    split
    · exact maintains_onPath _ (ind.copy _ _ (covers.join isName).self)
    · exact maintains_pure _

/-- The files that are named after the board are told apart from the others. -/
theorem maintains_writeBoardFiles (covers : Covers places here dir)
    (named : ∀ name ∈ ["Kconfig." ++ t.boardName, t.boardName ++ "_defconfig", t.boardName ++ ".dts"],
      places (placeFrom here (join dir name))) :
    Maintains inv (writeBoardFiles g t dir) := by
  have yaml : IsName "board.yml" := ⟨by decide, by decide, by decide⟩
  have writes (path text : String) (there : places (placeFrom here path)) :
      Maintains inv (writeText path text) := maintains_onPath path (ind.writeBytes _ _ there)
  refine maintains_bind (Reads.ofExcept _).maintains fun soc => ?_
  refine maintains_bind (Reads.ask _).maintains fun there =>
    maintains_when (maintains_throw _) fun _ => ?_
  refine maintains_bind (reads_readSocConfig _).maintains fun config => ?_
  refine maintains_bind (writes _ _ (named _ (by simp))) fun _ => ?_
  refine maintains_bind (writes _ _ (covers.join yaml).self) fun _ => ?_
  refine maintains_bind (reads_readText _).maintains fun base => ?_
  refine maintains_bind (writes _ _ (named _ (by simp))) fun _ => ?_
  refine maintains_bind (reads_readDevicetree _ _).maintains fun dts => ?_
  refine maintains_bind (writes _ _ (named _ (by simp))) fun _ => ?_
  exact maintains_forM fun file _ => maintains_copyAdditional ind _ file covers

/-- The directory of the board matters only if its files can be written. -/
theorem maintains_generateBoard (room : Room here places way t.boardDir)
    (fills : Maintains inv (writeBoardFiles g t (sibling t.boardDir "staging")))
    (covers : ∀ u x v, u.Filled (sibling t.boardDir "staging") [] u →
      writeBoardFiles g t (sibling t.boardDir "staging") u = (.ok x, v) →
        Covers places here t.boardDir) :
    Maintains inv (generateBoard g t) := by
  refine maintains_bind (Reads.ofExcept _).maintains fun _ => ?_
  exact maintains_bind (maintains_replaceDir ind room true fills covers) fun _ => maintains_pure _

end Board

end BoardDesign
