import BoardDesign.Board.Platform
import BoardDesign.Proofs.Generation.Content
import BoardDesign.Proofs.Run.Spared

/-!
# The simulator's files

* `scriptFor`: the script for a build, from the texts that it depends on;
* `fileAt?_of_preparePlatform`: what the files hold when they have been made.
-/

namespace BoardDesign.Board

open File File.Path World Action
open Generation (Abreast lastName)

variable {ε : Type} {here : Location} {w w' : World} {board dir builds : String}

/-- The script for the build in a directory with a devicetree. -/
def scriptFor (board dir devicetree template : String) : Except Template.Error String :=
  Template.render (scriptContext board (PlatformFiles.inDir dir board)
    (BuildFiles.inDir dir).program (findChosen "zephyr,console" devicetree)) template

theorem exists_abreast (here : Location) (dir board script description : String) :
    ∃ l, Abreast here l [((PlatformFiles.inDir dir board).script, script),
      ((PlatformFiles.inDir dir board).description, description)] := by
  obtain ⟨front, whole⟩ := exists_front_of_join dir board
  obtain ⟨l, last, ends⟩ := exists_dir_of_ending here front
  obtain ⟨name, place⟩ := ends _ "resc" (whole "resc") (by decide) (by decide)
  obtain ⟨name', place'⟩ := ends _ "repl" (whole "repl") (by decide) (by decide)
  have beside {path name : String} (named : fileName? path = some name)
      (place : placeFrom here path = l ++ [name]) :
      placeFrom here path = l ++ [lastName path] ∧
        placeFrom here (sibling path "tmp") = l ++ [siblingName path "tmp"] := by
    have dir := (placeFrom_of_fileName? named here).symm.trans place
    rw [placeFrom_sibling path (by decide) (by decide), (List.append_inj' dir rfl).1, lastName, named]
    exact ⟨place, rfl⟩
  -- The names are told apart by their last letters.
  have letter (path : String) : (siblingName path "tmp").toList.getLast? = some 'p' := by
    rw [siblingName, String.toList_append, List.getLast?_append]
    rfl
  have letters : (lastName (PlatformFiles.inDir dir board).script).toList.getLast? = some 'c' ∧
      (lastName (PlatformFiles.inDir dir board).description).toList.getLast? = some 'l' := by
    have script : lastName (PlatformFiles.inDir dir board).script = _ := congrArg (·.getD "") name
    have description : lastName (PlatformFiles.inDir dir board).description = _ :=
      congrArg (·.getD "") name'
    rw [script, description]
    simp
  have apart {s t : String} {c d : Char} (hs : s.toList.getLast? = some c)
      (ht : t.toList.getLast? = some d) (other : c ≠ d) : s ≠ t := fun same =>
    other (Option.some.inj (hs.symm.trans (same ▸ ht)))
  refine ⟨l, fun f mem => ?_, fun f mem => ?_, ?_, fun f mem g _ => ?_⟩
  · rcases List.mem_pair.mp mem with rfl | rfl
    · exact (beside name place).1
    · exact (beside name' place').1
  · rcases List.mem_pair.mp mem with rfl | rfl
    · exact (beside name place).2
    · exact (beside name' place').2
  · simpa using apart letters.1 letters.2 (by decide)
  · rcases List.mem_pair.mp mem with rfl | rfl
    · exact apart letters.1 (letter _) (by decide)
    · exact apart letters.2 (letter _) (by decide)

variable {account : Generation.Error → ε} {templatesDir : Option String}
  {translate : String → Action ε String} {files : PlatformFiles} {build : BuildFiles}

theorem textAt_of_scriptTemplate {dir template : String}
    (h : scriptTemplate (some dir) w = (.ok template, w')) :
    w.textAt (join dir scriptTemplateFile) = .ok template := by
  have text := reading_of_mapError h
  exact text

theorem renderScript_eq_ok {script : String}
    (h : renderScript board files build templatesDir w = (.ok script, w')) :
    w' = w ∧ ∃ devicetree template, w.textAt build.devicetree = .ok devicetree ∧
      scriptTemplate templatesDir w = (.ok template, w) ∧
      Template.render (scriptContext board files build.program
        (findChosen "zephyr,console" devicetree)) template = .ok script := by
  obtain rfl := (reads_renderScript board files build templatesDir).same h
  obtain ⟨devicetree, w₁, read, others⟩ := bind_eq_ok h
  obtain rfl : w₁ = w' := ((Reads.reading _).mapError _).same read
  obtain ⟨template, w₂, templateRead, rendered⟩ := bind_eq_ok others
  obtain rfl : w₂ = w₁ := (reads_scriptTemplate templatesDir).same templateRead
  have text := reading_of_mapError read
  refine ⟨rfl, devicetree, template, text, templateRead, ?_⟩
  cases whole : Template.render (scriptContext board files build.program
    (findChosen "zephyr,console" devicetree)) template with
  | error e =>
    simp only [whole] at rendered
    cases rendered
  | ok script' =>
    simp only [whole] at rendered
    cases rendered
    rfl

/-- What the files hold when they have been made. -/
theorem fileAt?_of_preparePlatform
    (h : preparePlatform account board builds templatesDir translate w = (.ok files, w')) :
    ∃ dir devicetree template script description v, w.canonical builds = .ok dir ∧
      w.textAt (BuildFiles.inDir dir).devicetree = .ok devicetree ∧
      scriptTemplate templatesDir w = (.ok template, w) ∧
      scriptFor board dir devicetree template = .ok script ∧
      translate (BuildFiles.inDir dir).devicetree w = (.ok description, v) ∧
      files = PlatformFiles.inDir dir board ∧
      w'.fileAt? files.script = some (Text.Utf8.bytes script) ∧
      w'.fileAt? files.description = some (Text.Utf8.bytes description) := by
  obtain ⟨dir, w₁, located, checked⟩ := bind_eq_ok h
  obtain rfl : w₁ = w := (((Reads.reading _).mapError _).mapError account).same located
  obtain ⟨there, w₂, asked, goesOn⟩ := bind_eq_ok checked
  obtain rfl : w₂ = w₁ := (Reads.ask _).same asked
  obtain ⟨-, made⟩ := unless_eq_ok goesOn
  obtain ⟨script, w₃, rendered, translated⟩ := bind_eq_ok made
  obtain ⟨rfl, devicetree, template, text, templateRead, whole⟩ :=
    renderScript_eq_ok (mapError_eq_ok rendered)
  obtain ⟨description, v, described, written⟩ := bind_eq_ok translated
  obtain ⟨⟨⟩, w₄, wrote, result⟩ := bind_eq_ok written
  cases result
  have writes := mapError_eq_ok wrote
  rw [writePlatform] at writes
  obtain ⟨-, together⟩ := unless_eq_ok writes
  obtain ⟨l, abreast⟩ := exists_abreast v.here dir board script description
  have texts := Generation.fileAt?_of_writeFiles abreast together
  have scriptText := texts ((PlatformFiles.inDir dir board).script, script) (.head _)
  have descriptionText := texts ((PlatformFiles.inDir dir board).description, description)
    (.tail _ (.head _))
  have onPath := mapError_eq_ok located
  have found := reading_of_mapError onPath
  exact ⟨dir, devicetree, template, script, description, v, found, text, templateRead, whole,
    described, rfl, scriptText, descriptionText⟩

end BoardDesign.Board
