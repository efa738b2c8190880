import BoardDesign.Proofs.Board.Gist
import BoardDesign.Proofs.File.Way
import BoardDesign.Proofs.Generation.Replacement
import BoardDesign.Proofs.Run.Spared

/-!
# What the directory of a board holds

* `Sources`, `Target.sources?`: what a board is made from besides its design, as it lies in a world;
* `Sources.files`: the files that are made of it;
* `filled_of_writeBoardFiles`: these and no others are written into an empty directory;
* `view_of_generateBoard`: so a reader finds them, and nothing else, in the directory of the board.
-/

namespace BoardDesign

open File File.Path World Action

/-- Where a path into a directory leads, a path to another name in it leads as well. -/
theorem World.Leads.beside {w : World} {dir name other : String} {l : Location}
    (leads : w.Leads (join dir name) l name) (isName : IsName name) (isOther : IsName other)
    (noNul : '\x00' ∉ other.toList) (short : other.utf8ByteSize ≤ longestName) :
    w.Leads (join dir other) l other := by
  obtain ⟨⟨begin, before, begins, whole, walked⟩, -, found, -⟩ := leads
  rw [names_join isName.relative, isName.names] at whole
  obtain rfl : names dir = before := (List.append_inj' whole rfl).1
  refine ⟨⟨begin, names dir, ?_, ?_, walked⟩, isOther.noDots, found, short⟩
  · have front {n : String} (isName : IsName n) : (join dir n).toList =
        (if dir.isEmpty then [] else if dir.toList.getLast? = some '/' then dir.toList
          else dir.toList ++ ['/']) ++ n.toList := by
      simp only [join, isName.relative, Bool.false_or]
      split
      · simp
      · split <;> simp
    rw [origin_eq_ok_iff] at begins ⊢
    obtain ⟨clean, -, rfl⟩ := begins
    rw [front isName, List.mem_append, not_or] at clean
    refine ⟨?_, fun none => isOther.toList_ne_nil ?_, ?_⟩
    · rw [front isOther, List.mem_append, not_or]
      exact ⟨clean.1, noNul⟩
    · have whole := front isOther
      rw [none] at whole
      exact (List.append_eq_nil_iff.mp whole.symm).2
    · rw [start, start, isAbsolute_join isName.relative, isAbsolute_join isOther.relative]
  · rw [names_join isOther.relative, isOther.names]

theorem relative_of_noSlash {path : String} (noSlash : '/' ∉ path.toList) :
    isAbsolute path = false := by
  unfold isAbsolute
  cases whole : path.toList with
  | nil => rfl
  | cons c cs =>
    rw [whole] at noSlash
    simpa using fun same : c = '/' => noSlash (same ▸ .head _)

/-- A path that leads into a directory does not step up at its end. -/
theorem noUp_of_leads {w : World} {dir path name : String} {l : Location}
    (noSlash : '/' ∉ path.toList) (leads : w.Leads (join dir path) l name) :
    ".." ∉ names path := by
  intro up
  obtain ⟨_, before, -, whole, -⟩ := leads.way
  obtain rfl : ".." = path := by
    rw [names, Text.pieces_of_not_mem noSlash] at up
    by_cases none : path.toList = []
    · simp [none] at up
    · simpa [none] using up
  rw [names_join (by decide)] at whole
  exact leads.proper.2 (List.singleton_injective (List.append_inj' whole rfl).2).symm

namespace Board

open Generation (Staging makeStaging onPath view_of_replaceDir)
open Graph (ValidDesign)

/-! ## What a board is made from -/

/-- What a board is made from besides its design. -/
structure Sources where
  config : SocConfig
  /-- The text of the file to start from. -/
  base : String
  /-- The devicetree of the SoC with its additions. -/
  devicetree : String
  copies : List (String × List UInt8)

/-- The files of a board, by their names. -/
def Sources.files (s : Sources) (g : ValidDesign) (board : String) : List (String × List UInt8) :=
  [("Kconfig." ++ board, Text.Utf8.bytes (s.config.kconfig board)),
    ("board.yml", Text.Utf8.bytes (s.config.boardYaml board)),
    (board ++ "_defconfig", Text.Utf8.bytes (s.config.defconfig s.base)),
    (board ++ ".dts", Text.Utf8.bytes (designDevicetree g s.devicetree))] ++ s.copies

namespace Target

def configPath (t : Target) (soc : String) : String := join (t.socDir soc) socConfigFile

def devicetreePath (t : Target) (soc : String) : String := join (t.socDir soc) (soc ++ ".dts")

def overlayPath (t : Target) (soc : String) : String := join (t.socDir soc) "overlay.dts"

def basePath (t : Target) (c : SocConfig) : String := join t.zephyrBase c.defconfigFile

/-- The directory that is filled with the new content of the board's directory. -/
def staging (t : Target) : String := sibling t.boardDir "staging"

def config? (t : Target) (w : World) (soc : String) : Option SocConfig :=
  (w.fileText? (t.configPath soc)).bind fun text => (SocConfig.read text "").toOption

/-- What is added to the devicetree of the SoC. -/
def overlay? (t : Target) (w : World) (soc : String) : Option String :=
  match w.fileAt? (t.overlayPath soc) with
  | none => some ""
  | some bytes => (Text.Utf8.text? bytes).map ("\n\n// overlay\n\n" ++ ·)

def devicetree? (t : Target) (w : World) (soc : String) : Option String :=
  (w.fileText? (t.devicetreePath soc)).bind fun dts => (t.overlay? w soc).map (dts ++ ·)

/-- The copy that the board gets of a file of the Zephyr tree, if that is there. -/
def copyOf? (t : Target) (w : World) (file : String) : Option (String × List UInt8) :=
  (fileName? (join t.zephyrBase file)).bind fun name =>
    (w.bytesAt (join t.zephyrBase file)).toOption.map (name, ·)

/-- What a board is made from, the copies as they are found in a world of their own. -/
def sourcesIn? (t : Target) (w u : World) (soc : String) : Option Sources := do
  let config ← t.config? w soc
  let base ← w.fileText? (t.basePath config)
  let devicetree ← t.devicetree? w soc
  some ⟨config, base, devicetree, config.additionalFiles.filterMap (t.copyOf? u)⟩

/-- What a board is made from. What is copied is looked for when the new directory is there. -/
def sources? (t : Target) (w : World) (soc : String) : Option Sources :=
  t.sourcesIn? w (makeStaging t.boardDir w).2 soc

/-- Nothing that is read outside of the directory of the SoC lies in the new directory. The
devicetree of a SoC whose name has a slash need not lie in the directory of the SoC. -/
structure Apart (t : Target) (w : World) (soc : String) (c : SocConfig) : Prop where
  base : ¬ Tree.isBelow (w.placeOf t.staging) (w.placeOf (t.basePath c)) = true
  copies : ∀ file ∈ c.additionalFiles,
    ¬ Tree.isBelow (w.placeOf t.staging) (w.placeOf (join t.zephyrBase file)) = true
  devicetree : '/' ∈ soc.toList →
    ¬ Tree.isBelow (w.placeOf t.staging) (w.placeOf (t.devicetreePath soc)) = true

end Target

variable {t : Target} {g : ValidDesign} {u v w w' : World} {soc dir : String} {config : SocConfig}
  {files : List (String × List UInt8)}

/-! ## What is read -/

theorem toOption_read (text path path' : String) :
    (SocConfig.read text path).toOption = (SocConfig.read text path').toOption := by
  unfold SocConfig.read
  split
  · rfl
  · split <;> rfl

theorem readText_eq_ok {path text : String} (h : readText path w = (.ok text, w')) :
    w' = w ∧ w.textAt path = .ok text :=
  ⟨(reads_readText path).same h, reading_of_mapError h⟩

theorem readSocConfig_eq_ok (h : readSocConfig (t.configPath soc) w = (.ok config, w')) :
    w' = w ∧ t.config? w soc = some config ∧
      ∃ text, w.textAt (t.configPath soc) = .ok text := by
  obtain ⟨text, w₁, read, checked⟩ := bind_eq_ok h
  obtain ⟨rfl, found⟩ := readText_eq_ok read
  cases whole : SocConfig.read text (t.configPath soc) with
  | error e =>
    rw [whole] at checked
    cases checked
  | ok c =>
    rw [whole] at checked
    cases checked
    refine ⟨rfl, ?_, text, found⟩
    rw [Target.config?, fileText?, fileAt?_of_textAt found, Option.bind_some,
      toOption_read _ _ (t.configPath soc), whole]
    rfl

theorem isName_socConfigFile : IsName socConfigFile := ⟨by decide, by decide, by decide⟩

theorem isName_overlay : IsName "overlay.dts" := ⟨by decide, by decide, by decide⟩

/-- Where the settings of a SoC have been read, a path to its other files leads. -/
theorem leads_of_textAt {text : String} (h : w.textAt (t.configPath soc) = .ok text) :
    ∃ l, w.Leads (t.configPath soc) l socConfigFile ∧ w.Leads (t.overlayPath soc) l "overlay.dts" := by
  obtain ⟨content, read, -⟩ := textAt_eq_ok h
  obtain ⟨executable, node⟩ := bytesAt_eq_ok read
  obtain ⟨m, located, -⟩ := nodeAt_eq_ok node
  have whole : names (t.configPath soc) = names (t.socDir soc) ++ [socConfigFile] := by
    rw [Target.configPath, names_join isName_socConfigFile.relative, isName_socConfigFile.names]
  obtain ⟨l, leads, -, -⟩ := leads_of_locate located whole isName_socConfigFile.noDots
  exact ⟨l, leads, leads.beside isName_socConfigFile isName_overlay (by decide) (by decide)⟩

theorem readDevicetree_eq_ok {l : Location} {dts : String}
    (h : readDevicetree (t.socDir soc) soc w = (.ok dts, w'))
    (leads : w.Leads (t.overlayPath soc) l "overlay.dts") :
    w' = w ∧ t.devicetree? w soc = some dts := by
  obtain ⟨text, w₁, read, added⟩ := bind_eq_ok h
  obtain ⟨rfl, found⟩ := readText_eq_ok read
  obtain ⟨there, w₂, asked, decided⟩ := bind_eq_ok added
  cases asked
  have base : w₁.fileText? (t.devicetreePath soc) = some text := fileAt?_of_textAt found
  have noSlash : endsWithSlash (t.overlayPath soc) = false := by
    obtain ⟨front, -, path⟩ := toList_join (t.socDir soc) "overlay.dts"
    rw [Target.overlayPath, endsWithSlash, path, List.getLast?_append]
    rfl
  have exists' := leads.doesExist noSlash
  dsimp only at decided
  split at decided
  · obtain ⟨more, w₃, read', whole⟩ := bind_eq_ok decided
    obtain ⟨rfl, found'⟩ := readText_eq_ok read'
    cases whole
    obtain ⟨content, bytes, decoded⟩ := textAt_eq_ok found'
    refine ⟨rfl, ?_⟩
    have overlay : t.overlay? w' soc = some ("\n\n// overlay\n\n" ++ more) := by
      unfold Target.overlay? Target.overlayPath
      rw [fileAt?_of_bytesAt bytes]
      dsimp only
      rw [decoded, Option.map_some]
    unfold Target.devicetree?
    rw [base, Option.bind_some, overlay, Option.map_some, String.append_assoc]
  · rename_i absent
    cases decided
    refine ⟨rfl, ?_⟩
    change ¬ World.doesExist _ (t.overlayPath soc) = true at absent
    rw [exists', Bool.not_eq_true, Option.isSome_eq_false_iff, Option.isNone_iff_eq_none] at absent
    have overlay : t.overlay? w' soc = some "" := by
      unfold Target.overlay? fileAt?
      rw [leads.placeOf, absent]
      dsimp only [Option.bind_none]
    unfold Target.devicetree?
    rw [base, Option.bind_some, overlay, Option.map_some, String.append_empty]

/-! ## What is written -/

/-- What lies beside a file outside of the new directory lies outside of it, unless it ends as the
new directory does. -/
theorem outside_of_beside {target name other : String} {here l : Location}
    (outside : ¬ Tree.isBelow (placeFrom here (sibling target "staging")) (l ++ [name]) = true)
    (letter : other.toList.getLast? ≠ some 'g') :
    ¬ Tree.isBelow (placeFrom here (sibling target "staging")) (l ++ [other]) = true := by
  rw [placeFrom_sibling target (by decide) (by decide)] at outside ⊢
  intro below
  obtain ⟨rest, whole⟩ := Tree.isBelow_iff.mp below
  obtain rfl | ⟨init, final, rfl⟩ := rest.eq_nil_or_concat
  · rw [List.append_nil] at whole
    rw [List.singleton_injective (List.append_inj' whole rfl).2, siblingName, String.toList_append,
      List.getLast?_append] at letter
    exact letter rfl
  · rw [List.concat_eq_append, ← List.append_assoc] at whole
    refine outside (Tree.isBelow_iff.mpr ⟨init ++ [name], ?_⟩)
    rw [(List.append_inj' whole rfl).1, List.append_assoc]

theorem write_of_writeText {path text : String} {x : Unit}
    (h : writeText path text w = (.ok x, w')) : w.write path (Text.Utf8.bytes text) = .ok w' := by
  unfold writeText Generation.onPath Action.writeText writeBytes at h
  exact changing_of_mapError h

theorem isFile_eq_isSome (w : World) (path : String) :
    w.isFile path = (w.bytesAt path).toOption.isSome := by
  rw [toOption_bytesAt, World.isFile]
  cases w.nodeAt path with
  | error e => rfl
  | ok n => cases n <;> rfl

theorem filled_of_copyAdditional {file : String} (start : u.Filled dir [] u)
    (h : u.Filled dir files v)
    (outside : ¬ Tree.isBelow (u.placeOf dir) (u.placeOf (join t.zephyrBase file)) = true)
    (done : copyAdditional t.zephyrBase dir file v = (.ok (), w)) :
    u.Filled dir (files ++ (t.copyOf? u file).toList) w := by
  have same := start.toOption_bytesAt h outside
  unfold copyAdditional at done
  unfold Target.copyOf?
  dsimp only at done
  cases named : fileName? (join t.zephyrBase file) with
  | none =>
    rw [named] at done
    cases done
    simpa using h
  | some name =>
    rw [named] at done
    obtain ⟨_, _, isName, _⟩ := exists_parent named
    obtain ⟨there, v₁, asked, copied⟩ := bind_eq_ok done
    cases asked
    dsimp only at copied
    split at copied
    · obtain ⟨content, read, filled⟩ :=
        start.copy isName h outside (changing_of_mapError copied)
      rw [read]
      exact filled
    · rename_i absent
      cases copied
      rw [isFile_eq_isSome, same, Bool.not_eq_true, Option.isSome_eq_false_iff,
        Option.isNone_iff_eq_none] at absent
      rw [absent]
      simpa using h

theorem filled_of_copies {additional : List String} (start : u.Filled dir [] u)
    (h : u.Filled dir files v)
    (outside : ∀ file ∈ additional,
      ¬ Tree.isBelow (u.placeOf dir) (u.placeOf (join t.zephyrBase file)) = true)
    (done : additional.forM (copyAdditional t.zephyrBase dir) v = (.ok (), w)) :
    u.Filled dir (files ++ additional.filterMap (t.copyOf? u)) w := by
  induction additional generalizing files v with
  | nil =>
    cases done
    simpa using h
  | cons file rest ih =>
    obtain ⟨⟨⟩, v₁, copied, others⟩ := bind_eq_ok done
    have first := filled_of_copyAdditional start h (outside file (.head _)) copied
    have all := ih first (fun file mem => outside file (.tail _ mem)) others
    rw [List.append_assoc] at all
    rw [List.filterMap_cons]
    cases copy : t.copyOf? u file <;> simpa [copy] using all

/-- The files of a board written one after the other, with what is read in between. -/
theorem writeBoardFiles_eq_ok {x : Unit} (done : writeBoardFiles g t dir u = (.ok x, v)) :
    ∃ soc config base dts v₁ v₂ v₃ v₄, socName g = .ok soc ∧
      readSocConfig (t.configPath soc) u = (.ok config, u) ∧
      u.write (join dir ("Kconfig." ++ t.boardName))
        (Text.Utf8.bytes (config.kconfig t.boardName)) = .ok v₁ ∧
      v₁.write (join dir "board.yml") (Text.Utf8.bytes (config.boardYaml t.boardName)) = .ok v₂ ∧
      v₂.textAt (t.basePath config) = .ok base ∧
      v₂.write (join dir (t.boardName ++ "_defconfig"))
        (Text.Utf8.bytes (config.defconfig base)) = .ok v₃ ∧
      readDevicetree (t.socDir soc) soc v₃ = (.ok dts, v₃) ∧
      v₃.write (join dir (t.boardName ++ ".dts"))
        (Text.Utf8.bytes (designDevicetree g dts)) = .ok v₄ ∧
      config.additionalFiles.forM (copyAdditional t.zephyrBase dir) v₄ = (.ok x, v) := by
  obtain ⟨soc, u₁, named, done₁⟩ := bind_eq_ok done
  have soc_eq : socName g = .ok soc := congrArg Prod.fst named
  obtain rfl := (Reads.ofExcept _).same named
  obtain ⟨there, u₂, asked, done₂⟩ := bind_eq_ok done₁
  obtain rfl := (Reads.ask _).same asked
  obtain ⟨-, done₃⟩ := unless_eq_ok done₂
  obtain ⟨config, u₃, settings, done₄⟩ := bind_eq_ok done₃
  obtain rfl := (reads_readSocConfig _).same settings
  obtain ⟨⟨⟩, v₁, kconfig, done₅⟩ := bind_eq_ok done₄
  obtain ⟨⟨⟩, v₂, yaml, done₆⟩ := bind_eq_ok done₅
  obtain ⟨base, v₃, read, done₇⟩ := bind_eq_ok done₆
  obtain ⟨rfl, text⟩ := readText_eq_ok read
  obtain ⟨⟨⟩, v₄, defconfig, done₈⟩ := bind_eq_ok done₇
  obtain ⟨dts, v₅, tree, done₉⟩ := bind_eq_ok done₈
  obtain rfl := (reads_readDevicetree _ _).same tree
  obtain ⟨⟨⟩, v₆, devicetree, copies⟩ := bind_eq_ok done₉
  exact ⟨soc, config, base, dts, _, _, _, _, soc_eq, settings, write_of_writeText kconfig,
    write_of_writeText yaml, text, write_of_writeText defconfig, tree,
    write_of_writeText devicetree, copies⟩

/-- No directory can be filled for a board whose name has a slash. -/
theorem noSlash_of_writeBoardFiles {x : Unit} (start : u.Filled dir [] u)
    (done : writeBoardFiles g t dir u = (.ok x, v)) : '/' ∉ t.boardName.toList := by
  obtain ⟨soc, config, base, dts, v₁, v₂, v₃, v₄, -, -, kconfig, -⟩ := writeBoardFiles_eq_ok done
  exact start.noSlash_of_write (c := 'K') (by decide) (by decide) (by decide) kconfig

section New

variable (staging : Staging w t.boardDir u)
include staging

/-- Outside of the new directory files are as they were before. -/
theorem fileAt?_of_filled {path : String} (filled : u.Filled t.staging files v)
    (outside : ¬ Tree.isBelow (w.placeOf t.staging) (w.placeOf path) = true) :
    v.fileAt? path = w.fileAt? path := by
  rw [filled.fileAt? (by rwa [staging.placeOf, staging.placeOf]), staging.fileAt? outside]

/-- When the settings of a SoC have been read, its directory is not the new one. -/
theorem exists_socPlace (settings : readSocConfig (t.configPath soc) u = (.ok config, u)) :
    ∃ l, t.config? w soc = some config ∧ u.Leads (t.overlayPath soc) l "overlay.dts" ∧
      ∀ name, IsName name → w.placeOf (join (t.socDir soc) name) = l ++ [name] ∧
        (name.toList.getLast? ≠ some 'g' →
          ¬ Tree.isBelow (w.placeOf t.staging) (l ++ [name]) = true) := by
  have start : u.Filled t.staging [] u := staging.filled
  obtain ⟨-, known, text, found⟩ := readSocConfig_eq_ok settings
  obtain ⟨content, read, -⟩ := textAt_eq_ok found
  obtain ⟨l, leads, leads'⟩ := leads_of_textAt found
  have place (name : String) (isName : IsName name) :
      w.placeOf (join (t.socDir soc) name) = l ++ [name] := by
    have config := leads.placeOf
    rw [Target.configPath, staging.placeOf, placeOf_eq,
      isName_socConfigFile.placeFrom_join] at config
    rw [placeOf_eq, isName.placeFrom_join, (List.append_inj' config rfl).1]
  have outside := start.outside_of_file (fileAt?_of_bytesAt read)
  rw [leads.placeOf, staging.placeOf] at outside
  refine ⟨l, ?_, leads', fun name isName => ⟨place name isName, fun letter => ?_⟩⟩
  · rw [← place _ isName_socConfigFile] at outside
    have same := fileAt?_of_filled staging start outside
    rw [← known, Target.config?, Target.config?, fileText?, fileText?, Target.configPath, same]
  · rw [placeOf_eq] at outside ⊢
    exact outside_of_beside outside letter

theorem devicetree?_of_filled {l : Location} (filled : u.Filled t.staging files v)
    (outside : ∀ name, IsName name → w.placeOf (join (t.socDir soc) name) = l ++ [name] ∧
      (name.toList.getLast? ≠ some 'g' →
        ¬ Tree.isBelow (w.placeOf t.staging) (l ++ [name]) = true))
    (apart : '/' ∈ soc.toList →
      ¬ Tree.isBelow (w.placeOf t.staging) (w.placeOf (t.devicetreePath soc)) = true) :
    t.devicetree? v soc = t.devicetree? w soc := by
  have dts : v.fileAt? (t.devicetreePath soc) = w.fileAt? (t.devicetreePath soc) := by
    refine fileAt?_of_filled staging filled ?_
    by_cases slash : '/' ∈ soc.toList
    · exact apart slash
    · obtain ⟨place, free⟩ := outside (soc ++ ".dts")
        (.of_mem (c := 'd') (by simp) (by decide) (by simp [slash]))
      rw [Target.devicetreePath, place]
      exact free (by simp)
  have overlay : v.fileAt? (t.overlayPath soc) = w.fileAt? (t.overlayPath soc) := by
    obtain ⟨place, free⟩ := outside _ isName_overlay
    refine fileAt?_of_filled staging filled ?_
    rw [Target.overlayPath, place]
    exact free (by decide)
  unfold Target.devicetree? Target.overlay? fileText?
  rw [dts, overlay]

/-- The files that are written into the new directory are made from what was there before. -/
theorem filled_of_writeBoardFiles
    (apart : ∀ soc config, socName g = .ok soc → t.config? w soc = some config →
      t.Apart w soc config)
    (done : writeBoardFiles g t t.staging u = (.ok (), v)) :
    ∃ soc s, socName g = .ok soc ∧ t.sourcesIn? w u soc = some s ∧
      u.Filled t.staging (s.files g t.boardName) v := by
  have start : u.Filled t.staging [] u := staging.filled
  have noSlash := noSlash_of_writeBoardFiles start done
  obtain ⟨soc, config, base, dts, v₁, v₂, v₃, v₄, named, settings, kconfig, yaml, text, defconfig,
    tree, devicetree, copies⟩ := writeBoardFiles_eq_ok done
  obtain ⟨l, known, leads, outside⟩ := exists_socPlace staging settings
  obtain ⟨apartBase, apartCopies, apartDevicetree⟩ := apart soc config named known
  have filled₁ := start.write
    (.of_mem (c := 'K') (by simp) (by decide) (by simp [noSlash])) kconfig
  have filled₂ := filled₁.write ⟨by decide, by decide, by decide⟩ yaml
  have baseText : w.fileText? (t.basePath config) = some base := by
    rw [← fileAt?_of_textAt text, fileText?, fileAt?_of_filled staging filled₂ apartBase]
  have filled₃ := filled₂.write
    (.of_mem (c := 'd') (by simp) (by decide) (by simp [noSlash])) defconfig
  have devicetreeText : t.devicetree? w soc = some dts := by
    have read := readDevicetree_eq_ok tree ((start.keeps filled₃).leads leads)
    rw [← read.2, devicetree?_of_filled staging filled₃ outside apartDevicetree]
  have filled₄ := filled₃.write
    (.of_mem (c := 'd') (by simp) (by decide) (by simp [noSlash])) devicetree
  have filled := filled_of_copies start filled₄ (fun file mem => ?_) copies
  · refine ⟨soc, ⟨config, base, dts, config.additionalFiles.filterMap (t.copyOf? u)⟩, named, ?_, ?_⟩
    · simp only [Target.sourcesIn?, known, baseText, devicetreeText, Option.bind_eq_bind,
        Option.bind_some]
    · simpa only [Sources.files, List.nil_append, List.cons_append] using filled
  · rw [staging.placeOf, staging.placeOf]
    exact apartCopies file mem

end New

/-! ## The directory of the board -/

theorem exists_leads_of_swapIn {target : String}
    (done : Generation.swapIn (sibling target "staging") target w = (.ok (), w')) :
    ∃ (v : World) (l : Location) (name : String), v.Leads target l name := by
  obtain ⟨there, w₀, asked, moved⟩ := bind_eq_ok done
  cases asked
  split at moved
  · obtain ⟨_, _, l, name, -, leads, -⟩ := rename_eq_ok' (changing_of_mapError moved)
    exact ⟨_, l, name, leads⟩
  · obtain ⟨⟨⟩, w₁, -, moved⟩ := bind_eq_ok moved
    obtain ⟨⟨⟩, w₂, aside, -⟩ := bind_eq_ok moved
    obtain ⟨l, name, _, _, leads, -⟩ := rename_eq_ok' (changing_of_mapError aside)
    exact ⟨_, l, name, leads⟩

/-- What a reader finds in the directory of a board that has been made anew. Its name is one name,
so the directory lies in that of the boards. -/
theorem view_of_generateBoard (proper : w.files.Proper)
    (apart : ∀ soc config, socName g = .ok soc → t.config? w soc = some config →
      t.Apart w soc config)
    (done : generateBoard g t w = (.ok dir, w')) :
    isAbsolute t.boardName = false ∧ ".." ∉ names t.boardName ∧ w'.here = w.here ∧
      ∃ soc s, socName g = .ok soc ∧ t.sources? w soc = some s ∧
        w'.files.view (w.placeOf t.boardDir) = viewOfFiles (s.files g t.boardName) := by
  obtain ⟨_, w₀, named, goesOn⟩ := bind_eq_ok done
  obtain rfl := (Reads.ofExcept _).same named
  obtain ⟨x, w₁, replaced, same⟩ := bind_eq_ok goesOn
  cases same
  obtain ⟨u, v, made, staging, filled, found⟩ := view_of_replaceDir proper replaced
  obtain ⟨_, _, _, _, swapped⟩ := Generation.replaceDir_eq_ok replaced
  have noSlash := noSlash_of_writeBoardFiles staging.filled filled
  obtain ⟨soc, s, soc_eq, sources, holds⟩ := filled_of_writeBoardFiles staging apart filled
  obtain ⟨here, view⟩ := found _ holds
  refine ⟨relative_of_noSlash noSlash, ?_, here, soc, s, soc_eq, ?_, view⟩
  · obtain ⟨_, l, name, leads⟩ := exists_leads_of_swapIn swapped
    exact noUp_of_leads noSlash leads
  · rw [Target.sources?, made]
    exact sources

end Board

end BoardDesign
