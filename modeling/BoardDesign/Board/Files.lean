import BoardDesign.Board.Devicetree
import BoardDesign.Board.SocConfig
import BoardDesign.Generation.Output
/-!
The directory of a board: what its SoC's resources and its design make of it.
-/

namespace BoardDesign.Board

open Generation (Error onPath replaceDir)
open Graph (ValidDesign)
open File.Path (join)

/-- Where a board is made, and from what. -/
structure Target where
  boardName : String
  boardsDir : String
  resourcesDir : String
  zephyrBase : String
deriving DecidableEq, Repr

namespace Target

def boardDir (t : Target) : String := join t.boardsDir t.boardName

def socDir (t : Target) (soc : String) : String :=
  join (join (join t.resourcesDir "zephyr-data") "socs") soc

end Target

/-- The name under which the resources of the board root's SoC are kept. -/
def socName (g : ValidDesign) : Except Error String :=
  match g.boardRoot? with
  | none => .error .missingBoardRoot
  | some root => .ok (root.type.modelName.getD root.typeName)

def writeText (path text : String) : Action Error Unit := onPath path (Action.writeText path text)

def readText (path : String) : Action Error String := onPath path (Action.readText path)

/-- The file of a SoC's resources that holds its settings. -/
def socConfigFile : String := "configs.yaml"

def readSocConfig (path : String) : Action Error SocConfig := do
  Action.ofExcept (SocConfig.read (← readText path) path)

/-- The devicetree of the SoC, with its additions if there are any. -/
def readDevicetree (socDir soc : String) : Action Error String := do
  let dts ← readText (join socDir (soc ++ ".dts"))
  let overlayPath := join socDir "overlay.dts"
  if ← Action.doesExist overlayPath then
    return dts ++ "\n\n// overlay\n\n" ++ (← readText overlayPath)
  else return dts

/-- A SoC's devicetree with the nodes of a design and the block of the shell's UART. -/
def designDevicetree (g : ValidDesign) (dts : String) : String :=
  let overlay := Overlay.ofLinks g.rootNeighbours
  dts ++ "\n\n// nodes from graph\n\n" ++ overlay.ledsText ++ overlay.sensorsText ++
    chosenBlock dts

/-- A file of the Zephyr tree copied into a directory, if it is there. -/
def copyAdditional (zephyrBase dir file : String) : Action Error Unit := do
  let source := join zephyrBase file
  match File.Path.fileName? source with
  | none => pure ()
  | some name =>
    if ← Action.isFile source then
      let target := join dir name
      onPath target (Action.copy source target)

/-- The files of a board written into an empty directory. -/
def writeBoardFiles (g : ValidDesign) (t : Target) (dir : String) : Action Error Unit := do
  let soc ← Action.ofExcept (socName g)
  let socDir := t.socDir soc
  if !(← Action.isDir socDir) then throw (.missingSocResources soc socDir)
  let config ← readSocConfig (join socDir socConfigFile)
  let board := t.boardName
  writeText (join dir ("Kconfig." ++ board)) (config.kconfig board)
  writeText (join dir "board.yml") (config.boardYaml board)
  let base ← readText (join t.zephyrBase config.defconfigFile)
  writeText (join dir (board ++ "_defconfig")) (config.defconfig base)
  let dts ← readDevicetree socDir soc
  writeText (join dir (board ++ ".dts")) (designDevicetree g dts)
  config.additionalFiles.forM (copyAdditional t.zephyrBase dir)

/-- The directory of a board made anew; without a board root nothing is touched. -/
def generateBoard (g : ValidDesign) (t : Target) : Action Error String := do
  let _ ← Action.ofExcept (socName g)
  replaceDir t.boardDir true (writeBoardFiles g t)
  return t.boardDir

end BoardDesign.Board
