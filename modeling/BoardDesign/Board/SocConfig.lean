import BoardDesign.Generation.Error
import BoardDesign.Text.LetterCase
import BoardDesign.Yaml.Fields
import BoardDesign.Yaml.Writer
/-!
Build settings of SoCs, and the settings files of a board that are made from them.
-/

namespace BoardDesign.Board

open Yaml (Node Value)

/-- One SoC of a board; what else is known about it is kept as written. -/
structure BoardSoc where
  name : String
  extra : Table Value

structure SocConfig where
  vendor : String
  socs : List BoardSoc
  select : List String
  /-- The file to start from, relative to the Zephyr tree. -/
  defconfigFile : String
  removedFlags : List String
  addedFlags : List String
  /-- Files of the Zephyr tree that the board gets a copy of. -/
  additionalFiles : List String

namespace BoardSoc

def ofNode? (n : Node) : Option BoardSoc := do
  let fields ← n.record? ["name"]
  let name ← Yaml.Fields.required fields "name" Node.str?
  let extra ← Yaml.Fields.extra ["name"] fields
  some ⟨name, extra⟩

def toValue (s : BoardSoc) : Value :=
  .map ((.text "name", .text s.name) :: s.extra.toList.map fun e => (.text e.1, e.2))

end BoardSoc

namespace SocConfig

def known : List String :=
  ["vendor", "board_socs", "select", "defconfig_file", "remove_defconfig_flags",
    "add_defconfig_flags", "additional_files"]

def ofNode? (n : Node) : Option SocConfig := do
  let fields ← n.record? known
  let vendor ← Yaml.Fields.required fields "vendor" Node.str?
  let socs ← Yaml.Fields.required fields "board_socs" (Node.listOf? BoardSoc.ofNode?)
  let select ← Yaml.Fields.default fields "select" [] Node.strings?
  let defconfigFile ← Yaml.Fields.required fields "defconfig_file" Node.str?
  let removed ← Yaml.Fields.default fields "remove_defconfig_flags" [] Node.strings?
  let added ← Yaml.Fields.default fields "add_defconfig_flags" [] Node.strings?
  let additional ← Yaml.Fields.default fields "additional_files" [] Node.strings?
  some ⟨vendor, socs, select, defconfigFile, removed, added, additional⟩

/-- The settings that a text holds; `path` names it in errors. -/
def read (text path : String) : Except Generation.Error SocConfig :=
  match ((Node.parse text).bind id).bind ofNode? with
  | none => .error (.invalidSocConfig path .unreadable)
  | some c => if c.socs.isEmpty then .error (.invalidSocConfig path .noSocs) else .ok c

/-- The name of the first SoC. -/
def socName (c : SocConfig) : String := (c.socs.head?.map (·.name)).getD ""

def upper (s : String) : String := String.ofList (Text.toUpper s.toList)

/-- The Kconfig file of a board. -/
def kconfig (c : SocConfig) (board : String) : String :=
  String.join
    (["config BOARD_" ++ upper board ++ "\n", "\tbool \"" ++ board ++ "\"\n"] ++
      c.select.map (fun flag => "\tselect " ++ flag ++ "\n") ++
      ["\tselect SOC_" ++ upper c.socName ++ "\n"])

/-- The description of a board and its SoCs. -/
def boardYaml (c : SocConfig) (board : String) : String :=
  Yaml.Writer.document
    (.map [(.text "board",
      .map [(.text "name", .text board), (.text "vendor", .text c.vendor),
        (.text "socs", .seq (c.socs.map BoardSoc.toValue))])])

/-- The line sets a flag that is to be removed. -/
def isRemoved (c : SocConfig) (line : List Char) : Bool :=
  c.removedFlags.any fun flag => Text.trim line == (flag ++ "=y").toList

/-- A base configuration without the removed flags and with the added ones. -/
def defconfig (c : SocConfig) (base : String) : String :=
  String.ofList
    ((((Text.lines base.toList).filter fun l => !c.isRemoved l).flatMap (· ++ ['\n'])) ++
      c.addedFlags.flatMap fun flag => flag.toList ++ ['\n'])

end SocConfig

end BoardDesign.Board
