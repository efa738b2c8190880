import BoardDesign.Board.Rule
/-!
The devicetree overlay of a board: what the neighbours of its root need.

`Overlay.ofLinks` decides which node each link defines, `ledsText` and `sensorsText` write the
definitions down. A node is defined once for each of its links to the root.
-/

namespace BoardDesign.Board

open Graph (RootLink NodeView)

/-- A LED on a pin of a controller. -/
structure Led where
  label : String
  controller : String
  pin : Nat
  typeName : String
deriving DecidableEq, Repr

/-- A device on a bus. -/
structure Sensor where
  label : String
  bus : String
  name : String
  address : Option Nat
  compats : List String
  thermometer : Bool
deriving DecidableEq, Repr

structure Overlay where
  leds : List Led
  sensors : List Sensor
  /-- The links that nothing is written for. -/
  skipped : List RootLink
deriving DecidableEq, Repr

def isLed (l : RootLink) : Bool := NodeRule.leds.matchesType l.node.type

def isSensor (l : RootLink) : Bool := !isLed l && !l.node.type.compats.isEmpty

/-- The LED of a link; none if the node has no address for its pin. -/
def ledOf? (l : RootLink) : Option Led :=
  (l.node.interfaceAddress "gpio").map fun pin =>
    ⟨l.node.label, l.rootInterface, pin, l.node.typeName⟩

def sensorOf (l : RootLink) : Sensor :=
  { label := l.node.label
    bus := l.rootInterface
    name := l.node.type.modelName.getD l.node.typeName
    address := l.node.interfaceAddress l.nodeInterface
    compats := l.node.type.compats
    thermometer := NodeRule.thermometers.matchesType l.node.type }

namespace Overlay

def ofLinks (links : List RootLink) : Overlay :=
  { leds := (links.filter isLed).filterMap ledOf?
    sensors := (links.filter isSensor).map sensorOf
    skipped := links.filter fun l => !isLed l && !isSensor l }

/-- The labels that the overlay defines, in the order of the text. -/
def definedLabels (o : Overlay) : List String := o.leds.map (·.label) ++ o.sensors.map (·.label)

def ledLines (index : Nat) (l : Led) : List String :=
  [s!"\t\t{l.label}: led_{index} \x7b",
    s!"\t\t\tgpios = <&{l.controller} {l.pin} GPIO_ACTIVE_HIGH>;",
    s!"\t\t\tlabel = \"{l.typeName}\";",
    "\t\t\x7d;"]

/-- The lines that switch a controller on. -/
def enableLines (controller : String) : List String :=
  [s!"&{controller} \x7b", "\tstatus = \"okay\";", "\x7d;"]

/-- Lines with a line end after each. -/
def textOf (lines : List String) : String := String.join (lines.map (· ++ "\n"))

def numberedLeds (index : Nat) : List Led → List String
  | [] => []
  | l :: rest => ledLines index l ++ numberedLeds (index + 1) rest

/-- The controllers of the LEDs, each once, in the order of their names. -/
def controllers (o : Overlay) : List String :=
  (Table.ofList (o.leds.map fun l => (l.controller, ()))).keys

/-- A node with a child for each LED, and the controllers switched on. -/
def ledsText (o : Overlay) : String :=
  if o.leds.isEmpty then ""
  else
    textOf (["#include <zephyr/dt-bindings/gpio/gpio.h>", "/ \x7b", "\tleds \x7b",
        "\t\tcompatible = \"gpio-leds\";"] ++
      numberedLeds 0 o.leds ++ ["\t\x7d;", "\x7d;"] ++ o.controllers.flatMap enableLines)

/-- Properties that some bindings need beside the usual ones. -/
def requiredProperties : List (String × String) := [("sensirion,sht4x", "repeatability = <2>;")]

def hex (n : Nat) : String := String.ofList (Text.Hex.ofNat n)

def sensorLines (s : Sensor) : List String :=
  let unit := (s.address.map fun a => "@" ++ hex a).getD ""
  let compatible := Text.joinWith ", " (s.compats.map fun c => "\"" ++ c ++ "\"")
  [s!"&{s.bus} \x7b", "\tstatus = \"okay\";", s!"\t{s.label}: {s.name}{unit} \x7b",
      s!"\t\tcompatible = {compatible};"] ++
    (s.address.map fun a => "\t\treg = <0x" ++ hex a ++ ">;").toList ++
    (if s.thermometer then ["\t\tfriendly-name = \"thermometer\";"] else []) ++
    ((requiredProperties.filter fun r => s.compats.contains r.1).map fun r => "\t\t" ++ r.2) ++
    ["\t\tstatus = \"okay\";", "\t\x7d;", "\x7d;"]

def sensorsText (o : Overlay) : String := textOf (o.sensors.flatMap sensorLines)

def skippedText (l : RootLink) : String :=
  s!"{l.node.label} ({l.node.typeName}): {l.nodeInterface} -> {l.rootInterface}"

end Overlay

/-- The node that a `chosen` property points at, after the property's name. -/
def chosenNode? (cs : List Char) : Option (List Char) :=
  match Text.trimStart cs with
  | '=' :: cs =>
    match Text.trimStart cs with
    | '&' :: cs =>
      let isName (c : Char) : Bool := c != ';' && !Text.isBlank c
      match cs.takeWhile isName, Text.trimStart (cs.dropWhile isName) with
      | [], _ => none
      | name, ';' :: _ => some name
      | _, _ => none
    | _ => none
  | _ => none

/-- The node of the first place where a `chosen` property of this name is written. -/
def findChosenIn (name : List Char) : List Char → Option (List Char)
  | [] => (Text.after name []).bind chosenNode?
  | c :: cs =>
    match (Text.after name (c :: cs)).bind chosenNode? with
    | some node => some node
    | none => findChosenIn name cs

def findChosen (name dts : String) : Option String :=
  (findChosenIn name.toList dts.toList).map String.ofList

/-- The block that exports the UART of the shell, or else of the console. -/
def chosenBlock (dts : String) : String :=
  match findChosen "zephyr,shell-uart" dts <|> findChosen "zephyr,console" dts with
  | some uart =>
    Overlay.textOf ["/ \x7b", "\tchosen \x7b", s!"\t\tzephyr,shell-uart = &{uart};", "\t\x7d;",
      "\x7d;"]
  | none => ""

end BoardDesign.Board
