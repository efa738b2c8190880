import BoardDesign.Board.Files
import BoardDesign.Proofs.App.Labels

/-!
# Labels of the application and labels of the board

Templates name the nodes of their lists by devicetree labels, so the overlay of the board should
define every listed label.

* `Overlay.Defines`: the overlay defines a label, and its text has the line that does so;
* `Written`: the overlay has something to write for a link of the root;
* `listed_labels_defined_iff`: every listed label is defined exactly if something is written for
  each listed neighbour of the root;
* `bare_labels_undefined`: a LED whose pin has no address is listed and not defined.
-/

namespace BoardDesign.Board

open Graph (ValidDesign NodeView RootLink validate)
open App (labelMap labelMap_eq builtinRules Counted countedNodes countedNodes_eq allLabels labelsOf
  pickedBy)

/-! ## Definitions in the text of an overlay -/

/-- A text after which a line can begin. -/
def EndsLine (text : String) : Prop := text = "" ∨ ∃ start, text = start ++ "\n"

/-- A text with a line. -/
def HasLine (text line : String) : Prop :=
  ∃ before after, text = before ++ (line ++ "\n") ++ after ∧ EndsLine before

/-- A label that a LED or a device of an overlay has, with the line of the text that defines it. -/
inductive Overlay.Defines (o : Overlay) (label : String) : Prop
  | led {index : Nat} {l : Led} (place : o.leds[index]? = some l) (labelled : l.label = label)
      (line : HasLine o.ledsText s!"\t\t{label}: led_{index} \x7b")
  | sensor {s : Sensor} {name : String} (mem : s ∈ o.sensors) (labelled : s.label = label)
      (line : HasLine o.sensorsText s!"\t{label}: {name} \x7b")

theorem EndsLine.append {text more : String} (h : EndsLine text) (h' : EndsLine more) :
    EndsLine (text ++ more) := by
  rcases h' with rfl | ⟨start, rfl⟩
  · rwa [String.append_empty]
  · exact .inr ⟨text ++ start, (String.append_assoc ..).symm⟩

theorem HasLine.within {text line before : String} (h : HasLine text line)
    (ends : EndsLine before) (after : String) : HasLine (before ++ text ++ after) line := by
  obtain ⟨first, last, rfl, ends'⟩ := h
  exact ⟨before ++ first, last ++ after, by simp only [String.append_assoc], ends.append ends'⟩

namespace Overlay

theorem textOf_append (xs ys : List String) : textOf (xs ++ ys) = textOf xs ++ textOf ys := by
  simp [textOf]

theorem textOf_singleton (line : String) : textOf [line] = line ++ "\n" := by
  simp [textOf]

theorem endsLine_textOf (lines : List String) : EndsLine (textOf lines) := by
  obtain rfl | ⟨before, last, rfl⟩ := lines.eq_nil_or_concat
  · exact .inl rfl
  · refine .inr ⟨textOf before ++ last, ?_⟩
    rw [List.concat_eq_append, textOf_append, textOf_singleton, String.append_assoc]

theorem hasLine_textOf {lines : List String} {line : String} (mem : line ∈ lines) :
    HasLine (textOf lines) line := by
  obtain ⟨before, after, rfl⟩ := List.append_of_mem mem
  refine ⟨textOf before, textOf after, ?_, endsLine_textOf before⟩
  rw [← textOf_singleton, ← textOf_append, ← textOf_append, List.append_assoc,
    List.singleton_append]

theorem mem_numberedLeds {leds : List Led} {index : Nat} {l : Led} (place : leds[index]? = some l)
    (start : Nat) : s!"\t\t{l.label}: led_{start + index} \x7b" ∈ numberedLeds start leds := by
  induction leds generalizing start index with
  | nil => simp at place
  | cons first rest ih =>
    rw [numberedLeds, List.mem_append]
    cases index with
    | zero =>
      cases place
      exact .inl (.head _)
    | succ index =>
      have later := ih place (start + 1)
      rw [Nat.add_assoc, Nat.add_comm 1] at later
      exact .inr later

theorem defines_of_led {o : Overlay} {l : Led} (mem : l ∈ o.leds) : o.Defines l.label := by
  obtain ⟨index, place⟩ := List.mem_iff_getElem?.mp mem
  refine .led place rfl ?_
  have nonempty : o.leds.isEmpty = false := by
    cases leds : o.leds with
    | nil => simp [leds] at mem
    | cons _ _ => rfl
  have line := mem_numberedLeds place 0
  rw [Nat.zero_add] at line
  rw [ledsText, nonempty]
  exact hasLine_textOf (by simp only [List.mem_append]; exact .inl (.inl (.inr line)))

theorem defines_of_sensor {o : Overlay} {s : Sensor} (mem : s ∈ o.sensors) :
    o.Defines s.label := by
  let name := s.name ++ (s.address.map fun a => "@" ++ hex a).getD ""
  have line : s!"\t{s.label}: {name} \x7b" ∈ o.sensors.flatMap sensorLines := by
    refine List.mem_flatMap.mpr ⟨s, mem, ?_⟩
    simp [name, sensorLines, toString, String.append_assoc]
  exact .sensor mem rfl (hasLine_textOf line)

theorem endsLine_ledsText (o : Overlay) : EndsLine o.ledsText := by
  unfold ledsText
  split
  · exact .inl rfl
  · exact endsLine_textOf _

/-- The line that defines a label is a line of the devicetree. -/
theorem Defines.hasLine_designDevicetree {g : ValidDesign} {label : String} (dts : String)
    (h : (ofLinks g.rootNeighbours).Defines label) :
    ∃ indent name : String, (indent = "\t" ∨ indent = "\t\t") ∧
      HasLine (designDevicetree g dts) s!"{indent}{label}: {name} \x7b" := by
  have title : EndsLine (dts ++ "\n\n// nodes from graph\n\n") :=
    .inr ⟨dts ++ "\n\n// nodes from graph\n", by rw [String.append_assoc]; rfl⟩
  cases h with
  | @led index _ _ _ line =>
    obtain ⟨name, named⟩ : ∃ name : String,
        s!"\t\t{label}: led_{index} \x7b" = s!"\t\t{label}: {name} \x7b" := by
      have literal : ": led_" = ": " ++ "led_" := rfl
      exact ⟨"led_" ++ toString index, by simp only [toString, literal, String.append_assoc]⟩
    rw [named] at line
    have written := line.within title
      ((ofLinks g.rootNeighbours).sensorsText ++ chosenBlock dts)
    refine ⟨"\t\t", name, .inr rfl, ?_⟩
    simpa only [designDevicetree, String.append_assoc] using written
  | @sensor _ name _ _ line =>
    refine ⟨"\t", name, .inl rfl, ?_⟩
    have written := line.within
      (title.append (endsLine_ledsText (ofLinks g.rootNeighbours))) (chosenBlock dts)
    simpa only [designDevicetree, String.append_assoc] using written

theorem defines_iff {o : Overlay} {label : String} :
    o.Defines label ↔ label ∈ o.definedLabels := by
  simp only [definedLabels, List.mem_append, List.mem_map]
  constructor
  · rintro (⟨place, rfl, _⟩ | ⟨mem, rfl, _⟩)
    · exact .inl ⟨_, List.mem_of_getElem? place, rfl⟩
    · exact .inr ⟨_, mem, rfl⟩
  · rintro (⟨l, mem, rfl⟩ | ⟨s, mem, rfl⟩)
    · exact defines_of_led mem
    · exact defines_of_sensor mem

end Overlay

/-! ## What is listed and what is written -/

/-- One of the built-in rules picks the node. -/
def Listed (v : NodeView) : Prop :=
  NodeRule.leds.matchesType v.type ∨ NodeRule.thermometers.matchesType v.type

/-- The overlay has something to write for a neighbour of the root: it is a LED with an address
for its pin, or another node that has `compatible` strings. -/
def Written (v : NodeView) : Prop :=
  if NodeRule.leds.matchesType v.type then (v.interfaceAddress "gpio").isSome = true
  else v.type.compats ≠ []

theorem mem_definedLabels_iff {links : List RootLink} {label : String} :
    label ∈ (Overlay.ofLinks links).definedLabels ↔
      ∃ l ∈ links, Written l.node ∧ l.node.label = label := by
  simp only [Overlay.definedLabels, Overlay.ofLinks, List.mem_append, List.mem_map,
    List.mem_filterMap, List.mem_filter]
  constructor
  · rintro (⟨led, ⟨l, ⟨mem, isLed⟩, made⟩, rfl⟩ | ⟨sensor, ⟨l, ⟨mem, isSensor⟩, rfl⟩, rfl⟩)
    · obtain ⟨pin, address, rfl⟩ := Option.map_eq_some_iff.mp made
      rw [Board.isLed] at isLed
      exact ⟨l, mem, by simp [Written, isLed, address], rfl⟩
    · simp only [Board.isSensor, isLed, Bool.and_eq_true, Bool.not_eq_true'] at isSensor
      exact ⟨l, mem, by simpa [Written, isSensor.1] using isSensor.2, rfl⟩
  · rintro ⟨l, mem, written, rfl⟩
    by_cases led : NodeRule.leds.matchesType l.node.type
    · rw [Written, if_pos led, Option.isSome_iff_exists] at written
      obtain ⟨pin, address⟩ := written
      exact .inl ⟨_, ⟨l, ⟨mem, led⟩, by simp [ledOf?, address]; rfl⟩, rfl⟩
    · rw [Written, if_neg led] at written
      exact .inr ⟨_, ⟨l, ⟨mem, by simpa [isSensor, isLed, led] using written⟩, rfl⟩, rfl⟩

theorem builtinRules_values : builtinRules.values = [.leds, .thermometers] := by decide

theorem pickedBy_builtinRules {v : NodeView} : pickedBy builtinRules v = true ↔ Listed v := by
  simp [pickedBy, builtinRules_values, Listed]

/-- The labels in the lists of the built-in rules are those of the counted nodes that are
listed. -/
theorem mem_labelMap_iff {g : ValidDesign} {label : String} :
    (∃ name labels, (labelMap g builtinRules).get? name = some labels ∧ label ∈ labels) ↔
      ∃ v ∈ countedNodes g, Listed v ∧ v.label = label := by
  simp only [labelMap_eq, Table.get?_insert, Table.get?_map]
  constructor
  · rintro ⟨name, labels, found, mem⟩
    split at found
    · cases found
      simpa [pickedBy_builtinRules, and_assoc] using mem
    · obtain ⟨rule, known, rfl⟩ := Option.map_eq_some_iff.mp found
      have rules := Table.mem_values_of_get? known
      rw [builtinRules_values] at rules
      simp only [labelsOf, List.mem_map, List.mem_filter] at mem
      obtain ⟨v, ⟨counted, picked⟩, rfl⟩ := mem
      refine ⟨v, counted, ?_, rfl⟩
      simp only [List.mem_cons, List.not_mem_nil, or_false] at rules
      obtain rfl | rfl := rules
      · exact .inl picked
      · exact .inr picked
  · rintro ⟨v, counted, listed, rfl⟩
    refine ⟨allLabels, _, if_pos rfl, ?_⟩
    simp only [List.mem_map, List.mem_filter]
    exact ⟨v, ⟨counted, pickedBy_builtinRules.mpr listed⟩, rfl⟩

section Valid

variable {d : Design} {c : EffectiveCatalog} {g : ValidDesign} (valid : validate d c = .ok g)
  (root : g.boardRoot?.isSome)
include valid root

/-- With a board root the neighbours of the root count. -/
theorem mem_countedNodes_iff {v : NodeView} :
    v ∈ countedNodes g ↔ ∃ l ∈ g.rootNeighbours, l.node = v := by
  obtain ⟨r, found⟩ := Option.isSome_iff_exists.mp root
  simp only [countedNodes_eq valid, Counted, found, reduceCtorEq, false_or, List.mem_filter,
    decide_eq_true_eq]
  constructor
  · exact And.right
  · rintro ⟨l, wired, rfl⟩
    exact ⟨ValidDesign.mem_nodes_of_link wired, l, wired, rfl⟩

/-- Every label in a list of the built-in rules is defined by the overlay, exactly if the overlay
has something to write for each listed neighbour of the root. -/
theorem listed_labels_defined_iff :
    (∀ name labels, (labelMap g builtinRules).get? name = some labels → ∀ label ∈ labels,
        (Overlay.ofLinks g.rootNeighbours).Defines label) ↔
      ∀ l ∈ g.rootNeighbours, Listed l.node → Written l.node := by
  simp only [Overlay.defines_iff, mem_definedLabels_iff]
  constructor
  · intro defined l wired listed
    obtain ⟨name, labels, found, mem⟩ := mem_labelMap_iff.mpr
      ⟨l.node, (mem_countedNodes_iff valid root).mpr ⟨l, wired, rfl⟩, listed, rfl⟩
    obtain ⟨l', wired', written, same⟩ := defined name labels found l.node.label mem
    have node : l'.node = l.node := ValidDesign.eq_of_label valid
      (ValidDesign.mem_nodes_of_link wired') (ValidDesign.mem_nodes_of_link wired) same
    exact node ▸ written
  · intro written name labels found label mem
    obtain ⟨v, counted, listed, rfl⟩ := mem_labelMap_iff.mp ⟨name, labels, found, mem⟩
    obtain ⟨l, wired, rfl⟩ := (mem_countedNodes_iff valid root).mp counted
    exact ⟨l, wired, written l wired listed, rfl⟩

end Valid

/-- A controller, a LED and a thermometer: the types have neither addresses nor `compatible`
strings. -/
def bareCatalog : Catalog :=
  let type (name category : String) (interfaces : List String) : NodeType :=
    ⟨name, some category, [], interfaces.map fun i => ⟨i, .inout, none, ⟨[]⟩, none, .empty⟩,
      false, false, [], .empty, none, .empty⟩
  ⟨.empty, [type "MCU" "SoC/MCU" ["gpioa", "i2c1"], type "LED" "IO/LED" ["gpio"],
    type "Thermometer" "Sensors/Thermometer" ["i2c"]], .empty⟩

/-- The LED and the thermometer wired to the controller. -/
def bareDesign : Design :=
  let d := ((Design.empty.addNode "MCU" "mcu").1.addNode "LED" "led0").1
  let d := (d.addNode "Thermometer" "thermo0").1
  ((d.connect ⟨1, "gpio"⟩ ⟨0, "gpioa"⟩).1.connect ⟨2, "i2c"⟩ ⟨0, "i2c1"⟩).1

/-- The types of the catalog; none inherits. -/
def bareTypes : EffectiveCatalog :=
  ⟨bareCatalog, Table.ofList (bareCatalog.nodes.map fun t => (t.name, t))⟩

def bareBoard : ValidDesign :=
  ⟨bareDesign, bareTypes, Graph.viewsFrom bareTypes 0 bareDesign.nodes, some 0⟩

theorem listed_labels_defined_iff_bareBoard :
    validate bareDesign bareTypes = .ok bareBoard ∧ bareBoard.boardRoot?.isSome ∧
      ((∀ name labels, (labelMap bareBoard builtinRules).get? name = some labels →
          ∀ label ∈ labels, (Overlay.ofLinks bareBoard.rootNeighbours).Defines label) ↔
        ∀ l ∈ bareBoard.rootNeighbours, Listed l.node → Written l.node) :=
  ⟨by decide, by decide,
    listed_labels_defined_iff (d := bareDesign) (c := bareTypes) (by decide) (by decide)⟩

/-- A LED whose pin has no address and a thermometer without `compatible` strings are listed, and
the overlay defines neither. -/
theorem bare_labels_undefined :
    bareCatalog.compose [] = .ok bareTypes ∧ validate bareDesign bareTypes = .ok bareBoard ∧
      bareBoard.boardRoot?.isSome ∧
      (labelMap bareBoard builtinRules).get? "leds" = some ["led0"] ∧
      (labelMap bareBoard builtinRules).get? "thermometers" = some ["thermo0"] ∧
      ¬ (Overlay.ofLinks bareBoard.rootNeighbours).Defines "led0" ∧
      ¬ (Overlay.ofLinks bareBoard.rootNeighbours).Defines "thermo0" := by
  refine ⟨by decide, by decide, by decide, by decide, by decide, ?_, ?_⟩
  · rw [Overlay.defines_iff]
    decide
  · rw [Overlay.defines_iff]
    decide

end BoardDesign.Board
