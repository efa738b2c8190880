import BoardDesign.App.LabelMap
import BoardDesign.Toml.Document
/-!
The rules for label lists that a template brings along, in a file of its own.
-/

namespace BoardDesign.App

open Toml (Item Entries)

/-- The file of a template that holds its rules; it is no part of the application. -/
def rulesFile : String := "template.toml"

/-- A list of texts that may be left out. -/
def textsOrNone (item : Option Item) : Option (List String) :=
  match item with
  | none => some []
  | some x => x.strings?

/-- A rule is a table, or the list of its values in order. -/
def ruleOfItem? : Item → Option NodeRule
  | .table _ entries =>
    if entries.all fun e => e.1 == "categories" || e.1 == "models" then do
      let categories ← textsOrNone (findEntry "categories" entries)
      let models ← textsOrNone (findEntry "models" entries)
      some ⟨categories, models⟩
    else none
  | .list items => do
    let categories ← textsOrNone items[0]?
    let models ← textsOrNone items[1]?
    some ⟨categories, models⟩
  | _ => none

/-- The rules in the entries of a document, which holds nothing else. -/
def listsOf? (entries : Entries) : Option (Table NodeRule) := do
  if !entries.all fun e => e.1 == "lists" then none
  else
    match findEntry "lists" entries with
    | none => some Table.empty
    | some lists =>
      let rules ← (← lists.entries?).mapM fun e => (ruleOfItem? e.2).map fun r => (e.1, r)
      some (Table.ofList rules)

/-- The rules that a text holds. -/
def readLists? (text : String) : Option (Table NodeRule) := (Toml.parse text).bind listsOf?

end BoardDesign.App
