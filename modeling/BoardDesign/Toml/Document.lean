import BoardDesign.Table
import BoardDesign.Toml.Text
/-!
TOML documents of strings, lists and tables; a document with any other value is not read.

A table is opened by its header, implied by a header or a key below it, or written as a value.
Each table is opened once, and a key adds only to the table that it stands in and to those that
such keys have made.
-/

namespace BoardDesign.Toml

/-- How a table came to be. -/
inductive Origin where
  | value
  | header
  /-- A header of a table below it. -/
  | impliedByHeader
  /-- A key with dots. -/
  | impliedByKey
deriving DecidableEq, Repr

inductive Item where
  | text (s : String)
  | list (items : List Item)
  | table (origin : Origin) (entries : List (String × Item))
  /-- Tables of one name, each with a header of its own. -/
  | tables (items : List (List (String × Item)))
deriving Repr, Inhabited

abbrev Entries := List (String × Item)

namespace Entries

/-- The entry of a name put in the place of the old one, or at the end. -/
def put (name : String) (item : Item) : Entries → Entries
  | [] => [(name, item)]
  | (k, x) :: rest => if k = name then (k, item) :: rest else (k, x) :: put name item rest

/-- An entry of a new name. -/
def add (name : String) (item : Item) (entries : Entries) : Option Entries :=
  if (findEntry name entries).isSome then none else some (entries ++ [(name, item)])

/-- The entries with a change in the table that a path leads to. Missing tables on the way are
made; of several tables of one name the last one counts. -/
def within (implied : Origin) (change : Origin → Entries → Option Entries) :
    List String → Origin → Entries → Option Entries
  | [], origin, entries => change origin entries
  | name :: path, _, entries =>
    match findEntry name entries with
    | none =>
      (within implied change path implied []).map fun t => entries ++ [(name, .table implied t)]
    | some (.table origin t) =>
      if origin = .value || (implied = .impliedByKey && origin = .header) then none
      else
        (within implied change path origin t).map fun t => put name (.table origin t) entries
    | some (.tables ts) =>
      match ts.reverse with
      | [] => none
      | last :: before =>
        (within implied change path .header last).map fun t =>
          put name (.tables (before.reverse ++ [t])) entries
    | some _ => none

/-- A key and its value added to the table it stands in. -/
def addKey (path : List String) (name : String) (item : Item) (entries : Entries) :
    Option Entries :=
  within .impliedByKey
    (fun origin t => if path.isEmpty || origin = .impliedByKey then add name item t else none)
    path .header entries

/-- A table opened by a header of its own. -/
def openTable (path : List String) (name : String) (entries : Entries) : Option Entries :=
  within .impliedByHeader
    (fun _ t =>
      match findEntry name t with
      | none => add name (.table .header []) t
      | some (.table .impliedByHeader inner) => some (put name (.table .header inner) t)
      | some _ => none)
    path .header entries

/-- One more table of a name opened by a header. -/
def openNext (path : List String) (name : String) (entries : Entries) : Option Entries :=
  within .impliedByHeader
    (fun _ t =>
      match findEntry name t with
      | none => add name (.tables [[]]) t
      | some (.tables ts) => some (put name (.tables (ts ++ [[]])) t)
      | some _ => none)
    path .header entries

end Entries

/-- A path without its last name, and the last name. -/
def splitLast? (path : List String) : Option (List String × String) :=
  match path.reverse with
  | [] => none
  | last :: before => some (before.reverse, last)

mutual

def readValue : Nat → List Char → Option (Item × List Char)
  | 0, _ => none
  | fuel + 1, cs =>
    match cs with
    | '[' :: r => (readItems fuel r).map fun b => (.list b.1, b.2)
    | '\x7b' :: r =>
      match skipSpace r with
      | '\x7d' :: r => some (.table .value [], r)
      | r => (readPairs fuel [] r).map fun b => (.table .value b.1, b.2)
    | cs => (string? cs).map fun b => (.text (String.ofList b.1), b.2)

/-- The items of a list up to its closing bracket. -/
def readItems : Nat → List Char → Option (List Item × List Char)
  | 0, _ => none
  | fuel + 1, cs =>
    match skipLines cs.length cs with
    | ']' :: r => some ([], r)
    | r =>
      match readValue fuel r with
      | none => none
      | some (x, r) =>
        match skipLines r.length r with
        | ',' :: r => (readItems fuel r).map fun b => (x :: b.1, b.2)
        | ']' :: r => some ([x], r)
        | _ => none

/-- The keys and values of a table up to its closing brace, added to those read before. -/
def readPairs : Nat → Entries → List Char → Option (Entries × List Char)
  | 0, _, _ => none
  | fuel + 1, done, cs =>
    match readPair fuel cs with
    | none => none
    | some (path, name, x, r) =>
      match Entries.addKey path name x done with
      | none => none
      | some done =>
        match skipSpace r with
        | ',' :: r => readPairs fuel done r
        | '\x7d' :: r => some (done, r)
        | _ => none

/-- A key, its value and the rest. -/
def readPair : Nat → List Char → Option (List String × String × Item × List Char)
  | 0, _ => none
  | fuel + 1, cs =>
    match key? cs with
    | some (key, '=' :: r) =>
      match splitLast? key, readValue fuel (skipSpace r) with
      | some (path, name), some (x, r) => some (path, name, x, r)
      | _, _ => none
    | _ => none

end

/-- A header's key up to its closing brackets. -/
def header? (close : List Char) (cs : List Char) :
    Option ((List String × String) × List Char) := do
  let (key, r) ← key? cs
  let r ← Text.after close r
  let r ← endOfLine? r
  let split ← splitLast? key
  some (split, r)

/-- The lines of a document from one on; `here` is the path of the table they stand in. -/
def readLines : Nat → List String → Entries → List Char → Option Entries
  | 0, _, _, _ => none
  | fuel + 1, here, done, cs =>
    match skipLines cs.length cs with
    | [] => some done
    | '[' :: '[' :: r =>
      match header? [']', ']'] r with
      | none => none
      | some ((path, name), r) =>
        (Entries.openNext path name done).bind fun done =>
          readLines fuel (path ++ [name]) done r
    | '[' :: r =>
      match header? [']'] r with
      | none => none
      | some ((path, name), r) =>
        (Entries.openTable path name done).bind fun done =>
          readLines fuel (path ++ [name]) done r
    | r =>
      match readPair (2 * r.length + 2) r with
      | none => none
      | some (path, name, x, r) =>
        match endOfLine? r with
        | none => none
        | some r =>
          let change := fun (_ : Origin) (t : Entries) => Entries.addKey path name x t
          (Entries.within .impliedByHeader change here .header done).bind fun done =>
            readLines fuel here done r

/-- The tables and values of a document. -/
def parse (text : String) : Option Entries :=
  let cs := text.toList
  let cs := if cs.head? = some '\uFEFF' then cs.tail else cs
  readLines (cs.length + 1) [] [] cs

namespace Item

def str? : Item → Option String
  | .text s => some s
  | _ => none

def strings? : Item → Option (List String)
  | .list items => items.mapM str?
  | _ => none

def entries? : Item → Option Entries
  | .table _ entries => some entries
  | _ => none

end Item

end BoardDesign.Toml
