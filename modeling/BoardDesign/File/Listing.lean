import BoardDesign.File.Tree
import BoardDesign.Table
import BoardDesign.Text.Basic
/-!
Listings of file trees: the content of each file by its path, and each empty directory.

A directory with something in it follows from what is in it and has no entry of its own.
Permissions are not listed.
-/

namespace BoardDesign.File

/-- The path of an empty directory ends in a slash, and it has no content. -/
abbrev Listing := Table (Option (List UInt8))

namespace Tree

def pathText (l : Location) : String := Text.joinWith "/" l

/-- The listing of what lies below a location. -/
def listing (t : Tree) (top : Location) : Listing :=
  let nodes := (t.below top).filter fun e => !e.1.isEmpty
  let parents : Table Unit := Table.ofList (nodes.map fun e => (pathText e.1.dropLast, ()))
  Table.ofList (nodes.filterMap fun e =>
    let path := pathText e.1
    match e.2 with
    | .file content _ => some (path, some content)
    | .dir => if (parents.get? path).isSome then none else some (path ++ "/", none))

end Tree

/-- What became of an entry. -/
inductive Change where
  | written (content : List UInt8)
  | made
  | removed
deriving DecidableEq, Repr

namespace Listing

/-- Nothing is left of the entry and of what could have come to be below it. -/
def isGone (after : Listing) (entry : String × Option (List UInt8)) : Bool :=
  match entry.2 with
  | some _ => (after.get? entry.1).isNone
  | none => !after.keys.any fun k => Text.startsWith entry.1.toList k.toList

/-- What has to be done to get from one listing to another one. -/
def changes (before after : Listing) : List (String × Change) :=
  let new := (after.toList.filter fun e => before.get? e.1 ≠ some e.2).map fun e =>
    (e.1, (e.2.map Change.written).getD .made)
  let old := (before.toList.filter (isGone after)).map fun e => (e.1, .removed)
  new ++ old

end Listing

end BoardDesign.File
