import BoardDesign.Text.Basic
/-!
Paths as texts, and the components that they are read as.

Repeated slashes, a slash at the end and a dot between two slashes name no component; a dot at the
beginning does.
-/

namespace BoardDesign.File.Path

inductive Component where
  | root
  | here
  | up
  | name (text : String)
deriving DecidableEq, Repr

/-- A path before its body, and the body as the pieces between slashes. -/
structure Parts where
  start : List Char
  body : List (List Char)

def isNothing (piece : List Char) : Bool := piece.isEmpty || piece == ['.']

def parts (path : String) : Parts :=
  match path.toList with
  | '/' :: rest => ⟨['/'], Text.pieces '/' rest⟩
  | ['.'] => ⟨['.'], [[]]⟩
  | '.' :: '/' :: rest => ⟨['.'], Text.pieces '/' ('/' :: rest)⟩
  | cs => ⟨[], Text.pieces '/' cs⟩

def Parts.text (p : Parts) : String := String.ofList (p.start ++ Text.joinPieces '/' p.body)

/-- The pieces without those at the end that name nothing. -/
def dropNothing (body : List (List Char)) : List (List Char) :=
  (body.reverse.dropWhile isNothing).reverse

def component (piece : List Char) : Component :=
  if piece = ['.', '.'] then .up else .name (String.ofList piece)

def components (path : String) : List Component :=
  let p := parts path
  let first :=
    match p.start with
    | ['/'] => [.root]
    | ['.'] => [.here]
    | _ => []
  first ++ (p.body.filter fun piece => !isNothing piece).map component

def isAbsolute (path : String) : Bool := path.toList.head? == some '/'

/-- The path without its last component; none for the root and for the empty path. -/
def parent? (path : String) : Option String :=
  let p := parts path
  match (dropNothing p.body).reverse with
  | _ :: before => some (Parts.text ⟨p.start, dropNothing before.reverse⟩)
  | [] => if p.start = ['.'] then some "" else none

/-- The last component if it is a name. -/
def fileName? (path : String) : Option String :=
  match (components path).getLast? with
  | some (.name text) => some text
  | _ => none

/-- A path below another one, or the second path alone if it is absolute. -/
def join (base path : String) : String :=
  if isAbsolute path || base.isEmpty then path
  else if base.toList.getLast? = some '/' then base ++ path
  else base ++ "/" ++ path

/-- The path with another last component. -/
def withFileName (path name : String) : String :=
  match fileName? path with
  | some _ => join ((parent? path).getD path) name
  | none => join path name

/-- The path of a sibling: a dot, the name of the path, a dot and a suffix. -/
def sibling (path suffix : String) : String :=
  withFileName path ("." ++ (fileName? path).getD "" ++ "." ++ suffix)

/-- A file name without its last dot and what follows it; a dot in front does not count. -/
def stem (name : String) : String :=
  match (name.toList.reverse.dropWhile (· != '.')).reverse with
  | [] => name
  | ['.'] => name
  | upToDot => if name = ".." then name else String.ofList upToDot.dropLast

/-- The path with another extension, if it names a file. -/
def withExtension (path ending : String) : String :=
  let p := parts path
  match fileName? path with
  | some name =>
    let cs := (Parts.text ⟨p.start, dropNothing p.body⟩).toList
    String.ofList (cs.take (cs.length - name.length)) ++ stem name ++ "." ++ ending
  | none => path

/-- Whether one component comes before another one: the kinds in the order of their declaration,
names in the order of their texts. -/
def Component.rank : Component → Nat × String
  | .root => (0, "")
  | .here => (1, "")
  | .up => (2, "")
  | .name text => (3, text)

def Component.before (a b : Component) : Bool :=
  a.rank.1 < b.rank.1 || (a.rank.1 == b.rank.1 && a.rank.2 < b.rank.2)

/-- Paths in the order of their components, a path before those below it. -/
def before : List Component → List Component → Bool
  | [], [] => false
  | [], _ :: _ => true
  | _ :: _, [] => false
  | a :: as, b :: bs => a.before b || (a == b && before as bs)

/-- Paths sorted by their components. -/
def sorted (paths : List String) : List String :=
  paths.mergeSort fun a b => !before (components b) (components a)

end BoardDesign.File.Path
