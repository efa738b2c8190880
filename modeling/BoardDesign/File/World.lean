import BoardDesign.File.Fault
import BoardDesign.File.Path
import BoardDesign.File.Tree
import BoardDesign.Text.Hex
import BoardDesign.Text.Utf8
/-!
The world that the program acts on: a file tree, the working directory, a supply of names that
nobody else has, the processes that run, a clock, and what has been printed.

Each operation but the making and removing of many directories at once either has its whole effect
or fails with a fault and has none. Names are resolved
component by component, so a missing or misplaced directory on the way is found first.
-/

namespace BoardDesign

open File

/-- Where a process writes. -/
inductive Stream where
  | out
  | err
  /-- The connection to the diagram editor. -/
  | editor
deriving DecidableEq, Repr

structure World where
  files : Tree
  here : Location
  /-- How many fresh names have been handed out. -/
  serial : Nat
  /-- The numbers of the running processes. -/
  processes : List Nat
  /-- Milliseconds since some moment. -/
  clock : Nat
  /-- In the order of printing. -/
  console : List (Stream × List UInt8)
deriving DecidableEq, Repr, Inhabited

/-- An action changes the world also when it fails. -/
abbrev Action (ε : Type) := ExceptT ε (StateM World)

namespace World

/-- The longest name of a file, in bytes. -/
def longestName : Nat := 255

/-- The components of a path between slashes. -/
def names (path : String) : List String :=
  ((Text.pieces '/' path.toList).filter fun p => !p.isEmpty).map String.ofList

def endsWithSlash (path : String) : Bool := path.toList.getLast? == some '/'

def isDirAt (w : World) (l : Location) : Bool := w.files.find? l == some .dir

/-- One component of a path from a location that exists. -/
def step (w : World) (l : Location) (name : String) : Except Fault Location :=
  if !w.isDirAt l then .error .notDirectory
  else if name = "." then .ok l
  else if name = ".." then .ok l.dropLast
  else if longestName < name.utf8ByteSize then .error .nameTooLong
  else if (w.files.find? (l ++ [name])).isSome then .ok (l ++ [name])
  else .error .notFound

def walk (w : World) (l : Location) : List String → Except Fault Location
  | [] => .ok l
  | name :: rest => (w.step l name).bind fun l => w.walk l rest

/-- Where the resolution of a path begins, unless the path cannot be one. -/
def origin (w : World) (path : String) : Except Fault Location :=
  if path.toList.contains '\x00' then .error .nulInPath
  else if path.isEmpty then .error .notFound
  else if Path.isAbsolute path then .ok []
  else .ok w.here

/-- The location of something that exists. -/
def locate (w : World) (path : String) : Except Fault Location := do
  let l ← w.walk (← w.origin path) (names path)
  if endsWithSlash path && !w.isDirAt l then .error .notDirectory else .ok l

/-- The directory and the last name of a path at which something may be made; a path that ends in
no name has its own location. -/
def locateNew (w : World) (path : String) : Except Fault (Sum Location (Location × String)) := do
  let start ← w.origin path
  match (names path).reverse with
  | [] => .ok (.inl start)
  | last :: before =>
    let l ← w.walk start before.reverse
    if last = "." || last = ".." then .ok (.inl (← w.step l last))
    else if !w.isDirAt l then .error .notDirectory
    else if longestName < last.utf8ByteSize then .error .nameTooLong
    else .ok (.inr (l, last))

def nodeAt (w : World) (path : String) : Except Fault Node :=
  (w.locate path).map fun l => (w.files.find? l).getD .dir

def doesExist (w : World) (path : String) : Bool := (w.locate path).toOption.isSome

def isDir (w : World) (path : String) : Bool := (w.nodeAt path).toOption == some .dir

def isFile (w : World) (path : String) : Bool :=
  match w.nodeAt path with
  | .ok (.file _ _) => true
  | _ => false

def bytesAt (w : World) (path : String) : Except Fault (List UInt8) := do
  match ← w.nodeAt path with
  | .file content _ => .ok content
  | .dir => .error .isDirectory

def textAt (w : World) (path : String) : Except Fault String := do
  match Text.Utf8.text? (← w.bytesAt path) with
  | some s => .ok s
  | none => .error .notText

/-- The names in a directory, in their order. -/
def entriesAt (w : World) (path : String) : Except Fault (List String) := do
  let l ← w.locate path
  if w.isDirAt l then .ok (w.files.children l) else .error .notDirectory

/-- The absolute path of a location. -/
def locationText (l : Location) : String :=
  if l.isEmpty then "/" else String.join (l.map fun name => "/" ++ name)

/-- The absolute path of something that exists, without dots and needless slashes. -/
def canonical (w : World) (path : String) : Except Fault String :=
  (w.locate path).map locationText

/-- The content of a file set; a new file is made if there is none. -/
def write (w : World) (path : String) (content : List UInt8) : Except Fault World := do
  match ← w.locateNew path with
  | .inl _ => .error .isDirectory
  | .inr (l, name) =>
    match w.files.find? (l ++ [name]) with
    | some .dir => .error .isDirectory
    | some (.file _ executable) =>
      if endsWithSlash path then .error .notDirectory
      else .ok { w with files := w.files.insert (l ++ [name]) (.file content executable) }
    | none =>
      if endsWithSlash path then .error .isDirectory
      else .ok { w with files := w.files.insert (l ++ [name]) (.file content false) }

/-- A file that must not be there yet. -/
def create (w : World) (path : String) (content : List UInt8) : Except Fault World := do
  match ← w.locateNew path with
  | .inl _ => .error .exists
  | .inr (l, name) =>
    if (w.files.find? (l ++ [name])).isSome then .error .exists
    else if endsWithSlash path then .error .isDirectory
    else .ok { w with files := w.files.insert (l ++ [name]) (.file content false) }

def makeDir (w : World) (path : String) : Except Fault World := do
  match ← w.locateNew path with
  | .inl _ => .error .exists
  | .inr (l, name) =>
    if (w.files.find? (l ++ [name])).isSome then .error .exists
    else .ok { w with files := w.files.insert (l ++ [name]) .dir }

/-- A directory made, and before it those above it that are missing. `fuel` bounds how many
directories a path can name. -/
def makeDirsFrom (w : World) (path : String) : Nat → Except Fault Unit × World
  | 0 => (.error .notFound, w)
  | fuel + 1 =>
    if path.isEmpty then (.ok (), w)
    else
      match w.makeDir path with
      | .ok w => (.ok (), w)
      | .error .notFound =>
        match (Path.parent? path).map fun p => w.makeDirsFrom p fuel with
        | some (.ok (), w) =>
          match w.makeDir path with
          | .ok w => (.ok (), w)
          | .error e => if w.isDir path then (.ok (), w) else (.error e, w)
        | some (.error e, w) => (.error e, w)
        | none => (.error .notFound, w)
      | .error e => if w.isDir path then (.ok (), w) else (.error e, w)

def makeDirs (w : World) (path : String) : Except Fault Unit × World :=
  w.makeDirsFrom path (path.length + 1)

def removeFile (w : World) (path : String) : Except Fault World := do
  let l ← w.locate path
  if w.isDirAt l then .error .isDirectory else .ok { w with files := w.files.erase l }

/-- A directory without anything in it. -/
def emptyDir (w : World) (l : Location) : World :=
  let files := w.files.eraseBelow l
  { w with files := if l.isEmpty then files else files.insert l .dir }

/-- A directory removed with all that is in it. One that is not called by its name is emptied and
stays; if the way to it led through what was in it there is nothing to complain of. -/
def removeDir (w : World) (path : String) : Except Fault Unit × World :=
  match w.locate path with
  | .error e => (.error e, w)
  | .ok l =>
    if !w.isDirAt l then (.error .notDirectory, w)
    else
      match (names path).reverse with
      | [] => (.error .busy, w.emptyDir l)
      | last :: before =>
        if last = "." then (.error .invalidArgument, w.emptyDir l)
        else if last = ".." then
          (if before.isEmpty then .error .notEmpty else .ok (), w.emptyDir l)
        else (.ok (), { w with files := w.files.eraseBelow l })

/-- A file or directory moved in one step over what is at the new place: a file over a file, a
directory over an empty directory. -/
def rename (w : World) (source target : String) : Except Fault World := do
  let old ← w.locateNew source
  let new ← w.locateNew target
  match old, new with
  | .inr (l, name), .inr (m, other) =>
    let a := l ++ [name]
    let b := m ++ [other]
    match w.files.find? a with
    | none => .error .notFound
    | some node =>
      let isDir := node == .dir
      if !isDir && (endsWithSlash source || endsWithSlash target) then .error .notDirectory
      else if a ≠ b && Tree.isBelow a b then .error .invalidArgument
      else if a ≠ b && Tree.isBelow b a then .error .notEmpty
      else if a = b then .ok w
      else
        match w.files.find? b with
        | none => .ok { w with files := w.files.move a b }
        | some .dir =>
          if !isDir then .error .isDirectory
          else if (w.files.children b).isEmpty then .ok { w with files := w.files.move a b }
          else .error .notEmpty
        | some (.file _ _) =>
          if isDir then .error .notDirectory else .ok { w with files := w.files.move a b }
  | _, _ => .error .busy

/-- A second name for a file; it fails if the name is taken. -/
def link (w : World) (source target : String) : Except Fault World := do
  let node ← w.nodeAt source
  match ← w.locateNew target with
  | .inl _ => .error .exists
  | .inr (l, name) =>
    if (w.files.find? (l ++ [name])).isSome then .error .exists
    else .ok { w with files := w.files.insert (l ++ [name]) node }

/-- The content of a file and its permission to run copied to another file. The target is emptied
before the source is read, so a file copied to itself is empty. -/
def copy (w : World) (source target : String) : Except Fault World := do
  match ← w.nodeAt source with
  | .dir => .error .notRegular
  | .file _ executable =>
    let w ← w.write target []
    let l ← w.locate target
    let content ← w.bytesAt source
    .ok { w with files := w.files.insert l (.file content executable) }

/-- The text of the `n`-th fresh name, in groups of 8, 4, 4, 4 and 12 hexadecimal digits. -/
def tokenText (n : Nat) : String :=
  let digits := Text.Hex.ofNat n
  "00000000-0000-4000-8000-" ++
    String.ofList (List.replicate (12 - digits.length) '0' ++ digits)

/-- A name that nobody else has. -/
def fresh (w : World) : String × World := (tokenText w.serial, { w with serial := w.serial + 1 })

def print (w : World) (written : List (Stream × List UInt8)) : World :=
  { w with console := w.console ++ written }

/-- All that was printed to a stream. -/
def printed (w : World) (s : Stream) : List UInt8 :=
  (w.console.filter fun c => c.1 == s).flatMap (·.2)

end World

namespace Action

variable {ε δ α : Type}

/-- What an operation reads from the world. -/
def reading (f : World → Except ε α) : Action ε α := fun w => (f w, w)

/-- An operation that changes the world or fails. -/
def changing (f : World → Except ε World) : Action ε Unit := fun w =>
  match f w with
  | .ok w' => (.ok (), w')
  | .error e => (.error e, w)

def ofPair (f : World → Except ε α × World) : Action ε α := f

/-- The same action with another account of its failures. -/
def mapError (f : ε → δ) (a : Action ε α) : Action δ α := fun w =>
  match a w with
  | (.ok x, w) => (.ok x, w)
  | (.error e, w) => (.error (f e), w)

/-- The outcome as a value; the action does not fail. -/
def attempt (a : Action ε α) : Action δ (Except ε α) := fun w =>
  match a w with
  | (r, w) => (.ok r, w)

/-- Done for its effect; a failure is passed over. -/
def ignoring (a : Action ε α) : Action δ Unit := fun w =>
  match a w with
  | (_, w) => (.ok (), w)

def ofExcept (r : Except ε α) : Action ε α := fun w => (r, w)

/-- A question about the world. -/
def ask (f : World → α) : Action ε α := fun w => (.ok (f w), w)

/-- A change that cannot fail. -/
def modifying (f : World → World) : Action ε Unit := fun w => (.ok (), f w)

def print (s : Stream) (text : String) : Action ε Unit :=
  modifying (·.print [(s, Text.Utf8.bytes text)])

def clock : Action ε Nat := ask (·.clock)

def doesExist (path : String) : Action ε Bool := ask (·.doesExist path)

def isDir (path : String) : Action ε Bool := ask (·.isDir path)

def isFile (path : String) : Action ε Bool := ask (·.isFile path)

def readBytes (path : String) : Action Fault (List UInt8) := reading (·.bytesAt path)

def readText (path : String) : Action Fault String := reading (·.textAt path)

def readDir (path : String) : Action Fault (List String) := reading (·.entriesAt path)

def canonical (path : String) : Action Fault String := reading (·.canonical path)

def writeBytes (path : String) (content : List UInt8) : Action Fault Unit :=
  changing (·.write path content)

def writeText (path text : String) : Action Fault Unit :=
  writeBytes path (Text.Utf8.bytes text)

def create (path : String) (content : List UInt8) : Action Fault Unit :=
  changing (·.create path content)

def makeDir (path : String) : Action Fault Unit := changing (·.makeDir path)

def makeDirs (path : String) : Action Fault Unit := ofPair (·.makeDirs path)

def removeFile (path : String) : Action Fault Unit := changing (·.removeFile path)

def removeDir (path : String) : Action Fault Unit := ofPair (·.removeDir path)

def rename (source target : String) : Action Fault Unit := changing (·.rename source target)

def link (source target : String) : Action Fault Unit := changing (·.link source target)

def copy (source target : String) : Action Fault Unit := changing (·.copy source target)

end Action

end BoardDesign
