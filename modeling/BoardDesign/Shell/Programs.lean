import BoardDesign.Shell.Machine
import BoardDesign.Shell.Utility
/-!
The utilities that scripts call as programs, and where programs are found.
-/

namespace BoardDesign.Shell

open File (Fault)
open File.Path (join)

/-- The utilities that there are. -/
def utilities : List String :=
  ["sh", "dash", "bash", "env", "true", "false", "echo", "printf", "pwd", "test", "[", "sleep",
    "mkdir", "rmdir", "touch", "rm", "cp", "mv", "cat", "ls", "basename", "dirname", "seq", "kill",
    "chmod", "wc"]

/-- Where the utilities are. -/
def utilityDir : String := "/bin"

/-- The directories in which programs are looked for unless the environment says otherwise. -/
def usualPath : String := "/usr/local/sbin:/usr/local/bin:/usr/sbin:/usr/bin:/sbin:/bin"

/-- The tree with an empty file in a directory. -/
def addFile (dir : String) (executable : Bool) (t : File.Tree) (name : String) : File.Tree :=
  t.insert [dir, name] (.file [] executable)

/-- A world with the utilities in it. -/
def install (w : World) : World :=
  let dirs := [["bin"], ["usr"], ["usr", "bin"], ["tmp"], ["dev"]]
  let tree := dirs.foldl (fun t l => t.insert l .dir) w.files
  let tree := utilities.foldl (addFile "bin" true) tree
  { w with files := addFile "dev" false tree "null" }

/-- The first of some paths at which there is an executable file, or the fault of what there
is. -/
def firstProgram (w : World) (denied : Bool) : List String → Except Fault String
  | [] => .error (if denied then .permissionDenied else .notFound)
  | path :: rest =>
    match w.nodeAt path with
    | .ok (.file _ true) => .ok path
    | .ok _ => firstProgram w true rest
    | .error .permissionDenied => firstProgram w true rest
    | .error _ => firstProgram w denied rest

/-- The path of a program: itself if it has a slash, else one found in the search path. -/
def findProgram (w : World) (searchPath program : String) : Except Fault String :=
  if program.toList.contains '/' then
    match w.nodeAt program with
    | .ok (.file _ true) => .ok program
    | .ok _ => .error .permissionDenied
    | .error e => .error e
  else if program.isEmpty then .error .notFound
  else
    firstProgram w false
      ((Text.pieces ':' searchPath.toList).map fun d => join (String.ofList d) program)

/-- What has to be run for an executable file. -/
inductive Executable where
  | utility (name : String)
  /-- A program that gets an argument, or none, and the path of the script. -/
  | script (interpreter : String) (argument : Option String)
deriving DecidableEq, Repr

def executableAt (w : World) (path : String) : Except Fault Executable :=
  match w.bytesAt path with
  | .error e => .error e
  | .ok content =>
    match (Text.Utf8.lossy content).toList with
    | '#' :: '!' :: rest =>
      let line := Text.trim (rest.takeWhile (· != '\n'))
      let interpreter := line.takeWhile fun c => !Text.isBlank c
      let argument := Text.trim (line.dropWhile fun c => !Text.isBlank c)
      .ok (.script (String.ofList interpreter)
        (if argument.isEmpty then none else some (String.ofList argument)))
    | [] =>
      let name := baseName path
      if path = join utilityDir name && utilities.contains name then .ok (.utility name)
      else .error .badFormat
    | _ => .error .badFormat

/-! The utilities. -/

/-- The text of a fault without its number. -/
def faultText (f : Fault) : String :=
  match Text.cut " (os error".toList f.message.toList with
  | some (before, _) => String.ofList before
  | none => f.message

/-- The options and the other arguments. -/
def splitOptions : List String → List Char × List String
  | [] => ([], [])
  | "--" :: rest => ([], rest)
  | a :: rest =>
    match a.toList with
    | '-' :: c :: cs =>
      let (options, others) := splitOptions rest
      (c :: cs ++ options, others)
    | _ =>
      let (options, others) := splitOptions rest
      (options, a :: others)

/-- A change of the world for each argument; one that fails is complained about. -/
def eachPath (s : Surroundings) (account : String → Fault → String)
    (f : World → String → Except Fault World) (m : Machine) (paths : List String) : Machine :=
  paths.foldl
    (fun m path =>
      match f m.world path with
      | .ok w => { m with world := w }
      | .error e => m.complain s (account path e) 1)
    (m.setStatus 0)

def touch (w : World) (path : String) : Except Fault World :=
  if w.doesExist path then .ok w else w.write path []

def makeDirs (w : World) (path : String) : Except Fault World :=
  match w.makeDirs path with
  | (.ok (), w) => .ok w
  | (.error e, _) => .error e

def removeDir (w : World) (path : String) : Except Fault World :=
  match w.removeDir path with
  | (.ok (), w) => .ok w
  | (.error e, _) => .error e

def remove (all force : Bool) (w : World) (path : String) : Except Fault World :=
  match w.removeFile path with
  | .ok w => .ok w
  | .error .isDirectory => if all then removeDir w path else .error .isDirectory
  | .error .notFound => if force then .ok w else .error .notFound
  | .error e => .error e

def removeEmptyDir (w : World) (path : String) : Except Fault World := do
  if (← w.entriesAt path).isEmpty then removeDir w path else .error .notEmpty

/-- Where something is put: into a directory under its own name, or at the path itself. -/
def placeFor (w : World) (source target : String) : String :=
  if w.isDir target then join target (baseName source) else target

/-- How deep a tree of files may be. -/
def deepest : Nat := 4096

/-- A tree of files copied. `fuel` bounds how deep it may be. -/
def copyTree : Nat → World → String → String → Except Fault World
  | 0, _, _, _ => .error .nameTooLong
  | fuel + 1, w, source, target =>
    if w.isDir source then do
      let names ← w.entriesAt source
      let w ← if w.isDir target then .ok w else w.makeDir target
      names.foldlM (fun w name => copyTree fuel w (join source name) (join target name)) w
    else w.copy source target

def listing (all : Bool) (names : List String) : List String :=
  if all then names else names.filter fun n => n.toList.head? != some '.'

def linesText (lines : List String) : String := String.join (lines.map (· ++ "\n"))

/-- The names in directories, and the files themselves. -/
def list (s : Surroundings) (m : Machine) (options : List Char) (paths : List String) : Machine :=
  let all := options.contains 'A' || options.contains 'a'
  let paths := if paths.isEmpty then ["."] else paths
  paths.foldl
    (fun m path =>
      match m.world.entriesAt path with
      | .ok names => m.say s.out (linesText (listing all names))
      | .error .notDirectory => m.say s.out (path ++ "\n")
      | .error e => m.complain s s!"ls: cannot access '{path}': {faultText e}" 2)
    (m.setStatus 0)

def concatenate (s : Surroundings) (m : Machine) (paths : List String) : Machine :=
  if paths.isEmpty then (m.write s.out s.input).setStatus 0
  else
    paths.foldl
      (fun m path =>
        if path = "-" then m.write s.out s.input
        else
          match m.world.bytesAt path with
          | .ok content => m.write s.out content
          | .error e => m.complain s s!"cat: {path}: {faultText e}" 1)
      (m.setStatus 0)

/-- The bytes of a file or of the input counted, or its lines. -/
def wordCount (s : Surroundings) (m : Machine) (options : List Char) (paths : List String) :
    Machine :=
  let counts (content : List UInt8) : String :=
    if options.contains 'c' then Decimal.natText content.length
    else Decimal.natText (content.count 10)
  match paths with
  | [] => (m.say s.out (counts s.input ++ "\n")).setStatus 0
  | path :: _ =>
    match m.world.bytesAt path with
    | .ok content => (m.say s.out (counts content ++ " " ++ path ++ "\n")).setStatus 0
    | .error e => m.complain s s!"wc: {path}: {faultText e}" 1

/-- The numbers from one to another one. -/
def sequenceText (first last : Int) : String :=
  linesText ((List.range (last - first + 1).toNat).map fun (i : Nat) => Decimal.intText (first + (i : Int)))

/-- A utility that is neither a shell nor takes any time. -/
def runUtility (s : Surroundings) (m : Machine) (name : String) (args : List String) : Machine :=
  let (options, paths) := splitOptions args
  let cannot (what : String) (path : String) (e : Fault) : String :=
    s!"{name}: cannot {what} '{path}': {faultText e}"
  match name with
  | "true" => m.setStatus 0
  | "false" => m.setStatus 1
  | "echo" => (m.say s.out (echoText args)).setStatus 0
  | "printf" => (m.say s.out (printfText args)).setStatus 0
  | "pwd" => (m.say s.out (World.locationText m.world.here ++ "\n")).setStatus 0
  | "test" => m.ofBool ((holds? m.world args).getD false)
  | "[" => m.ofBool ((holds? m.world args.dropLast).getD false)
  | "mkdir" =>
    eachPath s (cannot "create directory")
      (if options.contains 'p' then makeDirs else World.makeDir) m paths
  | "rmdir" => eachPath s (cannot "remove") removeEmptyDir m paths
  | "touch" => eachPath s (cannot "touch") touch m paths
  | "rm" =>
    let all := options.contains 'r' || options.contains 'R'
    eachPath s (cannot "remove") (remove all (options.contains 'f')) m paths
  | "cp" =>
    let target := paths.getLastD ""
    eachPath s (cannot "copy") (fun w path => copyTree deepest w path (placeFor w path target)) m
      paths.dropLast
  | "mv" =>
    let target := paths.getLastD ""
    eachPath s (cannot "move") (fun w path => w.rename path (placeFor w path target)) m
      paths.dropLast
  | "chmod" =>
    let executable := args.head?.any fun mode =>
      mode.toList.contains 'x' || mode.toList.head? == some '7'
    eachPath s (cannot "access")
      (fun w path => do
        let l ← w.locate path
        match w.files.find? l with
        | some (.file content _) =>
          .ok { w with files := w.files.insert l (.file content executable) }
        | _ => .ok w) m (args.drop 1)
  | "cat" => concatenate s m args
  | "ls" => list s m options paths
  | "wc" => wordCount s m options paths
  | "basename" =>
    let name := match args with
      | [path] => baseName path
      | path :: ending :: _ => baseNameWithout path ending
      | [] => ""
    (m.say s.out (name ++ "\n")).setStatus 0
  | "dirname" => (m.say s.out (dirName (args.headD "") ++ "\n")).setStatus 0
  | "seq" =>
    match args.map int? with
    | [some last] => (m.say s.out (sequenceText 1 last)).setStatus 0
    | [some first, some last] => (m.say s.out (sequenceText first last)).setStatus 0
    | _ => m.setStatus 1
  | _ => m.setStatus 0

end BoardDesign.Shell
