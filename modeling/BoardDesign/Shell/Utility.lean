import BoardDesign.Decimal.Shortest
import BoardDesign.File.World
/-!
What the small utilities of the shell compute: escapes, formats, conditions, parts of paths.
-/

namespace BoardDesign.Shell

def octal? (c : Char) : Option Nat :=
  if '0' ≤ c && c ≤ '7' then some (Text.digitValue c) else none

/-- The characters that an escape stands for, after its backslash, and the rest. None if the text
ends here. -/
def escape (cs : List Char) : Option (List Char × List Char) :=
  match cs with
  | 'n' :: r => some (['\n'], r)
  | 't' :: r => some (['\t'], r)
  | 'r' :: r => some (['\r'], r)
  | 'a' :: r => some (['\x07'], r)
  | 'b' :: r => some (['\x08'], r)
  | 'f' :: r => some (['\x0c'], r)
  | 'v' :: r => some (['\x0b'], r)
  | '\\' :: r => some (['\\'], r)
  | 'c' :: _ => none
  | '0' :: r =>
    let digits := (r.take 3).takeWhile fun c => (octal? c).isSome
    some ([Char.ofNat (digits.foldl (fun n c => 8 * n + Text.digitValue c) 0 % 256)],
      r.drop digits.length)
  | r => some (['\\'], r)

/-- A text with its escapes replaced, and whether it goes on after it. -/
def unescape : Nat → List Char → List Char × Bool
  | 0, cs => (cs, true)
  | fuel + 1, cs =>
    match cs with
    | [] => ([], true)
    | '\\' :: r =>
      match escape r with
      | none => ([], false)
      | some (own, r) =>
        let (rest, more) := unescape fuel r
        (own ++ rest, more)
    | c :: r =>
      let (rest, more) := unescape fuel r
      (c :: rest, more)

/-- The words written with blanks between them and, without `-n`, a line end. -/
def echoText (args : List String) : String :=
  let (lineEnd, args) := match args with
    | "-n" :: args => ("", args)
    | args => ("\n", args)
  let text := Text.joinWith " " args
  let (chars, more) := unescape text.length text.toList
  String.ofList chars ++ if more then lineEnd else ""

/-- A number with a sign before it or not. -/
def int? (s : String) : Option Int :=
  let digits (cs : List Char) : Option Nat :=
    if !cs.isEmpty && cs.all Text.isDigit then some (Text.decimalValue cs) else none
  match Text.trim s.toList with
  | '-' :: cs => (digits cs).map fun n => -(n : Int)
  | '+' :: cs => (digits cs).map fun n => (n : Int)
  | cs => (digits cs).map fun n => (n : Int)

/-- A format with its arguments filled in, and the arguments that are left. -/
def formatOnce : Nat → List Char → List String → List Char × List String
  | 0, cs, args => (cs, args)
  | fuel + 1, cs, args =>
    match cs with
    | [] => ([], args)
    | '%' :: '%' :: r =>
      let (rest, args) := formatOnce fuel r args
      ('%' :: rest, args)
    | '%' :: 's' :: r =>
      let (rest, left) := formatOnce fuel r args.tail
      ((args.headD "").toList ++ rest, left)
    | '%' :: 'b' :: r =>
      let own := args.headD ""
      let (rest, left) := formatOnce fuel r args.tail
      ((unescape own.length own.toList).1 ++ rest, left)
    | '%' :: 'd' :: r =>
      let (rest, left) := formatOnce fuel r args.tail
      ((Decimal.intText ((int? (args.headD "")).getD 0)).toList ++ rest, left)
    | '\\' :: r =>
      match r with
      | '"' :: r =>
        let (rest, args) := formatOnce fuel r args
        ('"' :: rest, args)
      | r =>
        match escape r with
        | none => ([], [])
        | some (own, r) =>
          let (rest, args) := formatOnce fuel r args
          (own ++ rest, args)
    | c :: r =>
      let (rest, args) := formatOnce fuel r args
      (c :: rest, args)

/-- A format used again as long as there are arguments for it. -/
def formatAll (format : String) : Nat → List String → List Char
  | 0, _ => []
  | fuel + 1, args =>
    let (text, left) := formatOnce (format.length + 1) format.toList args
    if left.isEmpty || left.length = args.length then text
    else text ++ formatAll format fuel left

def printfText (args : List String) : String :=
  match args with
  | [] => ""
  | format :: args => String.ofList (formatAll format (args.length + 1) args)

/-- Whether a condition holds; none if it is not one. -/
def holds? (w : World) : List String → Option Bool
  | [] => some false
  | [s] => some (!s.isEmpty)
  | ["!", s] => some s.isEmpty
  | ["-n", s] => some (!s.isEmpty)
  | ["-z", s] => some s.isEmpty
  | ["-e", p] => some (w.doesExist p)
  | ["-f", p] => some (w.isFile p)
  | ["-d", p] => some (w.isDir p)
  | ["-r", p] => some (w.doesExist p)
  | ["-w", p] => some (w.doesExist p)
  | ["-s", p] =>
    some (w.isDir p || (w.bytesAt p).toOption.any fun content => !content.isEmpty)
  | ["-x", p] =>
    match w.nodeAt p with
    | .ok .dir => some true
    | .ok (.file _ executable) => some executable
    | .error _ => some false
  | ["!", a, b] => (holds? w [a, b]).map not
  | [a, "=", b] => some (a == b)
  | [a, "!=", b] => some (a != b)
  | [a, op, b] =>
    match int? a, int? b with
    | some x, some y =>
      match op with
      | "-eq" => some (x == y)
      | "-ne" => some (x != y)
      | "-lt" => some (x < y)
      | "-le" => some (x ≤ y)
      | "-gt" => some (x > y)
      | "-ge" => some (x ≥ y)
      | _ => none
    | _, _ => none
  | "!" :: rest => (holds? w rest).map not
  | _ => none

/-- A path without the slashes at its end. -/
def withoutSlashes (path : String) : List Char :=
  match (path.toList.reverse.dropWhile (· == '/')).reverse with
  | [] => if path.isEmpty then [] else ['/']
  | cs => cs

def baseName (path : String) : String :=
  match withoutSlashes path with
  | ['/'] => "/"
  | cs => String.ofList ((Text.pieces '/' cs).getLastD [])

/-- The last part of a path without a given ending. -/
def baseNameWithout (path ending : String) : String :=
  let name := baseName path
  match Text.after ending.toList.reverse name.toList.reverse with
  | some (c :: cs) => String.ofList (c :: cs).reverse
  | _ => name

def dirName (path : String) : String :=
  match (Text.pieces '/' (withoutSlashes path)).reverse with
  | _ :: before :: rest =>
    match (((before :: rest).reverse.intersperse ['/']).flatten.reverse.dropWhile
        (· == '/')).reverse with
    | [] => "/"
    | cs => String.ofList cs
  | _ => if path.toList.head? = some '/' then "/" else "."

/-- A number of seconds, in milliseconds. -/
def milliseconds? (s : String) : Option Nat :=
  let cs := s.toList
  let whole := cs.takeWhile Text.isDigit
  match cs.dropWhile Text.isDigit with
  | [] => if whole.isEmpty then none else some (1000 * Text.decimalValue whole)
  | '.' :: r =>
    let digits := r.takeWhile Text.isDigit
    if !(r.dropWhile Text.isDigit).isEmpty || (whole.isEmpty && digits.isEmpty) then none
    else
      let thousandths := (digits ++ ['0', '0', '0']).take 3
      some (1000 * Text.decimalValue whole + Text.decimalValue thousandths)
  | _ => none

/-- The number of a signal that is named or given. -/
def signalNumber? (s : String) : Option Nat :=
  let names := [("HUP", 1), ("INT", 2), ("QUIT", 3), ("ABRT", 6), ("KILL", 9), ("USR1", 10),
    ("SEGV", 11), ("USR2", 12), ("PIPE", 13), ("ALRM", 14), ("TERM", 15)]
  let bare := match Text.after "SIG".toList s.toList with
    | some r => String.ofList r
    | none => s
  match (names.find? fun n => n.1 == bare).map (·.2) with
  | some n => some n
  | none => (int? s).bind fun n => if 0 ≤ n then some n.toNat else none

end BoardDesign.Shell
