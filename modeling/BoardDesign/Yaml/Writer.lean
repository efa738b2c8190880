import BoardDesign.Text.Hex
import BoardDesign.Text.Utf8
import BoardDesign.Yaml.Value
/-!
YAML text of values, in block style.

A mapping inside of another one is indented by two, a sequence inside of a mapping is not. A text
is written plain unless it would read as something else; with line ends it is written as it is, line by line.
-/

namespace BoardDesign.Yaml.Writer

open Cursor

/-- Characters that are written without an escape. -/
def isShown (c : Char) : Bool :=
  let n := c.toNat
  n == 0xA || (0x20 ≤ n && n ≤ 0x7E) || (0xA0 ≤ n && n < 0xD800) ||
    (0xE000 ≤ n && n ≤ 0xFFFD && n ≠ 0xFEFF)

inductive Style where
  | plain
  | single
  | double
  | literal
deriving DecidableEq, Repr

/-- What a text would be spoiled by in each style. -/
structure Analysis where
  multiline : Bool
  plainAllowed : Bool
  singleAllowed : Bool
  literalAllowed : Bool
deriving DecidableEq, Repr

/-- The characters that mean something else at the beginning of a plain scalar. -/
def startIndicators : List Char :=
  ['#', ',', '[', ']', '\x7b', '\x7d', '&', '*', '!', '|', '>', '\'', '"', '%', '@', '`']

/-- A character of a text means something else: at its beginning `rest` is the text behind it. -/
def indicates (previous : Option Char) (c : Char) (rest : List Char) : Bool :=
  match previous with
  | none =>
    startIndicators.contains c || ((c == '?' || c == ':' || c == '-') && isGapOrEnd rest)
  | some p => (c == ':' && isGapOrEnd rest) || (c == '#' && (isGap p || isBreak p))

def anyIndicates (previous : Option Char) : List Char → Bool
  | [] => false
  | c :: rest => indicates previous c rest || anyIndicates (some c) rest

/-- Two neighbouring characters of two classes. -/
def anyPair (p q : Char → Bool) : List Char → Bool
  | a :: b :: rest => (p a && q b) || anyPair p q (b :: rest)
  | _ => false

def isSpace (c : Char) : Bool := c == ' '

def analyse (cs : List Char) : Analysis :=
  let marker :=
    match cs with
    | '-' :: '-' :: '-' :: _ => true
    | '.' :: '.' :: '.' :: _ => true
    | _ => false
  let special := cs.any fun c => !isShown c
  let breaks := cs.any isBreak
  let edge (p : Char → Bool) : Bool := cs.head?.any p || cs.getLast?.any p
  let breakSpace := anyPair isBreak isSpace cs
  let spaceBreak := anyPair isSpace isBreak cs
  if cs.isEmpty then ⟨false, true, true, false⟩
  else
    { multiline := breaks
      plainAllowed := !(marker || anyIndicates none cs || special || breaks || edge isSpace)
      singleAllowed := !(breakSpace || spaceBreak || special)
      literalAllowed := !(cs.getLast?.any isSpace || spaceBreak || special) }

/-- The style of a text; a key that stands on its line is written on one line. -/
def style (cs : List Char) (isKey : Bool) : Style :=
  let a := analyse cs
  let quoted := if a.singleAllowed then .single else .double
  if cs.contains '\n' then
    if isKey && a.multiline then .double
    else if a.literalAllowed && !isKey then .literal else .double
  else if isKey && a.multiline then .double
  else if Look.of (String.ofList cs) ≠ .text || Look.paddedDigits cs then quoted
  else if a.plainAllowed then .plain else quoted

/-- The pen: what is written, the last character first, and where it stands. -/
structure Pen where
  written : List Char
  column : Nat
  /-- The last thing written is white space. -/
  spaced : Bool
  /-- Nothing but indentation and marks of entries stand on the line. -/
  fresh : Bool

namespace Pen

def start : Pen := ⟨[], 0, true, true⟩

def put (p : Pen) (c : Char) : Pen := { p with written := c :: p.written, column := p.column + 1 }

def puts (p : Pen) (cs : List Char) : Pen := cs.foldl put p

def lineEnd (p : Pen) (c : Char) : Pen := { p with written := c :: p.written, column := 0 }

/-- A sign, after a space if it needs one. -/
def sign (p : Pen) (cs : List Char) (needsSpace spaced fresh : Bool) : Pen :=
  let p := if needsSpace && !p.spaced then p.put ' ' else p
  let p := p.puts cs
  { p with spaced := spaced, fresh := p.fresh && fresh }

/-- A new line, unless the line at hand has nothing but less indentation, and the indentation. -/
def indent (p : Pen) (n : Nat) : Pen :=
  let p := if !p.fresh || n < p.column || (p.column = n && !p.spaced) then p.lineEnd '\n' else p
  let p := p.puts (List.replicate (n - p.column) ' ')
  { p with spaced := true, fresh := true }

def plain (p : Pen) (cs : List Char) : Pen :=
  let p := if !p.spaced && !cs.isEmpty then p.put ' ' else p
  { p.puts cs with spaced := false, fresh := false }

/-- The characters of a text in single quotes; `broken` tells whether a line has ended before. -/
def singleBody (n : Nat) (p : Pen) (broken : Bool) : List Char → Pen
  | [] => if broken then p.indent n else p
  | c :: rest =>
    if isBreak c then
      let p := if !broken && c == '\n' then p.lineEnd '\n' else p
      singleBody n { p.lineEnd c with fresh := true } true rest
    else
      let p := if broken then p.indent n else p
      let p := if c == '\'' then (p.put '\'').put '\'' else p.put c
      singleBody n { p with fresh := false } false rest

def single (p : Pen) (n : Nat) (cs : List Char) : Pen :=
  let p := p.sign ['\''] true false false
  { (singleBody n p false cs).sign ['\''] false false false with spaced := false, fresh := false }

def hexDigit (n : Nat) : Char := Text.upperLetter (Text.Hex.digit n)

def hexDigits (width n : Nat) : List Char :=
  (List.range width).reverse.map fun i => hexDigit (n / Nat.pow 16 i % 16)

def escape (c : Char) : List Char :=
  let n := c.toNat
  match n with
  | 0 => ['0']
  | 7 => ['a']
  | 8 => ['b']
  | 9 => ['t']
  | 0xA => ['n']
  | 0xB => ['v']
  | 0xC => ['f']
  | 0xD => ['r']
  | 0x1B => ['e']
  | 0x22 => ['"']
  | 0x5C => ['\\']
  | 0x85 => ['N']
  | 0xA0 => ['_']
  | 0x2028 => ['L']
  | 0x2029 => ['P']
  | n =>
    if n ≤ 0xFF then 'x' :: hexDigits 2 n
    else if n ≤ 0xFFFF then 'u' :: hexDigits 4 n
    else 'U' :: hexDigits 8 n

def doubleChar (c : Char) : List Char :=
  if !isShown c || isBreak c || c == '"' || c == '\\' then '\\' :: escape c else [c]

def double (p : Pen) (cs : List Char) : Pen :=
  let p := p.sign ['"'] true false false
  { (p.puts (cs.flatMap doubleChar)).sign ['"'] false false false with
    spaced := false, fresh := false }

/-- The signs behind the bar of a literal text: its indentation if it begins with white space, and
what becomes of the line ends at its end. -/
def literalHead (cs : List Char) : List Char :=
  let start := if cs.head?.any fun c => isSpace c || isBreak c then ['2'] else []
  let ending :=
    match cs.reverse with
    | [] => ['-']
    | c :: rest =>
      if !isBreak c then ['-']
      else
        match rest with
        | [] => ['+']
        | d :: _ => if isBreak d then ['+'] else []
  start ++ ending

def literalBody (n : Nat) (p : Pen) (broken : Bool) : List Char → Pen
  | [] => p
  | c :: rest =>
    if isBreak c then literalBody n { p.lineEnd c with fresh := true } true rest
    else
      let p := if broken then p.indent n else p
      literalBody n { p.put c with fresh := false } false rest

def literal (p : Pen) (n : Nat) (cs : List Char) : Pen :=
  let p := p.sign ('|' :: literalHead cs) true false false
  let p := { p.lineEnd '\n' with spaced := true, fresh := true }
  literalBody n p true cs

/-- A text; `n` is the indentation of its further lines. -/
def text (p : Pen) (n : Nat) (s : String) (isKey : Bool) : Pen :=
  let cs := s.toList
  match style cs isKey with
  | .plain => p.plain cs
  | .single => p.single n cs
  | .double => p.double cs
  | .literal => p.literal n cs

end Pen

/-- Fractions are positional from 0.00001 up to 10 ^ 16. -/
def fractionLayout : Decimal.Layout := ⟨16, 5, false⟩

def fractionText : Fraction → String
  | .finite x => x.text fractionLayout
  | .infinite false => ".inf"
  | .infinite true => "-.inf"
  | .notANumber => ".nan"

/-- The longest key that stands on the line of its value, in bytes. -/
def longestKey : Nat := 128

/-- A key that stands on the line of its value. -/
def isSimpleKey : Value → Bool
  | .text s => !(s.toList.any isBreak) && s.utf8ByteSize ≤ longestKey
  | .seq items => items.isEmpty
  | .map pairs => pairs.isEmpty
  | _ => true

mutual

/-- A value behind a mark. `n` is the indentation of the collection that it is in, none at the top;
`inMapping` tells whether that is a mapping. -/
def writeValue (p : Pen) (n : Option Nat) (inMapping isKey : Bool) (v : Value) : Pen :=
  let deeper := (n.map (· + 2)).getD 0
  match v with
  | .null => p.plain "null".toList
  | .bool true => p.plain "true".toList
  | .bool false => p.plain "false".toList
  | .int k => p.plain (Decimal.intText k).toList
  | .fraction x => p.plain (fractionText x).toList
  | .text s => p.text (((n.map (· + 2)).getD 2)) s isKey
  | .seq [] => (p.sign ['['] true true false).sign [']'] false false false
  | .seq (x :: rest) =>
    let m := if inMapping && !p.fresh then n.getD 0 else deeper
    writeItems p m (x :: rest)
  | .map [] => (p.sign ['\x7b'] true true false).sign ['\x7d'] false false false
  | .map (x :: rest) => writePairs p deeper (x :: rest)
termination_by structural v

def writeItems (p : Pen) (n : Nat) (items : List Value) : Pen :=
  match items with
  | [] => p
  | v :: rest =>
    writeItems (writeValue ((p.indent n).sign ['-'] true false true) (some n) false false v) n rest
termination_by structural items

def writePairs (p : Pen) (n : Nat) (pairs : List (Value × Value)) : Pen :=
  match pairs with
  | [] => p
  | (k, v) :: rest =>
    let p := p.indent n
    let p :=
      if isSimpleKey k then (writeValue p (some n) true true k).sign [':'] false false false
      else
        ((writeValue (p.sign ['?'] true false true) (some n) true false k).indent n).sign [':'] true
          false true
    writePairs (writeValue p (some n) true false v) n rest
termination_by structural pairs

end

/-- The text of a document. -/
def document (v : Value) : String :=
  String.ofList ((writeValue .start none false false v).indent 0).written.reverse

end BoardDesign.Yaml.Writer
