import BoardDesign.Text.Hex
import BoardDesign.Text.Utf8
import BoardDesign.Yaml.Cursor
/-!
The texts of scalars: plain ones, quoted ones and block ones, each read from its first character
to its end.

A single line end inside a plain or quoted scalar is a space; of several the first one is lost.
-/

namespace BoardDesign.Yaml

/-- White space met inside a scalar: on the line, or the first line end and those after it. -/
structure Gap where
  spaces : List Char
  first : List Char
  more : List Char
  broken : Bool

namespace Gap

def none : Gap := ⟨[], [], [], false⟩

/-- What the white space stands for in the scalar. -/
def folded (g : Gap) : List Char :=
  if g.broken then
    if g.first = ['\n'] then if g.more.isEmpty then [' '] else g.more
    else g.first ++ g.more
  else g.spaces

/-- White space from a place on; `least` is the least column of a tab in front of a line, if tabs
are watched. -/
def read (least : Option Nat) (g : Gap) : Nat → Cursor → Option (Gap × Cursor)
  | 0, c => some (g, c)
  | fuel + 1, c =>
    match c.rest with
    | [] => some (g, c)
    | x :: _ =>
      if isGap x then
        if g.broken && x == '\t' && least.any (c.column < ·) then Option.none
        else if g.broken then read least g fuel c.next
        else read least { g with spaces := g.spaces ++ [x] } fuel c.next
      else if isBreak x then
        let (text, c) := c.nextLine
        if g.broken then read least { g with more := g.more ++ text } fuel c
        else read least ⟨[], text, [], true⟩ fuel c
      else some (g, c)

end Gap

/-- The end of a plain scalar inside a line. -/
def plainEnds (flow : Bool) (rest : List Char) : Bool :=
  match rest with
  | ':' :: after => isGapOrEnd after
  | x :: _ => flow && [',', '[', ']', '\x7b', '\x7d'].contains x
  | [] => true

/-- A colon that neither ends a plain scalar nor may be in it. -/
def strayColon (flow : Bool) (rest : List Char) : Bool :=
  match rest with
  | ':' :: x :: _ => flow && [',', '?', '[', ']', '\x7b', '\x7d'].contains x
  | _ => false

/-- The characters of a plain scalar up to white space or its end. -/
def plainRun (flow : Bool) : Nat → Cursor → Option (List Char × Cursor)
  | 0, c => some ([], c)
  | fuel + 1, c =>
    if isGapOrEnd c.rest then some ([], c)
    else if strayColon flow c.rest then none
    else if plainEnds flow c.rest then some ([], c)
    else
      match c.rest with
      | x :: _ => (plainRun flow fuel c.next).map fun r => (x :: r.1, r.2)
      | [] => some ([], c)

/-- The rest of a plain scalar after some of its text and the white space behind that. The second
part of the result tells whether a line ended after the text. -/
def plainRest (flow : Bool) (least : Nat) (text : List Char) (gap : Gap) :
    Nat → Cursor → Option (List Char × Bool × Cursor)
  | 0, c => some (text, gap.broken, c)
  | fuel + 1, c =>
    if c.atDocumentMarker || c.at? '#' then some (text, gap.broken, c)
    else
      match plainRun flow c.rest.length c with
      | none => none
      | some (run, c) =>
        let (text, gap) := if run.isEmpty then (text, gap) else (text ++ gap.folded ++ run, .none)
        match c.rest with
        | [] => some (text, gap.broken, c)
        | x :: _ =>
          if !(isGap x || isBreak x) then some (text, gap.broken, c)
          else
            match Gap.read (some least) gap c.rest.length c with
            | none => none
            | some (gap, c) =>
              if !flow && c.column < least then some (text, gap.broken, c)
              else plainRest flow least text gap fuel c

/-- A plain scalar; `least` is the least column of its further lines. -/
def plain (flow : Bool) (least : Nat) (c : Cursor) : Option (List Char × Bool × Cursor) :=
  plainRest flow least [] .none (c.rest.length + 1) c

/-- The characters that one letter after a backslash writes. -/
def escapeLetter? (x : Char) : Option Char :=
  match x with
  | '0' => some '\x00'
  | 'a' => some '\x07'
  | 'b' => some '\x08'
  | 't' => some '\t'
  | '\t' => some '\t'
  | 'n' => some '\n'
  | 'v' => some '\x0b'
  | 'f' => some '\x0c'
  | 'r' => some '\r'
  | 'e' => some '\x1b'
  | ' ' => some ' '
  | '"' => some '"'
  | '/' => some '/'
  | '\\' => some '\\'
  | 'N' => some '\x85'
  | '_' => some '\xa0'
  | 'L' => some '\u2028'
  | 'P' => some '\u2029'
  | _ => none

/-- A character written by its number. -/
def numbered? (digits : Nat) (c : Cursor) : Option (Char × Cursor) :=
  let ds := c.rest.take digits
  if ds.length < digits then none
  else
    match Text.Hex.toNat? ds with
    | none => none
    | some n =>
      if (0xD800 ≤ n && n ≤ 0xDFFF) || 0x10FFFF < n then none
      else some (Char.ofNat n, c.skip digits)

/-- The character of an escape, from behind its backslash. -/
def escape? (c : Cursor) : Option (Char × Cursor) :=
  match c.rest with
  | 'x' :: _ => numbered? 2 c.next
  | 'u' :: _ => numbered? 4 c.next
  | 'U' :: _ => numbered? 8 c.next
  | x :: _ => (escapeLetter? x).map (·, c.next)
  | [] => none

/-- The characters of a quoted scalar up to white space or its closing quote; the second part of
the result tells whether a line end was escaped there. -/
def quotedRun (single : Bool) : Nat → Cursor → Option (List Char × Bool × Cursor)
  | 0, c => some ([], false, c)
  | fuel + 1, c =>
    if isGapOrEnd c.rest then some ([], false, c)
    else
      match single, c.rest with
      | true, '\'' :: '\'' :: _ => (quotedRun single fuel (c.skip 2)).map fun r => ('\'' :: r.1, r.2)
      | true, '\'' :: _ => some ([], false, c)
      | false, '"' :: _ => some ([], false, c)
      | false, '\\' :: x :: _ =>
        if isBreak x then some ([], true, (c.next.nextLine).2)
        else
          match escape? c.next with
          | none => none
          | some (y, c) => (quotedRun single fuel c).map fun r => (y :: r.1, r.2)
      | false, ['\\'] => none
      | _, x :: _ => (quotedRun single fuel c.next).map fun r => (x :: r.1, r.2)
      | _, [] => some ([], false, c)

/-- The rest of a quoted scalar, and the cursor behind its closing quote. -/
def quotedRest (single : Bool) (text : List Char) : Nat → Cursor → Option (List Char × Cursor)
  | 0, _ => none
  | fuel + 1, c =>
    if c.atDocumentMarker || c.rest.isEmpty then none
    else
      match quotedRun single c.rest.length c with
      | none => none
      | some (run, escaped, c) =>
        let text := text ++ run
        if c.at? (if single then '\'' else '"') then some (text, c.next)
        else
          match Gap.read none { Gap.none with broken := escaped } c.rest.length c with
          | none => none
          | some (gap, c) => quotedRest single (text ++ gap.folded) fuel c

/-- A quoted scalar from its opening quote on. -/
def quoted (single : Bool) (c : Cursor) : Option (List Char × Cursor) :=
  quotedRest single [] (c.rest.length + 1) c.next

/-- What becomes of the line ends at the end of a block scalar. -/
inductive Chomping where
  | clip
  | strip
  | keep

def chomping? (x : Char) : Option Chomping :=
  if x = '+' then some .keep else if x = '-' then some .strip else none

/-- The chomping and the indentation that the head of a block scalar gives. -/
def blockHead? (c : Cursor) : Option (Chomping × Nat × Cursor) :=
  let digit (c : Cursor) : Option (Nat × Cursor) :=
    match c.rest with
    | x :: _ =>
      if '0' ≤ x && x ≤ '9' then
        if x = '0' then none else some (x.toNat - '0'.toNat, c.next)
      else some (0, c)
    | [] => some (0, c)
  let chomp (c : Cursor) : Chomping × Cursor :=
    match c.rest with
    | x :: _ =>
      match chomping? x with
      | some k => (k, c.next)
      | none => (.clip, c)
    | [] => (.clip, c)
  match (c.head?).bind chomping? with
  | some k => (digit c.next).map fun d => (k, d.1, d.2)
  | none => (digit c).map fun d => if d.1 = 0 then (.clip, 0, d.2) else ((chomp d.2).1, d.1, (chomp d.2).2)

/-- The empty lines in front of a line of a block scalar. `indent` is its indentation, zero if it
is still to be found; `widest` is the widest line so far. -/
def blockBreaks (indent widest : Nat) (text : List Char) :
    Nat → Cursor → Option (List Char × Nat × Cursor)
  | 0, c => some (text, widest, c)
  | fuel + 1, c =>
    let spaces := (c.rest.takeWhile (· == ' ')).length
    let n := if indent = 0 then spaces else min spaces (indent - c.column)
    let c := c.skip n
    let widest := max widest c.column
    match c.rest with
    | [] => some (text, widest, c)
    | x :: _ =>
      if x == '\t' && (indent = 0 || c.column < indent) then none
      else if isBreak x then
        let (b, c) := c.nextLine
        blockBreaks indent widest (text ++ b) fuel c
      else some (text, widest, c)

/-- The lines of a block scalar. `first` and `more` are the line ends before the line at hand,
`blank` tells whether the line before them began with white space. -/
def blockLines (literal : Bool) (indent : Nat) (text first more : List Char) (blank : Bool) :
    Nat → Cursor → Option (List Char × List Char × List Char × Cursor)
  | 0, c => some (text, first, more, c)
  | fuel + 1, c =>
    match c.rest with
    | [] => some (text, first, more, c)
    | x :: _ =>
      if c.column ≠ indent then some (text, first, more, c)
      else
        let start :=
          if !literal && first = ['\n'] && !blank && !isGap x then
            if more.isEmpty then [' '] else []
          else first
        let line := c.rest.takeWhile fun y => !isBreak y
        let text := text ++ start ++ more ++ line
        let (first, c) := (c.skip line.length).nextLine
        match blockBreaks indent 0 [] (c.rest.length + 1) c with
        | none => none
        | some (more, _, c) => blockLines literal indent text first more (isGap x) fuel c

/-- A block scalar from its indicator on; `parent` is the indentation around it, none at the top
level. -/
def block (literal : Bool) (parent : Option Nat) (c : Cursor) : Option (List Char × Cursor) := do
  let (chomping, given, c) ← blockHead? c.next
  let c := c.dropWhile isGap
  let c := if c.at? '#' then c.dropWhile fun x => !isBreak x else c
  if !isBreakOrEnd c.rest then none
  else
    let c := (c.nextLine).2
    let indent := if given = 0 then 0 else parent.getD 0 + given
    let (breaks, widest, c) ← blockBreaks indent 0 [] (c.rest.length + 1) c
    let indent := if indent = 0 then max (max widest ((parent.map (· + 1)).getD 0)) 1 else indent
    let (text, first, more, c) ←
      blockLines literal indent [] [] breaks false (c.rest.length + 1) c
    match chomping with
    | .strip => some (text, c)
    | .clip => some (text ++ first, c)
    | .keep => some (text ++ first ++ more, c)

end BoardDesign.Yaml
