import BoardDesign.Yaml.ScalarText
/-!
YAML tokens.

Indentation becomes tokens of its own: a block begins where a line is indented further and ends
where one is indented less. A key without a mark is recognised when the colon behind it is met,
and its tokens are then put where the key began.
-/

namespace BoardDesign.Yaml

inductive Token where
  | version (major minor : Nat)
  | tagHandle (handle start : String)
  | documentStart
  | documentEnd
  | blockSequence
  | blockMapping
  | blockEnd
  | flowSequence
  | flowSequenceEnd
  | flowMapping
  | flowMappingEnd
  | blockEntry
  | flowEntry
  | key
  | value
  | alias (name : String)
  | anchor (name : String)
  | tag (handle suffix : String)
  | scalar (text : String) (isPlain : Bool)
deriving DecidableEq, Repr

namespace Token

/-- A place where a key without a mark may have begun. -/
structure PossibleKey where
  possible : Bool
  required : Bool
  position : Nat
  index : Nat
  line : Nat
  column : Nat
deriving Repr

def PossibleKey.none : PossibleKey := ⟨false, false, 0, 0, 0, 0⟩

/-- How far a text is read. -/
structure Progress where
  cursor : Cursor
  /-- How many flow collections are open. -/
  flow : Nat
  /-- The indentations of the open blocks, the innermost first. -/
  indents : List Nat
  keyAllowed : Bool
  /-- One for the text and one for each open flow collection, the innermost first. -/
  keys : List PossibleKey
  /-- The tokens so far, the last one first. -/
  tokens : List Token

namespace Progress

def start (cs : List Char) : Progress := ⟨.start cs, 0, [], true, [.none], []⟩

def push (p : Progress) (t : Token) : Progress := { p with tokens := t :: p.tokens }

/-- A token put at a position counted from the first token. -/
def insertAt (p : Progress) (position : Nat) (t : Token) : Progress :=
  let later := p.tokens.length - position
  { p with tokens := p.tokens.take later ++ t :: p.tokens.drop later }

def inFlow (p : Progress) : Bool := p.flow ≠ 0

/-- Keys end on the line on which they begin and within 1024 characters. -/
def longestKey : Nat := 1024

/-- Places where a key can no longer have begun are given up; a required key may not be. -/
def expireKeys (p : Progress) : Option Progress :=
  let expired (k : PossibleKey) : Bool :=
    k.possible && (k.line < p.cursor.line || k.index + longestKey < p.cursor.index)
  if p.keys.any fun k => expired k && k.required then none
  else
    some { p with keys := p.keys.map fun k => if expired k then { k with possible := false } else k }

/-- The innermost place given up. -/
def dropKey (p : Progress) : Option Progress :=
  match p.keys with
  | k :: rest =>
    if k.possible && k.required then none
    else some { p with keys := { k with possible := false } :: rest }
  | [] => some p

/-- The place at hand noted as the beginning of a key, where one is allowed. -/
def noteKey (p : Progress) : Option Progress :=
  if p.keyAllowed then
    (p.dropKey).map fun p =>
      let c := p.cursor
      let required := !p.inFlow && p.indents.head? == some c.column
      { p with keys := ⟨true, required, p.tokens.length, c.index, c.line, c.column⟩ :: p.keys.drop 1 }
  else some p

/-- A block that begins at a column, unless the column is not further in. -/
def openBlock (p : Progress) (column : Nat) (position : Option Nat) (t : Token) : Progress :=
  if p.inFlow || p.indents.head?.any (column ≤ ·) then p
  else
    let p := { p with indents := column :: p.indents }
    match position with
    | some n => p.insertAt n t
    | none => p.push t

/-- The blocks that are indented further than a column end; without a column all blocks do. -/
def closeBlocks (p : Progress) (column : Option Nat) : Progress :=
  if p.inFlow then p
  else
    let ending := p.indents.takeWhile fun i => column.all (· < i)
    { p with
      indents := p.indents.drop ending.length
      tokens := List.replicate ending.length .blockEnd ++ p.tokens }

def moveTo (p : Progress) (c : Cursor) : Progress := { p with cursor := c }

def allowKey (p : Progress) (allowed : Bool) : Progress := { p with keyAllowed := allowed }

/-- White space, comments and line ends before the next token. -/
def skipToToken (p : Progress) : Nat → Progress
  | 0 => p
  | fuel + 1 =>
    let c := p.cursor
    let c := if c.column == 0 && c.at? '\ufeff' then c.next else c
    let c := c.dropWhile fun x => x == ' ' || ((p.inFlow || !p.keyAllowed) && x == '\t')
    let c := if c.at? '#' then c.dropWhile fun x => !isBreak x else c
    match c.rest with
    | x :: _ =>
      if isBreak x then
        let p := p.moveTo (c.nextLine).2
        skipToToken (if p.inFlow then p else p.allowKey true) fuel
      else p.moveTo c
    | [] => p.moveTo c

/-- A decimal number of at most nine digits. -/
def number? (c : Cursor) : Option (Nat × Cursor) :=
  let (ds, c) := c.takeWhile fun x => '0' ≤ x && x ≤ '9'
  if ds.isEmpty || 9 < ds.length then none else some (Text.decimalValue ds, c)

/-- A tag handle; in a directive it has to end in an exclamation mark. -/
def handle? (directive : Bool) (c : Cursor) : Option (List Char × Cursor) :=
  if !c.at? '!' then none
  else
    let (word, c) := c.next.takeWhile isWord
    if c.at? '!' then some ('!' :: word ++ ['!'], c.next)
    else if directive && !word.isEmpty then none
    else some ('!' :: word, c)

def isUriChar (verbatim : Bool) (c : Char) : Bool :=
  isWord c || [';', '/', '?', ':', '@', '&', '=', '+', '$', '.', '!', '~', '*', '\'', '(', ')'].contains c ||
    (verbatim && [',', '[', ']'].contains c)

/-- The bytes of a run of percent signs with two digits each. -/
def percentBytes : Nat → Cursor → Option (List UInt8 × Cursor)
  | 0, c => some ([], c)
  | fuel + 1, c =>
    match c.rest with
    | '%' :: a :: b :: _ =>
      match Text.Hex.toNat? [a, b] with
      | none => none
      | some n => (percentBytes fuel (c.skip 3)).map fun r => (UInt8.ofNat n :: r.1, r.2)
    | '%' :: _ => none
    | _ => some ([], c)

/-- The characters of a tag, with percent signs read. -/
def uri? (verbatim : Bool) : Nat → Cursor → Option (List Char × Cursor)
  | 0, c => some ([], c)
  | fuel + 1, c =>
    match c.rest with
    | '%' :: _ =>
      match percentBytes c.rest.length c with
      | none => none
      | some (bytes, c) =>
        match Text.Utf8.decode? bytes with
        | none => none
        | some cs => (uri? verbatim fuel c).map fun r => (cs ++ r.1, r.2)
    | x :: _ =>
      if isUriChar verbatim x then (uri? verbatim fuel c.next).map fun r => (x :: r.1, r.2)
      else some ([], c)
    | [] => some ([], c)

def uri (verbatim : Bool) (c : Cursor) : Option (List Char × Cursor) :=
  uri? verbatim (c.rest.length + 1) c

/-- The end of a directive's line. -/
def directiveEnd? (c : Cursor) : Option Cursor :=
  let c := c.dropWhile isGap
  let c := if c.at? '#' then c.dropWhile fun x => !isBreak x else c
  if isBreakOrEnd c.rest then some (c.nextLine).2 else none

def directive? (c : Cursor) : Option (Token × Cursor) := do
  let (name, c) := c.next.takeWhile isWord
  if name.isEmpty || !isGapOrEnd c.rest then none
  else if name = "YAML".toList then
    let (major, c) ← number? (c.dropWhile isGap)
    if !c.at? '.' then none
    else
      let (minor, c) ← number? c.next
      (directiveEnd? c).map fun c => (.version major minor, c)
  else if name = "TAG".toList then
    let (handle, c) ← handle? true (c.dropWhile isGap)
    if !(c.head?.any isGap) then none
    else
      let (start, c) ← uri true (c.dropWhile isGap)
      if start.isEmpty || !isGapOrEnd c.rest then none
      else
        (directiveEnd? c).map fun c =>
          (.tagHandle (String.ofList handle) (String.ofList start), c)
  else none

/-- The name of an anchor or alias, and what may follow it. -/
def anchorName? (c : Cursor) : Option (String × Cursor) :=
  let (name, c) := c.next.takeWhile isWord
  let follows := c.head?.any fun x => ['?', ':', ',', ']', '\x7d', '%', '@', '`'].contains x
  if name.isEmpty || !(isGapOrEnd c.rest || follows) then none
  else some (String.ofList name, c)

/-- The handle and the suffix of a tag; a lone exclamation mark is a suffix. -/
def tagParts? (c : Cursor) : Option (List Char × List Char × Cursor) :=
  match c.rest with
  | '!' :: '<' :: _ =>
    match uri true (c.skip 2) with
    | some (suffix, c) => if suffix.isEmpty || !c.at? '>' then none else some ([], suffix, c.next)
    | none => none
  | _ =>
    match handle? false c with
    | none => none
    | some (handle, c) =>
      match uri false c with
      | none => none
      | some (suffix, c) =>
        if 1 < handle.length && handle.getLast? == some '!' then
          if suffix.isEmpty then none else some (handle, suffix, c)
        else
          match handle.drop 1 ++ suffix with
          | [] => some ([], ['!'], c)
          | suffix => some (['!'], suffix, c)

def tag? (flow : Bool) (c : Cursor) : Option (Token × Cursor) := do
  let (handle, suffix, c) ← tagParts? c
  if isGapOrEnd c.rest || (flow && c.at? ',') then
    some (.tag (String.ofList handle) (String.ofList suffix), c)
  else none

/-- One token where a key may begin, after which no key may. -/
def keyed (p : Progress) (read : Cursor → Option (Token × Cursor)) : Option Progress :=
  match p.noteKey with
  | none => none
  | some p => (read p.cursor).map fun r => ((p.allowKey false).push r.1).moveTo r.2

/-- A sign of one character where no key may have begun before. -/
def sign (p : Progress) (t : Token) (keyAllowed : Bool) : Option Progress :=
  (p.dropKey).map fun p => ((p.allowKey keyAllowed).push t).moveTo p.cursor.next

def openFlow (p : Progress) (t : Token) : Option Progress :=
  (p.noteKey).map fun p =>
    (({ p with keys := .none :: p.keys, flow := p.flow + 1 }.allowKey true).push t).moveTo
      p.cursor.next

def closeFlow (p : Progress) (t : Token) : Option Progress :=
  (p.dropKey).map fun p =>
    let p := if p.inFlow then { p with keys := p.keys.drop 1, flow := p.flow - 1 } else p
    ((p.allowKey false).push t).moveTo p.cursor.next

def blockEntry (p : Progress) : Option Progress :=
  if p.inFlow then p.sign .blockEntry true
  else if !p.keyAllowed then none
  else (p.openBlock p.cursor.column none .blockSequence).sign .blockEntry true

def markedKey (p : Progress) : Option Progress :=
  if p.inFlow then p.sign .key false
  else if !p.keyAllowed then none
  else (p.openBlock p.cursor.column none .blockMapping).sign .key true

/-- A colon behind a key, or one without a key before it. -/
def colon (p : Progress) : Option Progress :=
  match p.keys with
  | k :: rest =>
    if k.possible then
      let p := p.insertAt k.position .key
      let p := p.openBlock k.column (some k.position) .blockMapping
      let p := { p with keys := { k with possible := false } :: rest }
      some (((p.allowKey false).push .value).moveTo p.cursor.next)
    else if p.inFlow then
      some (((p.allowKey false).push .value).moveTo p.cursor.next)
    else if !p.keyAllowed then none
    else
      let p := p.openBlock p.cursor.column none .blockMapping
      some (((p.allowKey true).push .value).moveTo p.cursor.next)
  | [] => none

def documentMarker (p : Progress) (t : Token) : Option Progress :=
  ((p.closeBlocks none).dropKey).map fun p =>
    ((p.allowKey false).push t).moveTo (p.cursor.skip 3)

def directive (p : Progress) : Option Progress :=
  match (p.closeBlocks none).dropKey with
  | none => none
  | some p => (directive? p.cursor).map fun r => ((p.allowKey false).push r.1).moveTo r.2

def blockScalar (p : Progress) (literal : Bool) : Option Progress :=
  match p.dropKey with
  | none => none
  | some p =>
    (block literal p.indents.head? p.cursor).map fun r =>
      ((p.allowKey true).push (.scalar (String.ofList r.1) false)).moveTo r.2

def plainScalar (p : Progress) : Option Progress :=
  match p.noteKey with
  | none => none
  | some p =>
    (plain p.inFlow ((p.indents.head?.map (· + 1)).getD 0) p.cursor).map fun r =>
      ((p.allowKey r.2.1).push (.scalar (String.ofList r.1) true)).moveTo r.2.2

/-- The characters that begin no plain scalar, whatever follows. -/
def isIndicator (c : Char) : Bool :=
  ['-', '?', ':', ',', '[', ']', '\x7b', '\x7d', '#', '&', '*', '!', '|', '>', '\'', '"', '%', '@',
    '`'].contains c

def plainBegins (flow : Bool) (rest : List Char) : Bool :=
  match rest with
  | [] => false
  | x :: after =>
    (!(isGap x || isBreak x) && !isIndicator x) || (x == '-' && !(after.head?.any isGap)) ||
      (!flow && (x == '?' || x == ':') && !isGapOrEnd after)

/-- The next token; none if there is no token here. -/
def step (p : Progress) : Option Progress :=
  let c := p.cursor
  if c.column == 0 && c.at? '%' then p.directive
  else if c.atMarker '-' then p.documentMarker .documentStart
  else if c.atMarker '.' then p.documentMarker .documentEnd
  else
    match c.rest with
    | [] => none
    | '[' :: _ => p.openFlow .flowSequence
    | '\x7b' :: _ => p.openFlow .flowMapping
    | ']' :: _ => p.closeFlow .flowSequenceEnd
    | '\x7d' :: _ => p.closeFlow .flowMappingEnd
    | ',' :: _ => p.sign .flowEntry true
    | x :: after =>
      if x == '-' && isGapOrEnd after then p.blockEntry
      else if x == '?' && (p.inFlow || isGapOrEnd after) then p.markedKey
      else if x == ':' && (p.inFlow || isGapOrEnd after) then p.colon
      else if x == '*' then p.keyed fun c => (anchorName? c).map fun r => (.alias r.1, r.2)
      else if x == '&' then p.keyed fun c => (anchorName? c).map fun r => (.anchor r.1, r.2)
      else if x == '!' then p.keyed (tag? p.inFlow)
      else if x == '|' && !p.inFlow then p.blockScalar true
      else if x == '>' && !p.inFlow then p.blockScalar false
      else if x == '\'' then
        p.keyed fun c => (quoted true c).map fun r => (.scalar (String.ofList r.1) false, r.2)
      else if x == '"' then
        p.keyed fun c => (quoted false c).map fun r => (.scalar (String.ofList r.1) false, r.2)
      else if plainBegins p.inFlow c.rest then p.plainScalar
      else none

/-- All tokens from here on. Every token has at least one character. -/
def run (p : Progress) : Nat → Option (List Token)
  | 0 => none
  | fuel + 1 =>
    match (p.skipToToken (p.cursor.rest.length + 1)).expireKeys with
    | none => none
    | some p =>
      let p := p.closeBlocks (some p.cursor.column)
      if p.cursor.rest.isEmpty then
        ((p.closeBlocks none).dropKey).map fun p => p.tokens.reverse
      else
        match p.step with
        | none => none
        | some p => run p fuel

end Progress

/-- The tokens of a text. -/
def scan (cs : List Char) : Option (List Token) :=
  let cs := if cs.head? = some '\ufeff' then cs.drop 1 else cs
  if cs.all isAllowed then (Progress.start cs).run (cs.length + 2) else none

end Token

end BoardDesign.Yaml
