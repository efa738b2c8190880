import BoardDesign.Text.Hex
/-!
The words of TOML text: blanks, comments, line ends, keys and strings.

Each function reads a word at the start of a text and gives it with the rest.
-/

namespace BoardDesign.Toml

def isSpace (c : Char) : Bool := c == ' ' || c == '\t'

def skipSpace (cs : List Char) : List Char := cs.dropWhile isSpace

/-- A tab, and every character that is not a control character. -/
def isPlain (c : Char) : Bool := c == '\t' || (0x20 ≤ c.toNat && c.toNat ≠ 0x7f)

/-- The rest after a line end. -/
def lineEnd? : List Char → Option (List Char)
  | '\n' :: r => some r
  | '\r' :: '\n' :: r => some r
  | _ => none

/-- The rest after a comment, if there is one. -/
def skipComment : List Char → List Char
  | '#' :: r => r.dropWhile isPlain
  | cs => cs

/-- The rest of a line that holds nothing more than a comment, from its line end on. -/
def endOfLine? (cs : List Char) : Option (List Char) :=
  match skipComment (skipSpace cs) with
  | [] => some []
  | r => lineEnd? r

/-- The rest after blanks, comments and line ends. -/
def skipLines : Nat → List Char → List Char
  | 0, cs => cs
  | fuel + 1, cs =>
    let r := skipComment (skipSpace cs)
    match lineEnd? r with
    | some r => skipLines fuel r
    | none => r

def isBareKeyChar (c : Char) : Bool :=
  Text.isLetter c || Text.isDigit c || c == '_' || c == '-'

/-- The character that a number of hexadecimal digits writes. -/
def charOf? (digits : Nat) (cs : List Char) : Option (Char × List Char) :=
  if (cs.take digits).length < digits then none
  else
    match Text.Hex.toNat? (cs.take digits) with
    | some n => if h : n.isValidChar then some (Char.ofNatAux n h, cs.drop digits) else none
    | none => none

/-- The character that an escape writes, after its backslash. -/
def escape? : List Char → Option (Char × List Char)
  | 'b' :: r => some ('\x08', r)
  | 't' :: r => some ('\t', r)
  | 'n' :: r => some ('\n', r)
  | 'f' :: r => some ('\x0c', r)
  | 'r' :: r => some ('\r', r)
  | '"' :: r => some ('"', r)
  | '\\' :: r => some ('\\', r)
  | 'u' :: r => charOf? 4 r
  | 'U' :: r => charOf? 8 r
  | _ => none

/-- The characters of a basic string up to its closing quote. -/
def basicBody : Nat → List Char → Option (List Char × List Char)
  | 0, _ => none
  | _ + 1, [] => none
  | _ + 1, '"' :: r => some ([], r)
  | fuel + 1, '\\' :: r =>
    match escape? r with
    | none => none
    | some (c, r) => (basicBody fuel r).map fun b => (c :: b.1, b.2)
  | fuel + 1, c :: r =>
    if isPlain c then (basicBody fuel r).map fun b => (c :: b.1, b.2) else none

/-- The characters of a literal string up to its closing quote. -/
def literalBody : List Char → Option (List Char × List Char)
  | [] => none
  | '\'' :: r => some ([], r)
  | c :: r => if isPlain c then (literalBody r).map fun b => (c :: b.1, b.2) else none

/-- The end of a string in triple quotes: three quotes, and up to two more before them that
belong to the string. -/
def tripleEnd? (quote : Char) (cs : List Char) : Option (List Char × List Char) :=
  let quotes := cs.takeWhile (· == quote)
  if quotes.length < 3 then none
  else
    let own := min (quotes.length - 3) 2
    some (List.replicate own quote, cs.drop (own + 3))

/-- Whether a backslash stands at the end of its line. -/
def joinsLines (cs : List Char) : Bool := (lineEnd? (skipSpace cs)).isSome

/-- The rest after blanks and line ends. -/
def skipBlankLines : Nat → List Char → List Char
  | 0, cs => cs
  | fuel + 1, cs =>
    match lineEnd? (skipSpace cs) with
    | some r => skipBlankLines fuel r
    | none => skipSpace cs

/-- The characters of a string in triple quotes. A line end is read as a line feed; with
`escapes` a backslash at the end of a line joins it to the next line that is not blank. -/
def tripleBody (quote : Char) (escapes : Bool) : Nat → List Char → Option (List Char × List Char)
  | 0, _ => none
  | fuel + 1, cs =>
    match tripleEnd? quote cs, cs with
    | some b, _ => some b
    | none, [] => none
    | none, c :: r =>
      match lineEnd? cs with
      | some r => (tripleBody quote escapes fuel r).map fun b => ('\n' :: b.1, b.2)
      | none =>
        if escapes && c == '\\' then
          if joinsLines r then tripleBody quote escapes fuel (skipBlankLines r.length r)
          else
            match escape? r with
            | none => none
            | some (c, r) => (tripleBody quote escapes fuel r).map fun b => (c :: b.1, b.2)
        else if isPlain c then (tripleBody quote escapes fuel r).map fun b => (c :: b.1, b.2)
        else none

/-- The body of a string in triple quotes; a line end right after the opening ones is left
out. -/
def triple? (quote : Char) (escapes : Bool) (cs : List Char) : Option (List Char × List Char) :=
  tripleBody quote escapes (cs.length + 1) ((lineEnd? cs).getD cs)

def string? : List Char → Option (List Char × List Char)
  | '"' :: '"' :: '"' :: r => triple? '"' true r
  | '"' :: r => basicBody (r.length + 1) r
  | '\'' :: '\'' :: '\'' :: r => triple? '\'' false r
  | '\'' :: r => literalBody r
  | _ => none

/-- One part of a key. -/
def keyPart? : List Char → Option (String × List Char)
  | '"' :: r => (basicBody (r.length + 1) r).map fun b => (String.ofList b.1, b.2)
  | '\'' :: r => (literalBody r).map fun b => (String.ofList b.1, b.2)
  | cs =>
    match cs.takeWhile isBareKeyChar with
    | [] => none
    | name => some (String.ofList name, cs.dropWhile isBareKeyChar)

/-- The parts of a key between dots. -/
def keyParts? : Nat → List Char → Option (List String × List Char)
  | 0, _ => none
  | fuel + 1, cs =>
    match keyPart? (skipSpace cs) with
    | none => none
    | some (part, r) =>
      match skipSpace r with
      | '.' :: r => (keyParts? fuel r).map fun k => (part :: k.1, k.2)
      | r => some ([part], r)

def key? (cs : List Char) : Option (List String × List Char) := keyParts? (cs.length + 1) cs

end BoardDesign.Toml
