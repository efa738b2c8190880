import BoardDesign.Json.Number
import BoardDesign.Text.Hex
import BoardDesign.Text.Utf8
/-!
Reading JSON text.

`Json.parse` reads a whole document and keeps the fields of its objects as they are written.
Arrays and objects may be nested 127 deep.
-/

namespace BoardDesign.Json

def isSpace (c : Char) : Bool := c == ' ' || c == '\t' || c == '\n' || c == '\r'

def skipSpace (cs : List Char) : List Char := cs.dropWhile isSpace

/-- The number that four hexadecimal digits write. -/
def unit? : List Char → Option (Nat × List Char)
  | a :: b :: c :: d :: rest => (Text.Hex.toNat? [a, b, c, d]).map (·, rest)
  | _ => none

/-- The character that an escape writes, after its backslash. A character beyond the first
65536 is written as two halves; neither half stands alone. -/
def escape? : List Char → Option (Char × List Char)
  | '"' :: r => some ('"', r)
  | '\\' :: r => some ('\\', r)
  | '/' :: r => some ('/', r)
  | 'b' :: r => some ('\x08', r)
  | 'f' :: r => some ('\x0c', r)
  | 'n' :: r => some ('\n', r)
  | 'r' :: r => some ('\r', r)
  | 't' :: r => some ('\t', r)
  | 'u' :: r =>
    match unit? r with
    | none => none
    | some (n, r) =>
      if 0xD800 ≤ n && n < 0xDC00 then
        match r with
        | '\\' :: 'u' :: r =>
          match unit? r with
          | none => none
          | some (m, r) =>
            if 0xDC00 ≤ m && m < 0xE000 then
              some (Char.ofNat (0x10000 + (n - 0xD800) * 0x400 + (m - 0xDC00)), r)
            else none
        | _ => none
      else if 0xDC00 ≤ n && n < 0xE000 then none
      else some (Char.ofNat n, r)
  | _ => none

/-- The characters of a string up to its closing quote, and the rest. -/
def stringBody : Nat → List Char → Option (List Char × List Char)
  | 0, _ => none
  | _ + 1, [] => none
  | _ + 1, '"' :: r => some ([], r)
  | fuel + 1, '\\' :: r =>
    match escape? r with
    | none => none
    | some (c, r) => (stringBody fuel r).map fun b => (c :: b.1, b.2)
  | fuel + 1, c :: r =>
    if c.toNat < 0x20 then none else (stringBody fuel r).map fun b => (c :: b.1, b.2)

mutual

/-- A value at the start of a text, and the rest; `depth` is how many arrays and objects, less
one, may still be opened. -/
def readValue : Nat → Nat → List Char → Option (Json × List Char)
  | 0, _, _ => none
  | fuel + 1, depth, cs =>
    match skipSpace cs with
    | '"' :: r => (stringBody fuel r).map fun b => (.str (String.ofList b.1), b.2)
    | '[' :: r =>
      if depth ≤ 1 then none
      else
        match skipSpace r with
        | ']' :: r => some (.arr [], r)
        | r => (readItems fuel (depth - 1) r).map fun b => (.arr b.1, b.2)
    | '\x7b' :: r =>
      if depth ≤ 1 then none
      else
        match skipSpace r with
        | '\x7d' :: r => some (.obj [], r)
        | r => (readFields fuel (depth - 1) r).map fun b => (.obj b.1, b.2)
    | 'n' :: 'u' :: 'l' :: 'l' :: r => some (.null, r)
    | 't' :: 'r' :: 'u' :: 'e' :: r => some (.bool true, r)
    | 'f' :: 'a' :: 'l' :: 's' :: 'e' :: r => some (.bool false, r)
    | r => Number.read? r

/-- The items of an array up to its closing bracket. -/
def readItems : Nat → Nat → List Char → Option (List Json × List Char)
  | 0, _, _ => none
  | fuel + 1, depth, cs =>
    match readValue fuel depth cs with
    | none => none
    | some (x, r) =>
      match skipSpace r with
      | ',' :: r => (readItems fuel depth r).map fun b => (x :: b.1, b.2)
      | ']' :: r => some ([x], r)
      | _ => none

/-- The fields of an object up to its closing brace. -/
def readFields : Nat → Nat → List Char → Option (List (String × Json) × List Char)
  | 0, _, _ => none
  | fuel + 1, depth, cs =>
    match skipSpace cs with
    | '"' :: r =>
      match stringBody fuel r with
      | none => none
      | some (name, r) =>
        match skipSpace r with
        | ':' :: r =>
          match readValue fuel depth r with
          | none => none
          | some (x, r) =>
            match skipSpace r with
            | ',' :: r =>
              (readFields fuel depth r).map fun b => ((String.ofList name, x) :: b.1, b.2)
            | '\x7d' :: r => some ([(String.ofList name, x)], r)
            | _ => none
        | _ => none
    | _ => none

end

/-- How deep a document may be nested, plus one. -/
def depthLimit : Nat := 128

/-- The document that a text holds. -/
def parseChars (cs : List Char) : Option Json :=
  match readValue (2 * cs.length + 2) depthLimit cs with
  | some (x, r) => if (skipSpace r).isEmpty then some x else none
  | none => none

def parse (s : String) : Option Json := parseChars s.toList

/-- The document that bytes hold. -/
def parseBytes (bytes : List UInt8) : Option Json :=
  (Text.Utf8.decode? bytes).bind parseChars

end BoardDesign.Json
