import BoardDesign.Decimal.Shortest
import BoardDesign.Json.Value
import BoardDesign.Text.Hex
/-!
JSON text of values: on one line without spaces, or indented with a line for each item.
-/

namespace BoardDesign.Json

/-- A character inside a string. Only quotes, backslashes and controls are escaped. -/
def writeChar (c : Char) : List Char :=
  if c = '"' then ['\\', '"']
  else if c = '\\' then ['\\', '\\']
  else if c = '\n' then ['\\', 'n']
  else if c = '\r' then ['\\', 'r']
  else if c = '\t' then ['\\', 't']
  else if c = '\x08' then ['\\', 'b']
  else if c = '\x0c' then ['\\', 'f']
  else if c.toNat < 0x20 then ['\\', 'u', '0', '0'] ++ Text.Hex.ofByte (UInt8.ofNat c.toNat)
  else [c]

def writeString (s : String) : List Char := '"' :: s.toList.flatMap writeChar ++ ['"']

def writeInt (n : Int) : List Char := (Decimal.intText n).toList

/-- Fractions are positional from 0.00001 up to 10 ^ 16, and an exponent has its sign. -/
def fractionLayout : Decimal.Layout := ⟨16, 5, true⟩

def writeFloat (x : Decimal.Binary) : List Char := (x.text fractionLayout).toList

mutual

def writeCompact (a : Json) : List Char :=
  match a with
  | .null => "null".toList
  | .bool true => "true".toList
  | .bool false => "false".toList
  | .int n => writeInt n
  | .float x => writeFloat x
  | .str s => writeString s
  | .arr items => '[' :: writeItems items ++ [']']
  | .obj fields => '\x7b' :: writeFields fields ++ ['\x7d']
termination_by structural a

def writeItems (items : List Json) : List Char :=
  match items with
  | [] => []
  | [x] => writeCompact x
  | x :: rest => writeCompact x ++ ',' :: writeItems rest
termination_by structural items

def writeFields (fields : List (String × Json)) : List Char :=
  match fields with
  | [] => []
  | [(k, x)] => writeString k ++ ':' :: writeCompact x
  | (k, x) :: rest => writeString k ++ ':' :: writeCompact x ++ ',' :: writeFields rest
termination_by structural fields

end

/-- The text without any spaces. -/
def compact (a : Json) : String := String.ofList (writeCompact a)

def newline (step depth : Nat) : List Char := '\n' :: List.replicate (step * depth) ' '

mutual

def writePretty (step depth : Nat) (a : Json) : List Char :=
  match a with
  | .null => "null".toList
  | .bool true => "true".toList
  | .bool false => "false".toList
  | .int n => writeInt n
  | .float x => writeFloat x
  | .str s => writeString s
  | .arr [] => ['[', ']']
  | .arr (x :: rest) =>
    '[' :: newline step (depth + 1) ++ writePretty step (depth + 1) x ++
      prettyItems step (depth + 1) rest ++ newline step depth ++ [']']
  | .obj [] => ['\x7b', '\x7d']
  | .obj ((k, x) :: rest) =>
    '\x7b' :: newline step (depth + 1) ++ writeString k ++ ':' :: ' ' ::
      writePretty step (depth + 1) x ++ prettyFields step (depth + 1) rest ++
      newline step depth ++ ['\x7d']
termination_by structural a

def prettyItems (step depth : Nat) (items : List Json) : List Char :=
  match items with
  | [] => []
  | x :: rest =>
    ',' :: newline step depth ++ writePretty step depth x ++ prettyItems step depth rest
termination_by structural items

def prettyFields (step depth : Nat) (fields : List (String × Json)) : List Char :=
  match fields with
  | [] => []
  | (k, x) :: rest =>
    ',' :: newline step depth ++ writeString k ++ ':' :: ' ' :: writePretty step depth x ++
      prettyFields step depth rest
termination_by structural fields

end

/-- The text with a line for each item and `step` spaces for each level. -/
def pretty (step : Nat) (a : Json) : String := String.ofList (writePretty step 0 a)

end BoardDesign.Json
