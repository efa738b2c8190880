import BoardDesign.Text.Basic
import BoardDesign.Text.CaseTable
/-!
Upper and lower case of whole texts. A character may become several (`ß` is `SS` in upper case),
and a capital sigma at the end of a word has a lower-case form of its own.
-/

namespace BoardDesign.Text

open CaseTable

def upperChar (c : Char) : List Char :=
  if c.toNat < 0x80 then [upperLetter c]
  else
    match findForm upperForms c.toNat with
    | some form => form.map Char.ofNat
    | none => [((Run.find? upperRuns c.toNat).map Char.ofNat).getD c]

def lowerChar (c : Char) : List Char :=
  if c.toNat < 0x80 then [lowerLetter c]
  else
    match findForm lowerForms c.toNat with
    | some form => form.map Char.ofNat
    | none => [((Run.find? lowerRuns c.toNat).map Char.ofNat).getD c]

/-- The next character that counts for the end of a word is a letter with case. -/
def meetsCased (cs : List Char) : Bool :=
  match cs.dropWhile fun c => inRanges ignorable c.toNat with
  | c :: _ => inRanges cased c.toNat
  | [] => false

def toUpper (cs : List Char) : List Char := cs.flatMap upperChar

/-- A text in lower case; `done` holds the characters before, the last one first. -/
def toLowerAfter : List Char → List Char → List Char
  | _, [] => []
  | done, c :: rest =>
    (if c = 'Σ' then
      if meetsCased done && !meetsCased rest then ['ς'] else ['σ']
    else lowerChar c) ++ toLowerAfter (c :: done) rest

def toLower (cs : List Char) : List Char := toLowerAfter [] cs

end BoardDesign.Text
