import BoardDesign.Text.Basic
/-!
Version numbers: three numbers, with a pre-release and a build that may follow.

No version can be written in two ways, so a version is its text.
-/

namespace BoardDesign

namespace Version

def isMark (c : Char) : Bool := Text.isDigit c || Text.isLetter c || c == '-'

/-- Digits without a needless zero at the front. -/
def isPlainNumber (cs : List Char) : Bool :=
  !cs.isEmpty && cs.all Text.isDigit && (cs.length == 1 || cs.head? != some '0')

/-- One of the three numbers, which has to fit in 64 bits. -/
def isNumber (cs : List Char) : Bool := isPlainNumber cs && Text.decimalValue cs < Nat.pow 2 64

/-- A part of a pre-release: marks, without a needless zero if they are digits. -/
def isPreReleasePart (cs : List Char) : Bool :=
  !cs.isEmpty && cs.all isMark && (!cs.all Text.isDigit || isPlainNumber cs)

def isBuildPart (cs : List Char) : Bool := !cs.isEmpty && cs.all isMark

/-- The text before the first separator, and what follows it if there is one. -/
def splitAt (sep : Char) (cs : List Char) : List Char × Option (List Char) :=
  match cs.dropWhile (· != sep) with
  | [] => (cs, none)
  | _ :: rest => (cs.takeWhile (· != sep), some rest)

/-- Every part between dots is as it has to be; what is absent has none. -/
def partsAll (isPart : List Char → Bool) (cs : Option (List Char)) : Bool :=
  cs.all fun cs => (Text.pieces '.' cs).all isPart

/-- A text that writes a version. -/
def isValid (text : String) : Bool :=
  let (front, build) := splitAt '+' text.toList
  let (core, preRelease) := splitAt '-' front
  let numbers := Text.pieces '.' core
  numbers.length == 3 && numbers.all isNumber && partsAll isPreReleasePart preRelease &&
    partsAll isBuildPart build

end Version

structure Version where
  text : String
  valid : Version.isValid text = true
deriving DecidableEq, Repr

/-- The version that a text writes. -/
def Version.ofText? (text : String) : Option Version :=
  if h : Version.isValid text = true then some ⟨text, h⟩ else none

end BoardDesign
