import BoardDesign.Json.Value
import BoardDesign.Text.Basic
/-!
JSON numbers as they are written.

A whole number that fits 64 bits is one. Every other number is a fraction: its leading digits
are gathered as long as they fit 64 bits, and the gathered number is then multiplied or divided
once by a power of ten. `-0` is a fraction too, for it has a sign.
-/

namespace BoardDesign.Json.Number

open Decimal (Binary)
open Text (isDigit digitValue)

/-- The gathered number with as many further digits as fit, and the digits left over. -/
def gather (acc : Nat) : List Char → Nat × List Char
  | [] => (acc, [])
  | d :: ds =>
    if acc * 10 + digitValue d < Nat.pow 2 64 then gather (acc * 10 + digitValue d) ds
    else (acc, d :: ds)

/-- The largest power of ten that a fraction is multiplied or divided by in one step. -/
def greatestPower : Nat := 308

/-- The value of `x · 10 ^ exponent`; none if it is beyond the largest fraction. -/
def scale (x : Binary) (exponent : Int) : Nat → Option Binary
  | 0 => some x
  | fuel + 1 =>
    if exponent.natAbs ≤ greatestPower then
      (Binary.ofNat (Nat.pow 10 exponent.natAbs)).bind fun power =>
        if 0 ≤ exponent then x.mul power else x.div power
    else if x.isZero then some x
    else if 0 ≤ exponent then none
    else
      match (Binary.ofNat (Nat.pow 10 greatestPower)).bind x.div with
      | some y => scale y (exponent + greatestPower) fuel
      | none => none

/-- The fraction with the gathered digits and exponent. -/
def fraction (negative : Bool) (digits : Nat) (exponent : Int) : Option Json :=
  match (Binary.ofNat digits).bind fun x => scale x exponent 8 with
  | some x => some (.float (if negative then x.neg else x))
  | none => none

/-- Exponents are counted in 32 bits. -/
def greatestExponent : Int := Nat.pow 2 31 - 1

def clamp (e : Int) : Int := max (-(Nat.pow 2 31 : Int)) (min e greatestExponent)

/-- The number with the digits of its exponent, and the rest; `down` is the sign of the exponent. -/
def exponentDigits? (digits : Nat) (negative : Bool) (start : Int) (down : Bool)
    (cs : List Char) : Option (Json × List Char) :=
  let ds := cs.takeWhile isDigit
  let rest := cs.dropWhile isDigit
  if ds.isEmpty then none
  else
    let e : Int := Text.decimalValue ds
    if greatestExponent < e then
      if digits ≠ 0 && !down then none else some (.float (Binary.zero negative), rest)
    else
      (fraction negative digits (clamp (if down then start - e else start + e))).map (·, rest)

/-- The number with the exponent after `e`, and the rest. -/
def exponent? (digits : Nat) (negative : Bool) (start : Int) (cs : List Char) :
    Option (Json × List Char) :=
  match cs with
  | '+' :: r => exponentDigits? digits negative start false r
  | '-' :: r => exponentDigits? digits negative start true r
  | r => exponentDigits? digits negative start false r

/-- What follows the digits: a whole number ends here, a fraction goes on. -/
def afterDigits (negative : Bool) (digits : Nat) (start : Int) (cs : List Char) :
    Option (Json × List Char) :=
  match cs with
  | 'e' :: r => exponent? digits negative start r
  | 'E' :: r => exponent? digits negative start r
  | r => (fraction negative digits start).map (·, r)

/-- The number with the digits after the point, and the rest. -/
def afterPoint (negative : Bool) (digits : Nat) (start : Int) (cs : List Char) :
    Option (Json × List Char) :=
  let fs := cs.takeWhile isDigit
  let rest := cs.dropWhile isDigit
  if fs.isEmpty then none
  else
    let (digits', left) := gather digits fs
    afterDigits negative digits' (start - (fs.length - left.length : Nat)) rest

/-- The number that ends with its gathered digits; `left` are those that did not fit. -/
def whole (negative : Bool) (digits : Nat) (left cs : List Char) : Option (Json × List Char) :=
  if !left.isEmpty then afterDigits negative digits left.length cs
  else if !negative then some (.int digits, cs)
  else if digits = 0 || Nat.pow 2 63 < digits then
    (Binary.ofNat digits).map fun x => (.float x.neg, cs)
  else some (.int (-digits), cs)

/-- The number after the digits in front, and the rest; `left` are those that did not fit. -/
def afterWhole (negative : Bool) (digits : Nat) (left cs : List Char) :
    Option (Json × List Char) :=
  match cs with
  | '.' :: r => afterPoint negative digits left.length r
  | 'e' :: _ => afterDigits negative digits left.length cs
  | 'E' :: _ => afterDigits negative digits left.length cs
  | r => whole negative digits left r

/-- The number after its sign, and the rest. -/
def unsigned? (negative : Bool) (cs : List Char) : Option (Json × List Char) :=
  match cs.takeWhile isDigit with
  | [] => none
  | '0' :: _ :: _ => none
  | ds =>
    let (digits, left) := gather 0 ds
    afterWhole negative digits left (cs.dropWhile isDigit)

/-- A number at the start of a text, and the rest of the text. -/
def read? (cs : List Char) : Option (Json × List Char) :=
  match cs with
  | '-' :: r => unsigned? true r
  | r => unsigned? false r

end BoardDesign.Json.Number
