import BoardDesign.Decimal.Shortest
import BoardDesign.Table
import BoardDesign.Text.Basic
import BoardDesign.Yaml.Node
/-!
YAML values: what nodes mean.

A plain scalar is null, a truth value, a number or a text, by its look; a quoted one is a text.
Digits behind a leading zero are a text. No mapping has a key twice.
-/

namespace BoardDesign.Yaml

inductive Fraction where
  | finite (x : Decimal.Binary)
  | infinite (negative : Bool)
  | notANumber
deriving DecidableEq, Repr, Inhabited

inductive Value where
  | null
  | bool (b : Bool)
  | int (n : Int)
  | fraction (x : Fraction)
  | text (s : String)
  | seq (items : List Value)
  | map (pairs : List (Value × Value))
deriving Repr, BEq, Inhabited

/-- How a plain scalar looks. -/
inductive Look where
  | null
  | bool (b : Bool)
  | int (n : Int)
  /-- A whole number beyond the 64-bit ones. -/
  | large
  | fraction (x : Fraction)
  | text
deriving DecidableEq, Repr

namespace Look

def isNull (s : String) : Bool := s == "null" || s == "Null" || s == "NULL" || s == "~"

def bool? (s : String) : Option Bool :=
  if s == "true" || s == "True" || s == "TRUE" then some true
  else if s == "false" || s == "False" || s == "FALSE" then some false
  else none

def isSign (c : Char) : Bool := c == '+' || c == '-'

/-- Digits behind a leading zero. -/
def paddedDigits (cs : List Char) : Bool :=
  let ds :=
    match cs with
    | c :: rest => if isSign c then rest else cs
    | [] => cs
  match ds with
  | '0' :: rest => !rest.isEmpty && rest.all Text.isDigit
  | _ => false

def digitIn? (base : Nat) (c : Char) : Option Nat :=
  (Text.Hex.value? c).bind fun v => if v < base then some v else none

/-- The number that digits of a base write; there is at least one. -/
def digits? (base : Nat) (cs : List Char) : Option Nat :=
  if cs.isEmpty then none
  else cs.foldl (fun n c => n.bind fun n => (digitIn? base c).map fun d => n * base + d) (some 0)

/-- A number of a base with an optional sign. -/
def signed? (base : Nat) (cs : List Char) : Option Int :=
  match cs with
  | '+' :: rest => (digits? base rest).map Int.ofNat
  | '-' :: rest => (digits? base rest).map fun n => -(n : Int)
  | rest => (digits? base rest).map Int.ofNat

/-- The base that the beginning of a number names, and the digits. -/
def based? (cs : List Char) : Option (Nat × List Char) :=
  match cs with
  | '0' :: 'x' :: rest => some (16, rest)
  | '0' :: 'o' :: rest => some (8, rest)
  | '0' :: 'b' :: rest => some (2, rest)
  | _ => none

/-- A number without a minus sign. -/
def unsigned? (cs : List Char) : Option Nat :=
  let body :=
    match cs with
    | '+' :: rest => rest
    | rest => rest
  match (based? body).bind fun b => digits? b.1 b.2 with
  | some n => some n
  | none => if paddedDigits cs then none else digits? 10 body

/-- A number that may have a minus sign. -/
def negative? (cs : List Char) : Option Int :=
  let based :=
    match cs with
    | '-' :: rest => (based? rest).bind fun b => (digits? b.1 b.2).map fun n => -(n : Int)
    | _ => none
  match based with
  | some n => some n
  | none => if paddedDigits cs then none else signed? 10 cs

/-- A whole number of 64 bits; `large` if it is one of 128 bits. -/
def int? (cs : List Char) : Option Look :=
  match unsigned? cs with
  | some n =>
    if n < Nat.pow 2 64 then some (.int n) else if n < Nat.pow 2 128 then some .large else none
  | none =>
    match negative? cs with
    | some n =>
      if -(Nat.pow 2 63 : Int) ≤ n then some (.int n) else if -(Nat.pow 2 127 : Int) ≤ n then some .large else none
    | none => none

/-- The parts of a fraction: the digits, how many of them stand behind the point, and the
exponent. -/
def fractionParts? (cs : List Char) : Option (List Char × Nat × Int) :=
  let whole := cs.takeWhile Text.isDigit
  let rest := cs.dropWhile Text.isDigit
  let (part, rest) :=
    match rest with
    | '.' :: r => (r.takeWhile Text.isDigit, r.dropWhile Text.isDigit)
    | r => ([], r)
  if whole.isEmpty && part.isEmpty then none
  else
    match rest with
    | [] => some (whole ++ part, part.length, 0)
    | c :: r =>
      if c == 'e' || c == 'E' then (signed? 10 r).map fun e => (whole ++ part, part.length, e)
      else none

/-- The finite fraction nearest to what is written. -/
def finite? (cs : List Char) : Option Decimal.Binary :=
  let (negative, body) :=
    match cs with
    | '-' :: rest => (true, rest)
    | rest => (false, rest)
  match fractionParts? body with
  | none => none
  | some (ds, places, e) =>
    let e := e - places
    -- Beyond these exponents the digits decide nothing but whether the number is zero.
    if e < -400 - (ds.length : Int) then some (.zero negative)
    else Decimal.Binary.ofDecimal negative (Text.decimalValue ds) e

def fraction? (s : String) : Option Fraction :=
  let body :=
    match s.toList with
    | '+' :: rest => rest
    | rest => rest
  if s.toList.head? == some '+' && body.head?.any isSign then none
  else
    let t := String.ofList body
    if t == ".inf" || t == ".Inf" || t == ".INF" then some (.infinite false)
    else if s == "-.inf" || s == "-.Inf" || s == "-.INF" then some (.infinite true)
    else if s == ".nan" || s == ".NaN" || s == ".NAN" then some .notANumber
    else (finite? body).map .finite

/-- The look of a plain scalar. -/
def of (s : String) : Look :=
  if s.isEmpty || isNull s then .null
  else
    match bool? s with
    | some b => .bool b
    | none =>
      match int? s.toList with
      | some look => look
      | none =>
        if paddedDigits s.toList then .text
        else
          match fraction? s with
          | some x => .fraction x
          | none => .text

end Look

namespace Value

/-- The value of a look; none if no value has it. -/
def ofLook? (s : String) : Look → Option Value
  | .null => some .null
  | .bool b => some (.bool b)
  | .int n => some (.int n)
  | .large => none
  | .fraction x => some (.fraction x)
  | .text => some (.text s)

/-- The type that a tag of the core schema names. -/
def coreTag (name : String) : String := "tag:yaml.org,2002:" ++ name

/-- The value of a scalar; none if its text does not suit its tag. -/
def ofScalar? (tag : Option String) (s : String) (isPlain : Bool) : Option Value :=
  match tag with
  | none => if isPlain then ofLook? s (Look.of s) else some (.text s)
  | some t =>
    if t == coreTag "bool" then (Look.bool? s).map .bool
    else if t == coreTag "int" then (Look.int? s.toList).bind (ofLook? s)
    else if t == coreTag "float" then (Look.fraction? s).map .fraction
    else if t == coreTag "null" then if Look.isNull s then some .null else none
    else some (.text s)

/-- A tag of the document's own, which no value has. -/
def isOwnTag (tag : Option String) : Bool := tag.any fun t => t.toList.head? == some '!'

/-- A pair put behind others, unless its key is among theirs. -/
def addPair? (pairs : List (Value × Value)) (k v : Value) : Option (List (Value × Value)) :=
  if pairs.any fun p => p.1 == k then none else some (pairs ++ [(k, v)])

mutual

/-- The value of a node; none if there is no such value. -/
def ofNode? (n : Node) : Option Value :=
  match n with
  | .scalar tag s isPlain => if isOwnTag tag then none else ofScalar? tag s isPlain
  | .seq tag items => if isOwnTag tag then none else (ofNodes? items).map .seq
  | .map tag pairs => if isOwnTag tag then none else (ofPairs? [] pairs).map .map
termination_by structural n

def ofNodes? (items : List Node) : Option (List Value) :=
  match items with
  | [] => some []
  | n :: rest =>
    match ofNode? n, ofNodes? rest with
    | some v, some vs => some (v :: vs)
    | _, _ => none
termination_by structural items

def ofPairs? (done : List (Value × Value)) (pairs : List (Node × Node)) :
    Option (List (Value × Value)) :=
  match pairs with
  | [] => some done
  | (k, v) :: rest =>
    match ofNode? k, ofNode? v with
    | some k, some v =>
      match addPair? done k v with
      | some done => ofPairs? done rest
      | none => none
    | _, _ => none
termination_by structural pairs

end

end Value

end BoardDesign.Yaml
