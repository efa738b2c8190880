import BoardDesign.Shell.Utility
/-!
Arithmetic expressions of scripts: numbers of 64 bits, names of variables and operators.
-/

namespace BoardDesign.Shell.Arithmetic

inductive Token where
  | number (n : Int)
  | operator (text : String)
deriving DecidableEq, Repr

/-- The operators between two operands, those that bind least first. -/
def levels : List (List String) :=
  [["||"], ["&&"], ["|"], ["^"], ["&"], ["==", "!="], ["<=", ">=", "<", ">"], ["<<", ">>"],
    ["+", "-"], ["*", "/", "%"]]

/-- All operators, the long ones first. -/
def operators : List String :=
  let found := levels.flatten ++ ["!", "~", "(", ")"]
  found.filter (·.length == 2) ++ found.filter (·.length == 1)

def wrapped (n : Int) : Int := n.bmod (Nat.pow 2 64)

def truth (b : Bool) : Int := if b then 1 else 0

def bits (f : BitVec 64 → BitVec 64 → BitVec 64) (a b : Int) : Int :=
  (f (BitVec.ofInt 64 a) (BitVec.ofInt 64 b)).toInt

/-- The value of an operator; none if it has none, as a quotient by zero. -/
def apply (operator : String) (a b : Int) : Option Int :=
  match operator with
  | "||" => some (truth (a != 0 || b != 0))
  | "&&" => some (truth (a != 0 && b != 0))
  | "|" => some (bits (· ||| ·) a b)
  | "^" => some (bits (· ^^^ ·) a b)
  | "&" => some (bits (· &&& ·) a b)
  | "==" => some (truth (a == b))
  | "!=" => some (truth (a != b))
  | "<=" => some (truth (a ≤ b))
  | ">=" => some (truth (a ≥ b))
  | "<" => some (truth (a < b))
  | ">" => some (truth (a > b))
  | "<<" => some (wrapped (a * Nat.pow 2 (b % 64).toNat))
  | ">>" => some (a >>> (b % 64).toNat)
  | "+" => some (wrapped (a + b))
  | "-" => some (wrapped (a - b))
  | "*" => some (wrapped (a * b))
  | "/" => if b = 0 then none else some (wrapped (a.tdiv b))
  | "%" => if b = 0 then none else some (a.tmod b)
  | _ => none

/-- The tokens of an expression; `value` gives the values of variables. `fuel` is more than the
length of the text. -/
def tokens (value : String → Int) : Nat → List Char → Option (List Token)
  | 0, _ => none
  | _, [] => some []
  | fuel + 1, c :: rest =>
    if Text.isBlank c then tokens value fuel rest
    else if Text.isDigit c then
      let digits := c :: rest.takeWhile Text.isDigit
      (tokens value fuel (rest.dropWhile Text.isDigit)).map
        (.number (wrapped (Text.decimalValue digits : Nat)) :: ·)
    else if Text.isLetter c || c == '_' then
      let isName (c : Char) : Bool := Text.isLetter c || c == '_' || Text.isDigit c
      (tokens value fuel (rest.dropWhile isName)).map
        (.number (value (String.ofList (c :: rest.takeWhile isName))) :: ·)
    else
      (operators.findSome? fun o => (Text.after o.toList (c :: rest)).map (o, ·)).bind
        fun (o, rest) => (tokens value fuel rest).map (.operator o :: ·)

mutual

/-- The value of the tokens at the front that operators of some levels join, and the rest. -/
def level : Nat → List (List String) → List Token → Option (Int × List Token)
  | 0, _, _ => none
  | fuel + 1, [], ts => operand fuel ts
  | fuel + 1, own :: tighter, ts =>
    (level fuel tighter ts).bind fun (a, rest) => more fuel own tighter a rest

/-- The same with a value in front of the tokens. -/
def more : Nat → List String → List (List String) → Int → List Token → Option (Int × List Token)
  | 0, _, _, _, _ => none
  | fuel + 1, own, tighter, a, ts =>
    match ts with
    | .operator o :: rest =>
      if own.contains o then
        (level fuel tighter rest).bind fun (b, rest) =>
          (apply o a b).bind fun c => more fuel own tighter c rest
      else some (a, ts)
    | _ => some (a, ts)

def operand : Nat → List Token → Option (Int × List Token)
  | 0, _ => none
  | fuel + 1, ts =>
    match ts with
    | .number n :: rest => some (n, rest)
    | .operator "-" :: rest => (operand fuel rest).map fun (n, rest) => (wrapped (-n), rest)
    | .operator "+" :: rest => operand fuel rest
    | .operator "!" :: rest => (operand fuel rest).map fun (n, rest) => (truth (n == 0), rest)
    | .operator "~" :: rest => (operand fuel rest).map fun (n, rest) => (-n - 1, rest)
    | .operator "(" :: rest =>
      match level fuel levels rest with
      | some (n, .operator ")" :: rest) => some (n, rest)
      | _ => none
    | _ => none

end

/-- The value of an expression, if it is one. -/
def eval? (value : String → Int) (text : String) : Option Int :=
  (tokens value (text.length + 1) text.toList).bind fun ts =>
    match ts with
    | [] => some 0
    | ts =>
      match level (16 * (ts.length + 1)) levels ts with
      | some (n, []) => some n
      | _ => none

end BoardDesign.Shell.Arithmetic
