import BoardDesign.Decimal.Binary
/-!
The shortest decimal text that reads back as a given floating-point number.

For one digit, two digits and so on the two neighbours of the number on that decimal grid are
tried; the first grid with a neighbour that rounds to the number gives the digits. Of two such
neighbours the nearer counts, and the even one if both are as near.
-/

namespace BoardDesign.Decimal

namespace Binary

/-- Whether `num / den` rounds to the number: it lies between the two half-way points, which
themselves count if the mantissa is even. -/
def hits (x : Binary) (num den : Nat) : Bool :=
  let lowBits := x.mantissa = Nat.pow 2 52 && leastExponent < x.exponent
  -- Half-way points in units of a quarter of the last binary place.
  let low := if lowBits then 4 * x.mantissa - 1 else 4 * x.mantissa - 2
  let high := 4 * x.mantissa + 2
  let (scale, unit) :=
    if 0 ≤ x.exponent then (Nat.pow 2 x.exponent.toNat, 4) else (1, 4 * Nat.pow 2 (-x.exponent).toNat)
  let value := num * unit
  let even := x.mantissa % 2 = 0
  (low * scale * den < value || (even && low * scale * den = value)) &&
    (value < high * scale * den || (even && value = high * scale * den))

/-- The least exponent `p` with `num / den < 10 ^ p`. -/
def decade (num den : Nat) : Int :=
  if den ≤ num then up 1 10 400 else -(down 0 10 400 : Nat)
where
  up (p power : Nat) : Nat → Nat
    | 0 => p
    | fuel + 1 => if num < den * power then p else up (p + 1) (power * 10) fuel
  down (p power : Nat) : Nat → Nat
    | 0 => p
    | fuel + 1 => if den ≤ num * power then p else down (p + 1) (power * 10) fuel

/-- A number without the zeros at its end, and how many there were. -/
def dropZeros (n : Nat) : Nat × Nat := go n 0 400
where
  go (n k : Nat) : Nat → Nat × Nat
    | 0 => (n, k)
    | fuel + 1 => if n ≠ 0 && n % 10 = 0 then go (n / 10) (k + 1) fuel else (n, k)

/-- The shortest digits of a positive number and the power of ten that they count. -/
def shortest (x : Binary) : Nat × Int :=
  let (num, den) := x.fraction
  let p := decade num den
  let (digits, k) := go num den p 1 17
  let (digits, zeros) := dropZeros digits
  (digits, k + zeros)
where
  go (num den : Nat) (p : Int) (n : Nat) : Nat → Nat × Int
    | 0 => (0, 0)
    | fuel + 1 =>
      let k : Int := p - n
      let (a, b) := if 0 ≤ k then (num, den * Nat.pow 10 k.toNat) else (num * Nat.pow 10 (-k).toNat, den)
      let d := a / b
      let r := a % b
      let asRatio (d : Nat) : Nat × Nat :=
        if 0 ≤ k then (d * Nat.pow 10 k.toNat, 1) else (d, Nat.pow 10 (-k).toNat)
      let below := x.hits (asRatio d).1 (asRatio d).2
      let above := x.hits (asRatio (d + 1)).1 (asRatio (d + 1)).2
      if below && above then
        if 2 * r < b then (d, k)
        else if b < 2 * r then (d + 1, k)
        else if d % 2 = 0 then (d, k) else (d + 1, k)
      else if below then (d, k)
      else if above then (d + 1, k)
      else go num den p (n + 1) fuel

end Binary

/-- The decimal digits of a number, most significant first. -/
def digitsOf (n : Nat) : List Char := go n n
where
  go : Nat → Nat → List Char
    | 0, n => [Char.ofNat (48 + n % 10)]
    | fuel + 1, n =>
      if n < 10 then [Char.ofNat (48 + n)] else go fuel (n / 10) ++ [Char.ofNat (48 + n % 10)]

def natText (n : Nat) : String := String.ofList (digitsOf n)

def intText (n : Int) : String :=
  if n < 0 then "-" ++ natText n.natAbs else natText n.natAbs

/-- A number with at most `most` digits before the point is written positionally, a number below
one with fewer than `zeros` zeros after the point too, all others with an exponent. An exponent
that is not negative has a plus sign if `plus` is set. -/
structure Layout where
  most : Int
  zeros : Int
  plus : Bool

/-- The text of a number in a layout. -/
def Binary.text (layout : Layout) (x : Binary) : String :=
  let sign := if x.negative then "-" else ""
  if x.isZero then sign ++ "0.0"
  else
    let (digits, k) := x.shortest
    let ds := digitsOf digits
    let point : Int := ds.length + k
    sign ++ String.ofList (
      if 0 ≤ k && point ≤ layout.most then ds ++ List.replicate k.toNat '0' ++ ['.', '0']
      else if 0 < point && point ≤ layout.most then
        ds.take point.toNat ++ '.' :: ds.drop point.toNat
      else if -layout.zeros < point && point ≤ 0 then
        '0' :: '.' :: List.replicate (-point).toNat '0' ++ ds
      else
        let plus := if layout.plus && 1 ≤ point then ['+'] else []
        let exponent := plus ++ (intText (point - 1)).toList
        match ds with
        | [d] => d :: 'e' :: exponent
        | d :: rest => d :: '.' :: rest ++ 'e' :: exponent
        | [] => [])

end BoardDesign.Decimal
