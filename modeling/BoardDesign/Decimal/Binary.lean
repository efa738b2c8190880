/-!
Binary floating-point numbers of 53 significant bits, as exact mantissas and exponents.

Each operation rounds an exact quotient to the nearest number, a half to the even neighbour;
`ratio` does the rounding and every other operation goes through it.
-/

namespace BoardDesign.Decimal

/-- A finite number: `mantissa · 2 ^ exponent`, or its negative. -/
structure Binary where
  negative : Bool
  mantissa : Nat
  exponent : Int
deriving DecidableEq, Repr, Inhabited

namespace Binary

/-- The exponent of the smallest numbers. -/
def leastExponent : Int := -1074

def zero (negative : Bool) : Binary := ⟨negative, 0, leastExponent⟩

def isZero (x : Binary) : Bool := x.mantissa == 0

/-- Numbers of the same value; the two zeros have the same. -/
def same (x y : Binary) : Bool := (x.isZero && y.isZero) || x == y

/-- The number of binary digits. -/
def bits (n : Nat) : Nat := if n = 0 then 0 else n.log2 + 1

/-- A quotient rounded to the nearest whole number, a half to the even neighbour. -/
def roundDiv (num den : Nat) : Nat :=
  let q := num / den
  let r := num % den
  if 2 * r < den then q
  else if den < 2 * r then q + 1
  else if q % 2 = 0 then q else q + 1

/-- The quotient of two numbers as a multiple of `2 ^ e`, rounded. -/
def multiples (num den : Nat) (e : Int) : Nat :=
  if 0 ≤ e then roundDiv num (den * Nat.pow 2 e.toNat) else roundDiv (num * Nat.pow 2 (-e).toNat) den

/-- The nearest number to `num / den`; none if it is beyond the largest. -/
def ratio (negative : Bool) (num den : Nat) : Option Binary :=
  if num = 0 then some (zero negative)
  else
    let guess : Int := (bits num : Int) - (bits den : Int) - 53
    let e := max guess leastExponent
    let e := if Nat.pow 2 53 ≤ multiples num den e then e + 1 else e
    let m := multiples num den e
    let (m, e) := if m = Nat.pow 2 53 then (Nat.pow 2 52, e + 1) else (m, e)
    if 971 < e then none else some ⟨negative, m, e⟩

/-- The exact value as a numerator and a denominator, without the sign. -/
def fraction (x : Binary) : Nat × Nat :=
  if 0 ≤ x.exponent then (x.mantissa * Nat.pow 2 x.exponent.toNat, 1)
  else (x.mantissa, Nat.pow 2 (-x.exponent).toNat)

def ofNat (n : Nat) : Option Binary := ratio false n 1

def mul (x y : Binary) : Option Binary :=
  let (a, b) := x.fraction
  let (c, d) := y.fraction
  ratio (x.negative != y.negative) (a * c) (b * d)

/-- The quotient; the divisor is not zero. -/
def div (x y : Binary) : Option Binary :=
  let (a, b) := x.fraction
  let (c, d) := y.fraction
  ratio (x.negative != y.negative) (a * d) (b * c)

def neg (x : Binary) : Binary := { x with negative := !x.negative }

/-- The nearest number to `digits · 10 ^ exponent`. -/
def ofDecimal (negative : Bool) (digits : Nat) (exponent : Int) : Option Binary :=
  if 0 ≤ exponent then
    if 400 < exponent && digits ≠ 0 then none
    else ratio negative (digits * Nat.pow 10 (min exponent 400).toNat) 1
  else ratio negative digits (Nat.pow 10 (-exponent).toNat)

end Binary

end BoardDesign.Decimal
