import BoardDesign.Text.Hex
/-!
Addresses: numbers of 64 bits in hexadecimal digits.
-/

namespace BoardDesign.Graph.Address

/-- The digits after an optional `0x` or `0X`. -/
def digits (cs : List Char) : List Char :=
  match cs with
  | '0' :: 'x' :: rest => rest
  | '0' :: 'X' :: rest => rest
  | rest => rest

/-- The number that hexadecimal digits write if it is below 2 ^ 64; a plus sign may stand before
the digits. -/
def ofDigits? (cs : List Char) : Option Nat :=
  let ds :=
    match cs with
    | '+' :: rest => rest
    | rest => rest
  if ds.isEmpty then none
  else (Text.Hex.toNat? ds).bind fun n => if n < Nat.pow 2 64 then some n else none

/-- The address that a text writes, white space at its ends aside. -/
def parse (s : String) : Option Nat := ofDigits? (digits (Text.trim s.toList))

end BoardDesign.Graph.Address
