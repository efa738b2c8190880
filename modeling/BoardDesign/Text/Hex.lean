import BoardDesign.Text.Basic
/-!
Hexadecimal digits of numbers and of byte sequences.

`bytes?_ofBytes` says that a byte sequence is read back from its digits.
-/

namespace BoardDesign.Text.Hex

/-- The lower-case digit of a number below 16. -/
def digit (n : Nat) : Char :=
  if n < 10 then Char.ofNat (n + 48) else Char.ofNat (n + 87)

def value? (c : Char) : Option Nat :=
  if '0' ≤ c && c ≤ '9' then some (c.toNat - 48)
  else if 'a' ≤ c && c ≤ 'f' then some (c.toNat - 87)
  else if 'A' ≤ c && c ≤ 'F' then some (c.toNat - 55)
  else none

/-- The digits of a number, most significant first; zero is one digit. -/
def ofNat (n : Nat) : List Char := go n n
where
  go : Nat → Nat → List Char
    | 0, n => [digit (n % 16)]
    | fuel + 1, n => if n < 16 then [digit n] else go fuel (n / 16) ++ [digit (n % 16)]

def toNat? : List Char → Option Nat := go 0
where
  go (acc : Nat) : List Char → Option Nat
    | [] => some acc
    | c :: rest =>
      match value? c with
      | some v => go (acc * 16 + v) rest
      | none => none

def ofByte (b : UInt8) : List Char := [digit (b.toNat / 16), digit (b.toNat % 16)]

def ofBytes (bytes : List UInt8) : List Char := bytes.flatMap ofByte

/-- The bytes that pairs of digits write; an odd number of digits writes none. -/
def bytes? : List Char → Option (List UInt8)
  | [] => some []
  | [_] => none
  | a :: b :: rest =>
    match value? a, value? b, bytes? rest with
    | some h, some l, some bytes => some (UInt8.ofNat (h * 16 + l) :: bytes)
    | _, _, _ => none

theorem value?_digit {n : Nat} (h : n < 16) : value? (digit n) = some n := by
  have : ∀ m : Fin 16, value? (digit m.val) = some m.val := by decide
  exact this ⟨n, h⟩

theorem bytes?_ofBytes (bytes : List UInt8) : bytes? (ofBytes bytes) = some bytes := by
  induction bytes with
  | nil => rfl
  | cons b rest ih =>
    have hb := UInt8.toNat_lt b
    have e : ofBytes (b :: rest)
        = digit (b.toNat / 16) :: digit (b.toNat % 16) :: ofBytes rest := rfl
    rw [e]
    simp only [bytes?, ih, value?_digit (show b.toNat / 16 < 16 by omega),
      value?_digit (show b.toNat % 16 < 16 by omega)]
    have hn : b.toNat / 16 * 16 + b.toNat % 16 = b.toNat := by omega
    rw [hn, UInt8.ofNat_toNat]

end BoardDesign.Text.Hex
