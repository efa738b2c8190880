/-!
Characters as bytes, one to four for each.

`decode?` refuses bytes that no text has: a continuation byte out of place, a form longer than
needed, a surrogate, a number beyond the last character.
-/

namespace BoardDesign.Text.Utf8

def encodeChar (c : Char) : List UInt8 :=
  let n := c.toNat
  if n < 0x80 then [UInt8.ofNat n]
  else if n < 0x800 then [UInt8.ofNat (0xC0 + n / 0x40), UInt8.ofNat (0x80 + n % 0x40)]
  else if n < 0x10000 then
    [UInt8.ofNat (0xE0 + n / 0x1000), UInt8.ofNat (0x80 + n / 0x40 % 0x40),
      UInt8.ofNat (0x80 + n % 0x40)]
  else
    [UInt8.ofNat (0xF0 + n / 0x40000), UInt8.ofNat (0x80 + n / 0x1000 % 0x40),
      UInt8.ofNat (0x80 + n / 0x40 % 0x40), UInt8.ofNat (0x80 + n % 0x40)]

def encode (cs : List Char) : List UInt8 := cs.flatMap encodeChar

def bytes (s : String) : List UInt8 := encode s.toList

/-- The low six bits of a continuation byte. -/
def continuation? (b : UInt8) : Option Nat :=
  if 0x80 ≤ b.toNat && b.toNat < 0xC0 then some (b.toNat - 0x80) else none

/-- A number that is a character and not below a given one. -/
def charFrom? (least n : Nat) : Option Char :=
  if least ≤ n && (n < 0xD800 || (0xE000 ≤ n && n < 0x110000)) then some (Char.ofNat n) else none

/-- The characters that bytes encode. -/
def decode? : List UInt8 → Option (List Char)
  | [] => some []
  | a :: r =>
    if a.toNat < 0x80 then (decode? r).map (Char.ofNat a.toNat :: ·)
    else
      match r with
      | [] => none
      | b :: r =>
        match continuation? b with
        | none => none
        | some y =>
          if a.toNat < 0xC0 then none
          else if a.toNat < 0xE0 then
            match charFrom? 0x80 ((a.toNat - 0xC0) * 0x40 + y) with
            | some c => (decode? r).map (c :: ·)
            | none => none
          else
            match r with
            | [] => none
            | d :: r =>
              match continuation? d with
              | none => none
              | some z =>
                if a.toNat < 0xF0 then
                  match charFrom? 0x800 ((a.toNat - 0xE0) * 0x1000 + y * 0x40 + z) with
                  | some c => (decode? r).map (c :: ·)
                  | none => none
                else
                  match r with
                  | [] => none
                  | e :: r =>
                    match continuation? e with
                    | none => none
                    | some w =>
                      if a.toNat < 0xF8 then
                        match charFrom? 0x10000
                            ((a.toNat - 0xF0) * 0x40000 + y * 0x1000 + z * 0x40 + w) with
                        | some c => (decode? r).map (c :: ·)
                        | none => none
                      else none

/-- How many bytes at the start are one character, or the beginning of one that is not finished.
None of the bytes alone is a character if the number is not that of a whole one. -/
def startLength (bytes : List UInt8) : Nat :=
  match bytes with
  | [] => 0
  | a :: rest =>
    let a := a.toNat
    let second (least most : Nat) : Bool :=
      rest.head?.any fun b => least ≤ b.toNat && b.toNat ≤ most
    let more (n : Nat) : Nat :=
      1 + ((rest.take n).takeWhile fun b => (continuation? b).isSome).length
    if a < 0xC2 || 0xF4 < a then 1
    else if a < 0xE0 then more 1
    else if a = 0xE0 then if second 0xA0 0xBF then more 2 else 1
    else if a = 0xED then if second 0x80 0x9F then more 2 else 1
    else if a < 0xF0 then more 2
    else if a = 0xF0 then if second 0x90 0xBF then more 3 else 1
    else if a = 0xF4 then if second 0x80 0x8F then more 3 else 1
    else more 3

/-- The character that stands for bytes that are no text. -/
def replacement : Char := Char.ofNat 0xFFFD

/-- The characters that bytes encode, with one replacement character for each part that encodes
none. There are no more characters than bytes, and `fuel` is how many bytes there are. -/
def lossyChars : Nat → List UInt8 → List Char
  | 0, _ => []
  | _, [] => []
  | fuel + 1, bytes =>
    let n := startLength bytes
    let head := (decode? (bytes.take n)).getD [replacement]
    head ++ lossyChars fuel (bytes.drop n)

/-- A text for any bytes. -/
def lossy (bytes : List UInt8) : String := String.ofList (lossyChars bytes.length bytes)

/-- The text that bytes encode. -/
def text? (bytes : List UInt8) : Option String := (decode? bytes).map String.ofList

end BoardDesign.Text.Utf8
