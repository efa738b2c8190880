import BoardDesign.Decimal.Shortest
/-!
Frames: messages as bytes on a connection, each after its length in four bytes.

`read_write` says that a frame is read back as it was written, whatever follows it.
-/

namespace BoardDesign.Editor.Frame

/-- The longest message that is taken, in bytes. -/
def maxLength : Nat := 64 * Nat.pow 2 20

/-- A length below 2 ^ 32 in four bytes, the highest one first. -/
def header (n : Nat) : List UInt8 :=
  [.ofNat (n / Nat.pow 2 24), .ofNat (n / Nat.pow 2 16), .ofNat (n / Nat.pow 2 8), .ofNat n]

def lengthOf (a b c d : UInt8) : Nat :=
  ((a.toNat * 256 + b.toNat) * 256 + c.toNat) * 256 + d.toNat

/-- A message as a frame, unless it is too long for any frame. -/
def write? (payload : List UInt8) : Option (List UInt8) :=
  if payload.length < Nat.pow 2 32 then some (header payload.length ++ payload) else none

inductive Fault where
  /-- The connection ended within a message. -/
  | truncated
  | tooLong (length : Nat)
deriving DecidableEq, Repr

def Fault.message : Fault → String
  | .truncated => "failed to fill whole buffer"
  | .tooLong length =>
    "frame of " ++ Decimal.natText length ++ " bytes exceeds the " ++ Decimal.natText maxLength ++
      " byte limit"

inductive Next where
  | message (payload rest : List UInt8)
  /-- The connection ended before another length was told. -/
  | ended
  | failed (fault : Fault)
deriving DecidableEq, Repr

/-- The first message of what comes over a connection. -/
def read : List UInt8 → Next
  | a :: b :: c :: d :: rest =>
    let length := lengthOf a b c d
    if maxLength < length then .failed (.tooLong length)
    else if rest.length < length then .failed .truncated
    else .message (rest.take length) (rest.drop length)
  | _ => .ended

theorem length_rest_lt {stream payload rest : List UInt8}
    (h : read stream = .message payload rest) : rest.length < stream.length := by
  match stream, h with
  | a :: b :: c :: d :: more, h =>
    simp only [read] at h
    split at h
    · simp at h
    · split at h
      · simp at h
      · simp only [Next.message.injEq] at h
        obtain ⟨_, rfl⟩ := h
        simp only [List.length_drop, List.length_cons]
        omega
  | [], h | [_], h | [_, _], h | [_, _, _], h => simp [read] at h

/-- All messages of what comes over a connection, and why they end if the connection does not. -/
def readAll (stream : List UInt8) : List (List UInt8) × Option Fault :=
  match h : read stream with
  | .message payload rest =>
    have := length_rest_lt h
    let (payloads, fault) := readAll rest
    (payload :: payloads, fault)
  | .ended => ([], none)
  | .failed fault => ([], some fault)
termination_by stream.length

theorem lengthOf_header {n : Nat} (h : n < Nat.pow 2 32) :
    lengthOf (.ofNat (n / Nat.pow 2 24)) (.ofNat (n / Nat.pow 2 16)) (.ofNat (n / Nat.pow 2 8))
      (.ofNat n) = n := by
  simp only [lengthOf, UInt8.toNat_ofNat', Nat.pow_eq] at h ⊢
  omega

theorem read_write {payload frame rest : List UInt8} (hw : write? payload = some frame)
    (hl : payload.length ≤ maxLength) : read (frame ++ rest) = .message payload rest := by
  simp only [write?] at hw
  split at hw
  · rename_i h
    obtain rfl := Option.some.inj hw
    simp only [header, List.cons_append, List.nil_append, read, lengthOf_header h,
      Nat.not_lt.2 hl, if_false]
    simp
  · simp at hw

end BoardDesign.Editor.Frame
