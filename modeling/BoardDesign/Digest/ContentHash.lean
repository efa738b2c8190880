import BoardDesign.Digest.Sha256
/-!
Digests written in hexadecimal digits.

`ofText?_text` says that a digest is read back from its text, also from one with white space
around it.
-/

namespace BoardDesign

def ContentHash.isDigit (c : Char) : Bool := ('0' ≤ c && c ≤ '9') || ('a' ≤ c && c ≤ 'f')

/-- The 64 lower-case digits of a digest of 32 bytes. -/
structure ContentHash where
  digits : List Char
  length_digits : digits.length = 64
  isDigit_digits : digits.all ContentHash.isDigit = true
deriving DecidableEq, Repr

namespace ContentHash

theorem isDigit_digit {n : Nat} (h : n < 16) : isDigit (Text.Hex.digit n) = true := by
  have : ∀ m : Fin 16, isDigit (Text.Hex.digit m.val) = true := by decide
  exact this ⟨n, h⟩

theorem length_ofBytes (bytes : List UInt8) :
    (Text.Hex.ofBytes bytes).length = 2 * bytes.length := by
  induction bytes with
  | nil => rfl
  | cons b rest ih =>
    have : Text.Hex.ofBytes (b :: rest) = Text.Hex.ofByte b ++ Text.Hex.ofBytes rest := rfl
    simp only [this, List.length_append, ih, Text.Hex.ofByte, List.length_cons, List.length_nil]
    omega

theorem isDigit_ofBytes (bytes : List UInt8) : (Text.Hex.ofBytes bytes).all isDigit = true := by
  induction bytes with
  | nil => rfl
  | cons b rest ih =>
    have hb := UInt8.toNat_lt b
    have : Text.Hex.ofBytes (b :: rest) = Text.Hex.ofByte b ++ Text.Hex.ofBytes rest := rfl
    simp [this, ih, Text.Hex.ofByte, isDigit_digit (show b.toNat / 16 < 16 by omega),
      isDigit_digit (show b.toNat % 16 < 16 by omega)]

def ofBytes (message : List UInt8) : ContentHash :=
  { digits := Text.Hex.ofBytes (Digest.sha256 message)
    length_digits := by rw [length_ofBytes, Digest.length_digest]
    isDigit_digits := isDigit_ofBytes _ }

/-- The digest that a text holds, with white space around it or not. -/
def ofText? (text : String) : Option ContentHash :=
  let cs := Text.trim text.toList
  if h : cs.length = 64 then
    if d : cs.all isDigit = true then some ⟨cs, h, d⟩ else none
  else none

def text (h : ContentHash) : String := String.ofList h.digits

theorem isBlank_of_isDigit {c : Char} (h : isDigit c = true) : Text.isBlank c = false := by
  have le {a b : Char} : a ≤ b ↔ a.toNat ≤ b.toNat := Iff.rfl
  simp only [isDigit, Bool.or_eq_true, Bool.and_eq_true, decide_eq_true_eq, le] at h
  have range : (48 ≤ c.toNat ∧ c.toNat ≤ 57) ∨ (97 ≤ c.toNat ∧ c.toNat ≤ 102) := h
  simp only [Text.isBlank, Bool.or_eq_false_iff, Bool.and_eq_false_iff, decide_eq_false_iff_not,
    beq_eq_false_iff_ne]
  omega

theorem ofText?_text (h : ContentHash) (before after : List Char)
    (blank_before : before.all Text.isBlank = true) (blank_after : after.all Text.isBlank = true) :
    ofText? (String.ofList (before ++ (h.digits ++ after))) = some h := by
  obtain ⟨digits, length, isDigit⟩ := h
  have filled : digits ≠ [] := by
    rintro rfl
    cases length
  have solid : ∀ c ∈ digits, Text.isBlank c = false := fun c mem =>
    isBlank_of_isDigit (List.all_eq_true.mp isDigit c mem)
  have start : Text.trimStart (before ++ (digits ++ after)) = digits ++ after := by
    obtain ⟨c, rest, rfl⟩ := List.exists_cons_of_ne_nil filled
    rw [Text.trimStart, List.dropWhile_append_of_pos (by simpa using blank_before)]
    simp [solid c (.head rest)]
  have rest : Text.trimEnd (digits ++ after) = digits := by
    obtain ⟨front, c, rfl⟩ := List.eq_nil_or_concat digits |>.resolve_left filled
    rw [Text.trimEnd, List.reverse_append, List.dropWhile_append_of_pos (by simpa using blank_after)]
    simp [solid c (by simp)]
  have trimmed : Text.trim (String.ofList (before ++ (digits ++ after))).toList = digits := by
    rw [String.toList_ofList, Text.trim, start, rest]
  simp only [ofText?, trimmed, length, isDigit, dite_true]

end ContentHash

end BoardDesign
