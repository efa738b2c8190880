import BoardDesign.Text.Utf8

/-!
# Texts read back from their bytes

* `decode?_encodeChar`: the bytes of a character at the start of others are read as that character;
* `text?_bytes`, `bytes_inj`: a text is read back from its bytes, which are those of no other text;
* `encode_of_decode?`, `bytes_of_text?`: bytes that are read as a text are the bytes of that text.
-/

namespace BoardDesign.Text.Utf8

theorem toNat_byte {n : Nat} (h : n < 256) : (UInt8.ofNat n).toNat = n := by
  rw [UInt8.toNat_ofNat', Nat.mod_eq_of_lt h]

theorem continuation?_byte {n : Nat} (h : n < 64) :
    continuation? (UInt8.ofNat (0x80 + n)) = some n := by
  have most : 0x80 + n < 0xC0 := by omega
  rw [continuation?, toNat_byte (by omega)]
  simp [most]

/-- The number of a character is not that of a surrogate. -/
theorem toNat_char (c : Char) :
    c.toNat < 0xD800 ∨ (0xE000 ≤ c.toNat ∧ c.toNat < 0x110000) := by
  rcases c.valid with low | ⟨high, most⟩
  · exact .inl low
  · exact .inr ⟨high, most⟩

theorem charFrom?_toNat {least : Nat} {c : Char} (h : least ≤ c.toNat) :
    charFrom? least c.toNat = some c := by
  have valid := toNat_char c
  simp [charFrom?, h, valid]

variable {c : Char} (rest : List UInt8)

theorem decode?_one (h : c.toNat < 0x80) :
    decode? (encodeChar c ++ rest) = (decode? rest).map (c :: ·) := by
  rw [encodeChar, if_pos h, List.singleton_append, decode?.eq_def]
  simp only [toNat_byte (show c.toNat < 256 by omega), if_pos h, Char.ofNat_toNat]

theorem decode?_two (above : 0x80 ≤ c.toNat) (below : c.toNat < 0x800) :
    decode? (encodeChar c ++ rest) = (decode? rest).map (c :: ·) := by
  have whole : (0xC0 + c.toNat / 0x40 - 0xC0) * 0x40 + c.toNat % 0x40 = c.toNat := by omega
  simp only [encodeChar, if_neg (Nat.not_lt.mpr above), if_pos below, List.cons_append,
    List.nil_append]
  rw [decode?.eq_def]
  dsimp only
  rw [toNat_byte (by omega), if_neg (by omega)]
  simp only [continuation?_byte (Nat.mod_lt c.toNat (by decide : 0 < 0x40))]
  rw [if_neg (by omega), if_pos (by omega), whole, charFrom?_toNat above]

theorem decode?_three (above : 0x800 ≤ c.toNat) (below : c.toNat < 0x10000) :
    decode? (encodeChar c ++ rest) = (decode? rest).map (c :: ·) := by
  have whole : (0xE0 + c.toNat / 0x1000 - 0xE0) * 0x1000 + c.toNat / 0x40 % 0x40 * 0x40 +
      c.toNat % 0x40 = c.toNat := by omega
  simp only [encodeChar, if_neg (show ¬c.toNat < 0x80 by omega), if_neg (Nat.not_lt.mpr above),
    if_pos below, List.cons_append, List.nil_append]
  rw [decode?.eq_def]
  dsimp only
  rw [toNat_byte (by omega), if_neg (by omega)]
  simp only [continuation?_byte (Nat.mod_lt (c.toNat / 0x40) (by decide : 0 < 0x40))]
  rw [if_neg (by omega), if_neg (by omega)]
  simp only [continuation?_byte (Nat.mod_lt c.toNat (by decide : 0 < 0x40))]
  rw [if_pos (by omega), whole, charFrom?_toNat above]

theorem decode?_four (above : 0x10000 ≤ c.toNat) :
    decode? (encodeChar c ++ rest) = (decode? rest).map (c :: ·) := by
  have valid := toNat_char c
  have whole : (0xF0 + c.toNat / 0x40000 - 0xF0) * 0x40000 + c.toNat / 0x1000 % 0x40 * 0x1000 +
      c.toNat / 0x40 % 0x40 * 0x40 + c.toNat % 0x40 = c.toNat := by omega
  simp only [encodeChar, if_neg (show ¬c.toNat < 0x80 by omega),
    if_neg (show ¬c.toNat < 0x800 by omega), if_neg (Nat.not_lt.mpr above), List.cons_append,
    List.nil_append]
  rw [decode?.eq_def]
  dsimp only
  rw [toNat_byte (by omega), if_neg (by omega)]
  simp only [continuation?_byte (Nat.mod_lt (c.toNat / 0x1000) (by decide : 0 < 0x40))]
  rw [if_neg (by omega), if_neg (by omega)]
  simp only [continuation?_byte (Nat.mod_lt (c.toNat / 0x40) (by decide : 0 < 0x40))]
  rw [if_neg (by omega)]
  simp only [continuation?_byte (Nat.mod_lt c.toNat (by decide : 0 < 0x40))]
  rw [if_pos (by omega), whole, charFrom?_toNat above]

theorem decode?_encodeChar (c : Char) (rest : List UInt8) :
    decode? (encodeChar c ++ rest) = (decode? rest).map (c :: ·) := by
  by_cases one : c.toNat < 0x80
  · exact decode?_one rest one
  by_cases two : c.toNat < 0x800
  · exact decode?_two rest (Nat.not_lt.mp one) two
  by_cases three : c.toNat < 0x10000
  · exact decode?_three rest (Nat.not_lt.mp two) three
  · exact decode?_four rest (Nat.not_lt.mp three)

theorem decode?_encode (cs : List Char) : decode? (encode cs) = some cs := by
  induction cs with
  | nil => rfl
  | cons c rest ih =>
    change decode? (encodeChar c ++ encode rest) = _
    rw [decode?_encodeChar, ih, Option.map_some]

theorem text?_bytes (s : String) : text? (bytes s) = some s := by
  rw [text?, bytes, decode?_encode, Option.map_some, String.ofList_toList]

theorem bytes_inj {s t : String} (same : bytes s = bytes t) : s = t := by
  rw [← Option.some.injEq, ← text?_bytes, same, text?_bytes]

/-! ## Bytes that are a text -/

theorem charFrom?_eq_some {least n : Nat} (h : charFrom? least n = some c) :
    least ≤ n ∧ c.toNat = n := by
  simp only [charFrom?, Bool.and_eq_true, Bool.or_eq_true, decide_eq_true_eq] at h
  split at h
  · rename_i fits
    cases h
    refine ⟨fits.1, ?_⟩
    have valid : n.isValidChar := by
      rcases fits.2 with low | ⟨high, most⟩
      · exact .inl low
      · exact .inr ⟨by omega, most⟩
    rw [Char.ofNat, dif_pos valid]
    rfl
  · cases h

theorem continuation?_eq_some {b : UInt8} {n : Nat} (h : continuation? b = some n) :
    n < 0x40 ∧ b.toNat = 0x80 + n := by
  simp only [continuation?, Bool.and_eq_true, decide_eq_true_eq] at h
  split at h
  · have number := Option.some.inj h
    omega
  · cases h

theorem byte_of_toNat {b : UInt8} {n : Nat} (h : b.toNat = n) : UInt8.ofNat n = b := by
  rw [← h, UInt8.ofNat_toNat]

section Forms

variable {a b d e : UInt8} {x y z : Nat}

theorem encodeChar_one (low : a.toNat < 0x80) : encodeChar (Char.ofNat a.toNat) = [a] := by
  have char : charFrom? 0 a.toNat = some (Char.ofNat a.toNat) := by
    simp [charFrom?, show a.toNat < 0xD800 by omega]
  obtain ⟨-, number⟩ := charFrom?_eq_some char
  rw [encodeChar, number, if_pos low, UInt8.ofNat_toNat]

theorem encodeChar_two (least : 0xC0 ≤ a.toNat) (most : a.toNat < 0xE0)
    (second : continuation? b = some x)
    (char : charFrom? 0x80 ((a.toNat - 0xC0) * 0x40 + x) = some c) : encodeChar c = [a, b] := by
  obtain ⟨above, number⟩ := charFrom?_eq_some char
  obtain ⟨small, low⟩ := continuation?_eq_some second
  rw [encodeChar, number, if_neg (by omega), if_pos (by omega), byte_of_toNat (b := a) (by omega),
    byte_of_toNat (b := b) (by omega)]

theorem encodeChar_three (least : 0xE0 ≤ a.toNat) (most : a.toNat < 0xF0)
    (second : continuation? b = some x) (third : continuation? d = some y)
    (char : charFrom? 0x800 ((a.toNat - 0xE0) * 0x1000 + x * 0x40 + y) = some c) :
    encodeChar c = [a, b, d] := by
  obtain ⟨above, number⟩ := charFrom?_eq_some char
  obtain ⟨small, low⟩ := continuation?_eq_some second
  obtain ⟨small', low'⟩ := continuation?_eq_some third
  rw [encodeChar, number, if_neg (by omega), if_neg (by omega), if_pos (by omega),
    byte_of_toNat (b := a) (by omega), byte_of_toNat (b := b) (by omega),
    byte_of_toNat (b := d) (by omega)]

theorem encodeChar_four (least : 0xF0 ≤ a.toNat) (second : continuation? b = some x)
    (third : continuation? d = some y) (fourth : continuation? e = some z)
    (char : charFrom? 0x10000
      ((a.toNat - 0xF0) * 0x40000 + x * 0x1000 + y * 0x40 + z) = some c) :
    encodeChar c = [a, b, d, e] := by
  obtain ⟨above, number⟩ := charFrom?_eq_some char
  obtain ⟨small, low⟩ := continuation?_eq_some second
  obtain ⟨small', low'⟩ := continuation?_eq_some third
  obtain ⟨small'', low''⟩ := continuation?_eq_some fourth
  rw [encodeChar, number, if_neg (by omega), if_neg (by omega), if_neg (by omega),
    byte_of_toNat (b := a) (by omega), byte_of_toNat (b := b) (by omega),
    byte_of_toNat (b := d) (by omega), byte_of_toNat (b := e) (by omega)]

end Forms

theorem encode_cons {form : List UInt8} {cs : List Char} (char : encodeChar c = form)
    (others : encode cs = rest) : encode (c :: cs) = form ++ rest := by
  rw [← char, ← others]
  rfl

/-- Each character has one form only. -/
theorem encode_of_decode? {bs : List UInt8} {cs : List Char} (h : decode? bs = some cs) :
    encode cs = bs := by
  fun_induction decode? bs generalizing cs
  case case1 =>
    cases h
    rfl
  case case2 low ih =>
    obtain ⟨cs, found, rfl⟩ := Option.map_eq_some_iff.mp h
    exact encode_cons _ (encodeChar_one low) (ih found)
  case case6 second notLow most _ char ih =>
    obtain ⟨cs, found, rfl⟩ := Option.map_eq_some_iff.mp h
    exact encode_cons _ (encodeChar_two (Nat.not_lt.mp notLow) most second char) (ih found)
  case case10 second _ notTwo _ _ _ third most _ char ih =>
    obtain ⟨cs, found, rfl⟩ := Option.map_eq_some_iff.mp h
    exact encode_cons _ (encodeChar_three (Nat.not_lt.mp notTwo) most second third char) (ih found)
  case case14 second _ _ _ _ third notThree _ _ _ fourth _ _ char ih =>
    obtain ⟨cs, found, rfl⟩ := Option.map_eq_some_iff.mp h
    exact encode_cons _
      (encodeChar_four (Nat.not_lt.mp notThree) second third fourth char) (ih found)
  all_goals cases h

/-- Bytes that are read as a text are the bytes of that text. -/
theorem bytes_of_text? {content : List UInt8} {text : String} (h : text? content = some text) :
    bytes text = content := by
  obtain ⟨cs, found, rfl⟩ := Option.map_eq_some_iff.mp h
  rw [bytes, String.toList_ofList]
  exact encode_of_decode? found

end BoardDesign.Text.Utf8
