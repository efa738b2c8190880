import BoardDesign.Json.Reader
import BoardDesign.Json.Writer
import Mathlib.Data.List.Basic

/-!
# Values read back from their text

* `Number.read?_append`: a number is read alike whatever follows it;
* `Fits`: values whose numbers are read back and that are not nested too deep (`fits_iff`), which
  all whole numbers of 64 bits are (`Number.read?_writeInt`);
* `Layout`: how the parts of a value are set apart, on one line or with a line for each;
* `readValue_laid`: in every layout the values that fit are read back;
* `parse_compact`, `parse_pretty`: so they are from the two texts that are written.
-/

namespace BoardDesign.Json

variable {depth fuel : Nat} {rest : List Char}

/-- What follows a value inside another one, or nothing. -/
def Ends (rest : List Char) : Prop :=
  rest = [] ∨ ∃ c r, rest = c :: r ∧ (c = ',' ∨ c = ']' ∨ c = '\x7d' ∨ isSpace c = true)

theorem Ends.cases {c : Char} {r : List Char} (ends : Ends (c :: r)) :
    c = ',' ∨ c = ']' ∨ c = '\x7d' ∨ c = ' ' ∨ c = '\t' ∨ c = '\n' ∨ c = '\r' := by
  rcases ends with none | ⟨c', r', same, closes⟩
  · cases none
  · cases same
    simpa [isSpace, or_assoc] using closes

theorem Ends.ne {c d : Char} {r : List Char} (ends : Ends (c :: r))
    (other : d ∉ [',', ']', '\x7d', ' ', '\t', '\n', '\r']) : c ≠ d := by
  rintro rfl
  exact other (by simpa using ends.cases)

theorem Ends.not_isDigit {c : Char} {r : List Char} (ends : Ends (c :: r)) :
    Text.isDigit c = false := by
  rcases ends.cases with rfl | rfl | rfl | rfl | rfl | rfl | rfl <;> rfl

/-! ## Numbers -/

namespace Number

open Decimal Text

variable {negative : Bool} {digits : Nat} {start : Int}

theorem isDigit_digit {d : Nat} (h : d < 10) : isDigit (Char.ofNat (48 + d)) = true := by
  have all : ∀ k : Fin 10, isDigit (Char.ofNat (48 + k.val)) = true := by decide
  exact all ⟨d, h⟩

theorem digitValue_digit {d : Nat} (h : d < 10) : digitValue (Char.ofNat (48 + d)) = d := by
  have all : ∀ k : Fin 10, digitValue (Char.ofNat (48 + k.val)) = k.val := by decide
  exact all ⟨d, h⟩

theorem digit_ne_zero {d : Nat} (h : d < 10) (positive : d ≠ 0) : Char.ofNat (48 + d) ≠ '0' := by
  have all : ∀ k : Fin 10, k.val ≠ 0 → Char.ofNat (48 + k.val) ≠ '0' := by decide
  exact all ⟨d, h⟩ positive

theorem isDigit_of_mem_go {n : Nat} {c : Char} (mem : c ∈ digitsOf.go fuel n) :
    isDigit c = true := by
  induction fuel generalizing n with
  | zero =>
    rw [List.mem_singleton.mp mem]
    exact isDigit_digit (Nat.mod_lt _ (by decide))
  | succ fuel ih =>
    rw [digitsOf.go] at mem
    split at mem
    · rename_i small
      rw [List.mem_singleton.mp mem]
      exact isDigit_digit small
    · rcases List.mem_append.mp mem with mem | mem
      · exact ih mem
      · rw [List.mem_singleton.mp mem]
        exact isDigit_digit (Nat.mod_lt _ (by decide))

/-- The digits of a number that is not zero do not begin with a zero. -/
theorem head_go {n : Nat} (enough : n ≤ fuel) (positive : n ≠ 0) :
    ∃ c cs, digitsOf.go fuel n = c :: cs ∧ c ≠ '0' := by
  induction fuel generalizing n with
  | zero => omega
  | succ fuel ih =>
    rw [digitsOf.go]
    split
    · rename_i small
      exact ⟨_, [], rfl, digit_ne_zero small positive⟩
    · obtain ⟨c, cs, parts, other⟩ := ih (n := n / 10) (by omega) (by omega)
      exact ⟨c, cs ++ [_], by rw [parts, List.cons_append], other⟩

theorem head_digitsOf (n : Nat) :
    ∃ c cs, digitsOf n = c :: cs ∧ isDigit c = true ∧ (c = '0' → cs = []) := by
  by_cases zero : n = 0
  · exact ⟨'0', [], by rw [zero]; rfl, by decide, fun _ => rfl⟩
  · obtain ⟨c, cs, parts, other⟩ := head_go (Nat.le_refl n) zero
    have mem : c ∈ digitsOf.go n n := by simp [parts]
    exact ⟨c, cs, parts, isDigit_of_mem_go mem, fun same => absurd same other⟩

theorem gather_append {acc value : Nat} {ds : List Char} (h : gather acc ds = (value, []))
    (more : List Char) : gather acc (ds ++ more) = gather value more := by
  induction ds generalizing acc with
  | nil =>
    cases h
    rfl
  | cons d ds ih =>
    rw [gather] at h
    rw [List.cons_append, gather]
    split at h
    · rename_i small
      rw [if_pos small]
      exact ih h
    · cases h

theorem gather_digit {n d : Nat} (h : d < 10) (small : n * 10 + d < Nat.pow 2 64) :
    gather n [Char.ofNat (48 + d)] = (n * 10 + d, []) := by
  rw [gather, digitValue_digit h, if_pos small, gather]

theorem gather_go {n : Nat} (enough : n ≤ fuel) (small : n < Nat.pow 2 64) :
    gather 0 (digitsOf.go fuel n) = (n, []) := by
  induction fuel generalizing n with
  | zero =>
    obtain rfl : n = 0 := by omega
    exact gather_digit (by decide) (by decide)
  | succ fuel ih =>
    rw [digitsOf.go]
    split
    · rename_i single
      rw [gather_digit single (by omega)]
      simp
    · have quotient := ih (n := n / 10) (by omega) (by omega)
      have whole : n / 10 * 10 + n % 10 = n := by omega
      rw [gather_append quotient, gather_digit (Nat.mod_lt _ (by decide)) (by omega), whole]

theorem gather_digitsOf {n : Nat} (small : n < Nat.pow 2 64) : gather 0 (digitsOf n) = (n, []) :=
  gather_go (Nat.le_refl n) small

/-! ### What follows a number -/

theorem takeWhile_append (ends : Ends rest) (cs : List Char) :
    (cs ++ rest).takeWhile isDigit = cs.takeWhile isDigit ∧
      (cs ++ rest).dropWhile isDigit = cs.dropWhile isDigit ++ rest := by
  induction cs with
  | nil =>
    cases rest with
    | nil => exact ⟨rfl, rfl⟩
    | cons c r => simp [ends.not_isDigit]
  | cons d ds ih =>
    rw [List.cons_append, List.takeWhile_cons, List.dropWhile_cons, List.takeWhile_cons,
      List.dropWhile_cons, ih.1, ih.2]
    split <;> exact ⟨rfl, rfl⟩

/-- What was read, with more left over. -/
def leaving (rest : List Char) (found : Json × List Char) : Json × List Char :=
  (found.1, found.2 ++ rest)

theorem exponentDigits?_append {down : Bool} (ends : Ends rest) (cs : List Char) :
    exponentDigits? digits negative start down (cs ++ rest) =
      (exponentDigits? digits negative start down cs).map (leaving rest) := by
  simp only [exponentDigits?, (takeWhile_append ends cs).1, (takeWhile_append ends cs).2]
  split
  · rfl
  split
  · split <;> rfl
  · rw [Option.map_map]
    rfl

/-- A text that does not begin with a character does not begin with it if more follows. -/
theorem append_ne_cons {d : Char} (ends : Ends rest)
    (other : d ∉ [',', ']', '\x7d', ' ', '\t', '\n', '\r']) {cs : List Char}
    (h : ∀ r, cs ≠ d :: r) (r : List Char) : cs ++ rest ≠ d :: r := by
  cases cs with
  | nil =>
    rintro rfl
    exact ends.ne other rfl
  | cons c cs =>
    intro same
    exact h cs (by rw [(List.cons.inj same).1])

theorem exponent?_append (ends : Ends rest) (cs : List Char) :
    exponent? digits negative start (cs ++ rest) =
      (exponent? digits negative start cs).map (leaving rest) := by
  fun_cases exponent? digits negative start cs with
  | case1 r => exact exponentDigits?_append ends r
  | case2 r => exact exponentDigits?_append ends r
  | case3 _ plus minus =>
    rw [← exponentDigits?_append ends]
    exact exponent?.eq_3 _ _ _ _ (append_ne_cons ends (by decide) plus)
      (append_ne_cons ends (by decide) minus)

theorem afterDigits_append (ends : Ends rest) (cs : List Char) :
    afterDigits negative digits start (cs ++ rest) =
      (afterDigits negative digits start cs).map (leaving rest) := by
  fun_cases afterDigits negative digits start cs with
  | case1 r => exact exponent?_append ends r
  | case2 r => exact exponent?_append ends r
  | case3 _ small large =>
    rw [Option.map_map]
    exact afterDigits.eq_3 _ _ _ _ (append_ne_cons ends (by decide) small)
      (append_ne_cons ends (by decide) large)

theorem afterPoint_append (ends : Ends rest) (cs : List Char) :
    afterPoint negative digits start (cs ++ rest) =
      (afterPoint negative digits start cs).map (leaving rest) := by
  simp only [afterPoint, (takeWhile_append ends cs).1, (takeWhile_append ends cs).2]
  split
  · rfl
  · exact afterDigits_append ends _

theorem whole_append {left : List Char} (ends : Ends rest) (cs : List Char) :
    whole negative digits left (cs ++ rest) =
      (whole negative digits left cs).map (leaving rest) := by
  unfold whole
  split
  · exact afterDigits_append ends cs
  split
  · rfl
  split
  · rw [Option.map_map]
    rfl
  · rfl

theorem afterWhole_append {left : List Char} (ends : Ends rest) (cs : List Char) :
    afterWhole negative digits left (cs ++ rest) =
      (afterWhole negative digits left cs).map (leaving rest) := by
  fun_cases afterWhole negative digits left cs with
  | case1 r => exact afterPoint_append ends r
  | case2 r => exact afterDigits_append ends ('e' :: r)
  | case3 r => exact afterDigits_append ends ('E' :: r)
  | case4 _ point small large =>
    rw [← whole_append ends]
    exact afterWhole.eq_4 _ _ _ _ (append_ne_cons ends (by decide) point)
      (append_ne_cons ends (by decide) small) (append_ne_cons ends (by decide) large)

theorem unsigned?_append (ends : Ends rest) (cs : List Char) :
    unsigned? negative (cs ++ rest) = (unsigned? negative cs).map (leaving rest) := by
  simp only [unsigned?, (takeWhile_append ends cs).1, (takeWhile_append ends cs).2]
  split
  · rfl
  · rfl
  · exact afterWhole_append ends _

/-- A number is read alike whatever follows it. -/
theorem read?_append (ends : Ends rest) (cs : List Char) :
    read? (cs ++ rest) = (read? cs).map (leaving rest) := by
  fun_cases read? cs with
  | case1 r => exact unsigned?_append ends r
  | case2 _ minus =>
    rw [← unsigned?_append ends]
    exact read?.eq_2 _ (append_ne_cons ends (by decide) minus)

/-! ### Whole numbers and fractions -/

theorem unsigned?_digitsOf {n : Nat} (small : n < Nat.pow 2 64) :
    unsigned? negative (digitsOf n) = whole negative n [] [] := by
  have all : ∀ c ∈ digitsOf n, isDigit c = true := fun c mem => isDigit_of_mem_go mem
  obtain ⟨c, cs, parts, -, alone⟩ := head_digitsOf n
  have gathered := gather_digitsOf small
  have taken : (digitsOf n ++ []).takeWhile isDigit = digitsOf n ++ [] :=
    List.takeWhile_append_of_pos all
  have dropped : (digitsOf n ++ []).dropWhile isDigit = [] := List.dropWhile_append_of_pos all
  rw [List.append_nil] at taken dropped
  rw [unsigned?, taken, dropped]
  rw [parts] at gathered ⊢
  split
  · rename_i none
    cases none
  · rename_i zeros
    cases zeros
    cases alone rfl
  · rw [gathered]
    rfl

/-- A whole number of 64 bits is read back. -/
theorem read?_writeInt {n : Int} (ends : Ends rest) (least : -(Nat.pow 2 63 : Int) ≤ n)
    (most : n < Nat.pow 2 64) : read? (writeInt n ++ rest) = some (.int n, rest) := by
  have wide : Nat.pow 2 63 < Nat.pow 2 64 := by decide
  have read : read? (writeInt n) = some (.int n, []) := by
    rw [writeInt, intText]
    split
    · rename_i below
      have text : ("-" ++ natText n.natAbs).toList = '-' :: digitsOf n.natAbs := by
        simp [natText]
      have whole' : (decide (n.natAbs = 0) || decide (Nat.pow 2 63 < n.natAbs)) = false := by
        rw [decide_eq_false (by omega), decide_eq_false (by omega), Bool.or_false]
      have value : -(n.natAbs : Int) = n := by omega
      rw [text, read?, unsigned?_digitsOf (by omega), whole, whole', value]
      rfl
    · rename_i above
      have text : (natText n.natAbs).toList = digitsOf n.natAbs := by simp [natText]
      have value : (n.natAbs : Int) = n := by omega
      obtain ⟨c, cs, parts, digit, -⟩ := head_digitsOf n.natAbs
      have unsigned : ∀ r, digitsOf n.natAbs ≠ '-' :: r := by
        rintro r same
        rw [parts] at same
        cases same
        cases digit
      rw [text, read?.eq_2 _ unsigned, unsigned?_digitsOf (by omega), whole, value]
      rfl
  rw [read?_append ends, read]
  rfl

/-- A fraction whose text is read as the fraction itself. -/
def ReadsBack (x : Binary) : Prop := read? (writeFloat x) = some (.float x, [])

instance (x : Binary) : Decidable (ReadsBack x) :=
  inferInstanceAs (Decidable (read? (writeFloat x) = some (.float x, [])))

theorem ReadsBack.read? {x : Binary} (h : ReadsBack x) (ends : Ends rest) :
    read? (writeFloat x ++ rest) = some (.float x, rest) := by
  rw [read?_append ends, h]
  rfl

/-- What a number can begin with. -/
def Begins (c : Char) : Prop := c = '-' ∨ isDigit c = true

theorem head_writeInt (n : Int) : ∃ c cs, writeInt n = c :: cs ∧ Begins c := by
  rw [writeInt, intText]
  split
  · exact ⟨'-', digitsOf n.natAbs, by simp [natText], .inl rfl⟩
  · obtain ⟨c, cs, parts, digit, _⟩ := head_digitsOf n.natAbs
    exact ⟨c, cs, by simp [natText, parts], .inr digit⟩

theorem Begins.ne {c : Char} (h : Begins c) {d : Char} (other : d ≠ '-' ∧ isDigit d = false) :
    c ≠ d := by
  rintro rfl
  rcases h with minus | digit
  · exact other.1 minus
  · rw [other.2] at digit
    cases digit

theorem Begins.not_isSpace {c : Char} (h : Begins c) : isSpace c = false := by
  simp [isSpace, h.ne (d := ' ') (by decide), h.ne (d := '\t') (by decide),
    h.ne (d := '\n') (by decide), h.ne (d := '\r') (by decide)]

theorem begins_of_read? {cs : List Char} {found : Json × List Char} (h : read? cs = some found) :
    ∃ c r, cs = c :: r ∧ Begins c := by
  unfold read? at h
  split at h
  · exact ⟨_, _, rfl, .inl rfl⟩
  · cases cs with
    | nil => cases h
    | cons c r =>
      refine ⟨c, r, rfl, .inr ?_⟩
      by_contra other
      have none : (c :: r).takeWhile isDigit = [] := by simp [other]
      rw [unsigned?, none] at h
      cases h

end Number

/-! ## Strings -/

theorem unit?_control {n : Nat} (h : n < 0x20) (r : List Char) :
    unit? ('0' :: '0' :: (Text.Hex.ofByte (UInt8.ofNat n) ++ r)) = some (n, r) := by
  have all : ∀ k : Fin 0x20,
      Text.Hex.toNat? ('0' :: '0' :: Text.Hex.ofByte (UInt8.ofNat k.val)) = some k.val := by decide
  have value : Text.Hex.toNat? ('0' :: '0' :: Text.Hex.ofByte (UInt8.ofNat n)) = some n :=
    all ⟨n, h⟩
  change (Text.Hex.toNat? ('0' :: '0' :: Text.Hex.ofByte (UInt8.ofNat n))).map (·, r) = _
  rw [value, Option.map_some]

/-- Each character of a string is read in one step. -/
theorem stringBody_writeChar (c : Char) (r : List Char) :
    stringBody (fuel + 1) (writeChar c ++ r) =
      (stringBody fuel r).map fun b => (c :: b.1, b.2) := by
  unfold writeChar
  split
  · subst c; rfl
  split
  · subst c; rfl
  split
  · subst c; rfl
  split
  · subst c; rfl
  split
  · subst c; rfl
  split
  · subst c; rfl
  split
  · subst c; rfl
  split
  · rename_i control
    have back : escape? ('u' :: '0' :: '0' :: (Text.Hex.ofByte (UInt8.ofNat c.toNat) ++ r)) =
        some (c, r) := by
      have low : ¬ 0xD800 ≤ c.toNat := by omega
      have low' : ¬ 0xDC00 ≤ c.toNat := by omega
      simp [escape?, unit?_control control, low, low']
    simp [stringBody, back]
  · rename_i printed
    simp [stringBody, printed]

theorem stringBody_written (cs r : List Char) (enough : cs.length < fuel) :
    stringBody fuel (cs.flatMap writeChar ++ '"' :: r) = some (cs, r) := by
  induction cs generalizing fuel with
  | nil =>
    obtain ⟨fuel, rfl⟩ := Nat.exists_eq_succ_of_ne_zero (Nat.ne_of_gt enough)
    rfl
  | cons c cs ih =>
    rw [List.length_cons] at enough
    obtain ⟨fuel, rfl⟩ := Nat.exists_eq_succ_of_ne_zero (show fuel ≠ 0 by omega)
    rw [List.flatMap_cons, List.append_assoc, stringBody_writeChar, ih (by omega), Option.map_some]

theorem length_le_flatMap_writeChar (cs : List Char) :
    cs.length ≤ (cs.flatMap writeChar).length := by
  induction cs with
  | nil => exact Nat.le_refl 0
  | cons c cs ih =>
    have one : 1 ≤ (writeChar c).length := by
      unfold writeChar
      repeat' split
      all_goals simp
    rw [List.flatMap_cons, List.length_append, List.length_cons]
    omega

/-- A string is read where a value or the name of a field stands. -/
theorem stringBody_writeString (fuel : Nat) (s : String) (r : List Char)
    (enough : (writeString s).length ≤ fuel + 1) :
    ∃ cs, writeString s ++ r = '"' :: cs ∧ stringBody fuel cs = some (s.toList, r) := by
  have long := length_le_flatMap_writeChar s.toList
  refine ⟨s.toList.flatMap writeChar ++ '"' :: r, by simp [writeString], ?_⟩
  refine stringBody_written s.toList r ?_
  simp only [writeString, List.length_append, List.length_cons, List.length_nil] at enough
  omega

/-! ## Values -/

mutual

/-- Whether a value in which `depth` arrays and objects, less one, may be nested is read back as
it is. -/
def Fits (depth : Nat) (a : Json) : Prop :=
  match a with
  | .null | .bool _ | .str _ => True
  | .int n => -(Nat.pow 2 63 : Int) ≤ n ∧ n < Nat.pow 2 64
  | .float x => Number.ReadsBack x
  | .arr items => 1 < depth ∧ FitsItems (depth - 1) items
  | .obj fields => 1 < depth ∧ FitsFields (depth - 1) fields
termination_by structural a

def FitsItems (depth : Nat) (items : List Json) : Prop :=
  match items with
  | [] => True
  | x :: rest => Fits depth x ∧ FitsItems depth rest
termination_by structural items

def FitsFields (depth : Nat) (fields : List (String × Json)) : Prop :=
  match fields with
  | [] => True
  | (_, x) :: rest => Fits depth x ∧ FitsFields depth rest
termination_by structural fields

end

mutual

/-- How many arrays and objects stand within each other. -/
def nesting (a : Json) : Nat :=
  match a with
  | .null | .bool _ | .int _ | .float _ | .str _ => 0
  | .arr items => nestingItems items + 1
  | .obj fields => nestingFields fields + 1
termination_by structural a

def nestingItems (items : List Json) : Nat :=
  match items with
  | [] => 0
  | x :: rest => max (nesting x) (nestingItems rest)
termination_by structural items

def nestingFields (fields : List (String × Json)) : Nat :=
  match fields with
  | [] => 0
  | (_, x) :: rest => max (nesting x) (nestingFields rest)
termination_by structural fields

end

mutual

/-- Whether the whole numbers have 64 bits and the text of every fraction is read as the fraction
itself. -/
def Lossless (a : Json) : Prop :=
  match a with
  | .null | .bool _ | .str _ => True
  | .int n => -(Nat.pow 2 63 : Int) ≤ n ∧ n < Nat.pow 2 64
  | .float x => Number.ReadsBack x
  | .arr items => LosslessItems items
  | .obj fields => LosslessFields fields
termination_by structural a

def LosslessItems (items : List Json) : Prop :=
  match items with
  | [] => True
  | x :: rest => Lossless x ∧ LosslessItems rest
termination_by structural items

def LosslessFields (fields : List (String × Json)) : Prop :=
  match fields with
  | [] => True
  | (_, x) :: rest => Lossless x ∧ LosslessFields rest
termination_by structural fields

end

mutual

theorem fits_iff (a : Json) {depth : Nat} (some : 0 < depth) :
    Fits depth a ↔ nesting a < depth ∧ Lossless a := by
  match a with
  | .null | .bool _ | .int _ | .float _ | .str _ => simp [Fits, nesting, Lossless, some]
  | .arr items =>
    rw [Fits, nesting, Lossless, ← Nat.lt_sub_iff_add_lt]
    refine ⟨fun ⟨deep, within⟩ => ?_, fun ⟨deep, within⟩ => ?_⟩
    · exact (fitsItems_iff items (Nat.sub_pos_of_lt deep)).mp within
    · have more : 0 < depth - 1 := Nat.zero_lt_of_lt deep
      exact ⟨Nat.lt_of_sub_pos more, (fitsItems_iff items more).mpr ⟨deep, within⟩⟩
  | .obj fields =>
    rw [Fits, nesting, Lossless, ← Nat.lt_sub_iff_add_lt]
    refine ⟨fun ⟨deep, within⟩ => ?_, fun ⟨deep, within⟩ => ?_⟩
    · exact (fitsFields_iff fields (Nat.sub_pos_of_lt deep)).mp within
    · have more : 0 < depth - 1 := Nat.zero_lt_of_lt deep
      exact ⟨Nat.lt_of_sub_pos more, (fitsFields_iff fields more).mpr ⟨deep, within⟩⟩
termination_by structural a

theorem fitsItems_iff (items : List Json) {depth : Nat} (some : 0 < depth) :
    FitsItems depth items ↔ nestingItems items < depth ∧ LosslessItems items := by
  match items with
  | [] => simp [FitsItems, nestingItems, LosslessItems, some]
  | x :: rest =>
    rw [FitsItems, nestingItems, LosslessItems, fits_iff x some, fitsItems_iff rest some,
      Nat.max_lt, and_and_and_comm]
termination_by structural items

theorem fitsFields_iff (fields : List (String × Json)) {depth : Nat} (some : 0 < depth) :
    FitsFields depth fields ↔ nestingFields fields < depth ∧ LosslessFields fields := by
  match fields with
  | [] => simp [FitsFields, nestingFields, LosslessFields, some]
  | (_, x) :: rest =>
    rw [FitsFields, nestingFields, LosslessFields, fits_iff x some, fitsFields_iff rest some,
      Nat.max_lt, and_and_and_comm]
termination_by structural fields

end

theorem writeItems_cons_cons (x y : Json) (more : List Json) :
    writeItems (x :: y :: more) = writeCompact x ++ ',' :: writeItems (y :: more) := rfl

theorem writeFields_cons_cons (k : String) (x : Json) (f : String × Json)
    (more : List (String × Json)) :
    writeFields ((k, x) :: f :: more) =
      writeString k ++ ':' :: writeCompact x ++ ',' :: writeFields (f :: more) := rfl

/-! ## Layouts -/

/-- How the parts of a value are set apart: what stands before each item and field of a level, and
after the colon of a field. -/
structure Layout where
  gap : Nat → List Char
  colon : List Char

/-- All on one line, without spaces. -/
def Layout.compact : Layout := ⟨fun _ => [], []⟩

/-- A line for each item and field. -/
def Layout.pretty (step : Nat) : Layout := ⟨newline step, [' ']⟩

def Blank (cs : List Char) : Prop := ∀ c ∈ cs, isSpace c = true

/-- The parts are set apart by nothing but spaces. -/
structure Layout.Spaced (l : Layout) : Prop where
  gap : ∀ level, Blank (l.gap level)
  colon : Blank l.colon

theorem Layout.spaced_compact : compact.Spaced := ⟨fun _ => nofun, nofun⟩

theorem Layout.spaced_pretty (step : Nat) : (pretty step).Spaced := by
  refine ⟨fun level c mem => ?_, fun c mem => ?_⟩
  · rcases List.mem_cons.mp mem with rfl | mem
    · rfl
    · rw [List.eq_of_mem_replicate mem]
      rfl
  · rw [List.mem_singleton.mp mem]
    rfl

mutual

/-- The text of a value in a layout. -/
def lay (l : Layout) (level : Nat) (a : Json) : List Char :=
  match a with
  | .arr [] => ['[', ']']
  | .arr (x :: rest) => '[' :: layItems l (level + 1) (x :: rest) ++ l.gap level ++ [']']
  | .obj [] => ['\x7b', '\x7d']
  | .obj (f :: rest) =>
    '\x7b' :: layFields l (level + 1) (f :: rest) ++ l.gap level ++ ['\x7d']
  | scalar => writeCompact scalar
termination_by structural a

def layItems (l : Layout) (level : Nat) (items : List Json) : List Char :=
  match items with
  | [] => []
  | [x] => l.gap level ++ lay l level x
  | x :: rest => l.gap level ++ lay l level x ++ ',' :: layItems l level rest
termination_by structural items

def layFields (l : Layout) (level : Nat) (fields : List (String × Json)) : List Char :=
  match fields with
  | [] => []
  | [(k, x)] => l.gap level ++ writeString k ++ ':' :: l.colon ++ lay l level x
  | (k, x) :: rest =>
    l.gap level ++ writeString k ++ ':' :: l.colon ++ lay l level x ++ ',' :: layFields l level rest
termination_by structural fields

end

theorem layItems_cons_cons (l : Layout) (level : Nat) (x y : Json) (more : List Json) :
    layItems l level (x :: y :: more) =
      l.gap level ++ lay l level x ++ ',' :: layItems l level (y :: more) := rfl

theorem layFields_cons_cons (l : Layout) (level : Nat) (k : String) (x : Json)
    (f : String × Json) (more : List (String × Json)) :
    layFields l level ((k, x) :: f :: more) =
      l.gap level ++ writeString k ++ ':' :: l.colon ++ lay l level x ++
        ',' :: layFields l level (f :: more) := rfl

mutual

theorem lay_compact (level : Nat) (a : Json) : lay .compact level a = writeCompact a := by
  match a with
  | .null | .bool true | .bool false | .int _ | .float _ | .str _ => rfl
  | .arr [] | .obj [] => rfl
  | .arr (x :: rest) =>
    rw [lay, layItems_compact (level + 1) (x :: rest)]
    simp [writeCompact, Layout.compact]
  | .obj (f :: rest) =>
    rw [lay, layFields_compact (level + 1) (f :: rest)]
    simp [writeCompact, Layout.compact]
termination_by structural a

theorem layItems_compact (level : Nat) (items : List Json) :
    layItems .compact level items = writeItems items := by
  match items with
  | [] => rfl
  | [x] =>
    rw [layItems, lay_compact level x]
    rfl
  | x :: y :: rest =>
    rw [layItems_cons_cons, lay_compact level x, layItems_compact level (y :: rest)]
    rfl
termination_by structural items

theorem layFields_compact (level : Nat) (fields : List (String × Json)) :
    layFields .compact level fields = writeFields fields := by
  match fields with
  | [] => rfl
  | [(k, x)] =>
    rw [layFields, lay_compact level x]
    simp [writeFields, Layout.compact]
  | (k, x) :: f :: rest =>
    rw [layFields_cons_cons, lay_compact level x, layFields_compact level (f :: rest)]
    simp [writeFields_cons_cons, Layout.compact]
termination_by structural fields

end

mutual

theorem lay_pretty (step level : Nat) (a : Json) :
    lay (.pretty step) level a = writePretty step level a := by
  match a with
  | .null | .bool true | .bool false | .int _ | .float _ | .str _ => rfl
  | .arr [] | .obj [] => rfl
  | .arr (x :: rest) =>
    rw [lay, layItems_pretty step (level + 1) (x :: rest)]
    simp [writePretty, prettyItems, Layout.pretty]
  | .obj (f :: rest) =>
    rw [lay, layFields_pretty step (level + 1) (f :: rest)]
    simp [writePretty, prettyFields, Layout.pretty]
termination_by structural a

/-- All items but the first one are written with their commas. -/
theorem layItems_pretty (step level : Nat) (items : List Json) :
    layItems (.pretty step) level items = (prettyItems step level items).tail := by
  match items with
  | [] => rfl
  | [x] =>
    rw [layItems, lay_pretty step level x]
    simp [prettyItems, Layout.pretty]
  | x :: y :: rest =>
    rw [layItems_cons_cons, lay_pretty step level x, layItems_pretty step level (y :: rest)]
    simp [prettyItems, Layout.pretty]
termination_by structural items

theorem layFields_pretty (step level : Nat) (fields : List (String × Json)) :
    layFields (.pretty step) level fields = (prettyFields step level fields).tail := by
  match fields with
  | [] => rfl
  | [(k, x)] =>
    rw [layFields, lay_pretty step level x]
    simp [prettyFields, Layout.pretty]
  | (k, x) :: f :: rest =>
    rw [layFields_cons_cons, lay_pretty step level x, layFields_pretty step level (f :: rest)]
    simp [prettyFields, Layout.pretty]
termination_by structural fields

end

/-! ## Reading -/

theorem skipSpace_blank {pad : List Char} (blank : Blank pad) (cs : List Char) :
    skipSpace (pad ++ cs) = skipSpace cs :=
  List.dropWhile_append_of_pos blank

theorem skipSpace_cons {c : Char} (other : isSpace c = false) (cs : List Char) :
    skipSpace (c :: cs) = c :: cs := by
  simp [skipSpace, other]

theorem readValue_blank {pad : List Char} (blank : Blank pad) (cs : List Char) :
    readValue fuel depth (pad ++ cs) = readValue fuel depth cs := by
  cases fuel with
  | zero => rfl
  | succ fuel => rw [readValue, readValue, skipSpace_blank blank]

theorem readItems_blank {pad : List Char} (blank : Blank pad) (cs : List Char) :
    readItems fuel depth (pad ++ cs) = readItems fuel depth cs := by
  cases fuel with
  | zero => rfl
  | succ fuel => rw [readItems, readItems, readValue_blank blank]

theorem readFields_blank {pad : List Char} (blank : Blank pad) (cs : List Char) :
    readFields fuel depth (pad ++ cs) = readFields fuel depth cs := by
  cases fuel with
  | zero => rfl
  | succ fuel => rw [readFields, readFields, skipSpace_blank blank]

theorem ends_cons {c : Char} (h : c = ',' ∨ c = ']' ∨ c = '\x7d') (r : List Char) :
    Ends (c :: r) :=
  .inr ⟨c, r, rfl, h.imp_right (.imp_right .inl)⟩

theorem ends_blank {pad : List Char} (blank : Blank pad) {c : Char}
    (h : c = ',' ∨ c = ']' ∨ c = '\x7d') (r : List Char) : Ends (pad ++ c :: r) := by
  cases pad with
  | nil => exact ends_cons h r
  | cons d pad => exact .inr ⟨d, pad ++ c :: r, rfl, .inr (.inr (.inr (blank d (.head _))))⟩

variable {l : Layout}

/-- No value begins with a space or with the end of an array. -/
theorem head_lay {a : Json} (fits : Fits depth a) (l : Layout) (level : Nat) :
    ∃ c cs, lay l level a = c :: cs ∧ isSpace c = false ∧ c ≠ ']' := by
  match a with
  | .null => exact ⟨'n', _, rfl, by decide, by decide⟩
  | .bool true => exact ⟨'t', _, rfl, by decide, by decide⟩
  | .bool false => exact ⟨'f', _, rfl, by decide, by decide⟩
  | .int n =>
    obtain ⟨c, cs, parts, begins⟩ := Number.head_writeInt n
    exact ⟨c, cs, parts, begins.not_isSpace, begins.ne (by decide)⟩
  | .float x =>
    obtain ⟨c, cs, parts, begins⟩ := Number.begins_of_read? fits
    exact ⟨c, cs, parts, begins.not_isSpace, begins.ne (by decide)⟩
  | .str s => exact ⟨'"', _, rfl, by decide, by decide⟩
  | .arr [] | .arr (x :: rest) => exact ⟨'[', _, rfl, by decide, by decide⟩
  | .obj [] | .obj (f :: rest) => exact ⟨'\x7b', _, rfl, by decide, by decide⟩

theorem head_layItems {x : Json} (fits : Fits depth x) (l : Layout) (level : Nat)
    (more : List Json) : ∃ c cs, layItems l level (x :: more) = l.gap level ++ c :: cs ∧
      isSpace c = false ∧ c ≠ ']' := by
  obtain ⟨c, cs, parts, proper⟩ := head_lay fits l level
  cases more with
  | nil => exact ⟨c, cs, by rw [layItems, parts], proper⟩
  | cons y more =>
    exact ⟨c, cs ++ ',' :: layItems l level (y :: more), by simp [layItems, parts], proper⟩

theorem head_layFields (l : Layout) (level : Nat) (k : String) (x : Json)
    (more : List (String × Json)) :
    ∃ cs, layFields l level ((k, x) :: more) = l.gap level ++ '"' :: cs := by
  cases more with
  | nil =>
    exact ⟨k.toList.flatMap writeChar ++ '"' :: ':' :: (l.colon ++ lay l level x),
      by simp [layFields, writeString]⟩
  | cons f more =>
    exact ⟨k.toList.flatMap writeChar ++ '"' :: ':' :: (l.colon ++ (lay l level x ++
      ',' :: layFields l level (f :: more))), by simp [layFields_cons_cons, writeString]⟩

theorem readValue_number {c : Char} (begins : Number.Begins c) (cs : List Char) :
    readValue (fuel + 1) depth (c :: cs) = Number.read? (c :: cs) := by
  rw [readValue, skipSpace_cons begins.not_isSpace]
  split
  · rename_i same
    cases same
    exact absurd rfl (begins.ne (d := '"') (by decide))
  · rename_i same
    cases same
    exact absurd rfl (begins.ne (d := '[') (by decide))
  · rename_i same
    cases same
    exact absurd rfl (begins.ne (d := '\x7b') (by decide))
  · rename_i same
    cases same
    exact absurd rfl (begins.ne (d := 'n') (by decide))
  · rename_i same
    cases same
    exact absurd rfl (begins.ne (d := 't') (by decide))
  · rename_i same
    cases same
    exact absurd rfl (begins.ne (d := 'f') (by decide))
  · rfl

/-- Fuel for twice the length of a text is enough to read it. -/
theorem exists_fuel {a : Json} {level : Nat} (fits : Fits depth a)
    (enough : 2 * (lay l level a).length ≤ fuel) : ∃ k, fuel = k + 1 := by
  obtain ⟨c, cs, parts, _⟩ := head_lay fits l level
  rw [parts, List.length_cons] at enough
  exact ⟨fuel - 1, by omega⟩

mutual

/-- A value that fits is read back, and what follows it is left. -/
theorem readValue_laid (spaced : l.Spaced) (a : Json) {depth : Nat} (level fuel : Nat)
    (rest : List Char) (fits : Fits depth a) (enough : 2 * (lay l level a).length ≤ fuel)
    (ends : Ends rest) : readValue fuel depth (lay l level a ++ rest) = some (a, rest) := by
  obtain ⟨fuel, rfl⟩ := exists_fuel fits enough
  match a with
  | .null => rfl
  | .bool true => rfl
  | .bool false => rfl
  | .int n =>
    obtain ⟨c, cs, parts, begins⟩ := Number.head_writeInt n
    have read := Number.read?_writeInt ends fits.1 fits.2
    rw [parts, List.cons_append] at read
    change readValue _ _ (writeInt n ++ rest) = _
    rw [parts, List.cons_append, readValue_number begins, read]
  | .float x =>
    obtain ⟨c, cs, parts, begins⟩ := Number.begins_of_read? fits
    have read := Number.ReadsBack.read? fits ends
    rw [parts, List.cons_append] at read
    change readValue _ _ (writeFloat x ++ rest) = _
    rw [parts, List.cons_append, readValue_number begins, read]
  | .str s =>
    change 2 * (writeString s).length ≤ fuel + 1 at enough
    change readValue _ _ (writeString s ++ rest) = _
    obtain ⟨cs, parts, body⟩ := stringBody_writeString fuel s rest (by omega)
    rw [parts, readValue]
    simp [skipSpace, isSpace, body]
  | .arr [] =>
    have deep : ¬ depth ≤ 1 := Nat.not_le.mpr fits.1
    simp [lay, readValue, skipSpace, isSpace, deep]
  | .arr (x :: more) =>
    obtain ⟨deep, within⟩ := fits
    have deep' : ¬ depth ≤ 1 := Nat.not_le.mpr deep
    simp only [lay, List.length_append, List.length_cons] at enough
    have read := readItems_laid spaced (x :: more) (level + 1) fuel (l.gap level) rest within
      (by simp) (spaced.gap level) (by omega)
    obtain ⟨c, cs, parts, proper, inside⟩ := head_layItems within.1 l (level + 1) more
    rw [parts, List.append_assoc, readItems_blank (spaced.gap _)] at read
    rw [lay, parts]
    simp only [List.append_assoc, List.cons_append, List.nil_append] at read ⊢
    simp only [readValue, skipSpace_cons (c := '[') rfl, deep', if_false,
      skipSpace_blank (spaced.gap _), skipSpace_cons proper]
    split
    · rename_i same
      exact absurd (List.cons.inj same).1 inside
    · rw [read, Option.map_some]
  | .obj [] =>
    have deep : ¬ depth ≤ 1 := Nat.not_le.mpr fits.1
    simp [lay, readValue, skipSpace, isSpace, deep]
  | .obj ((k, x) :: more) =>
    obtain ⟨deep, within⟩ := fits
    have deep' : ¬ depth ≤ 1 := Nat.not_le.mpr deep
    simp only [lay, List.length_append, List.length_cons] at enough
    have read := readFields_laid spaced ((k, x) :: more) (level + 1) fuel (l.gap level) rest within
      (by simp) (spaced.gap level) (by omega)
    obtain ⟨cs, parts⟩ := head_layFields l (level + 1) k x more
    rw [parts, List.append_assoc, readFields_blank (spaced.gap _)] at read
    rw [lay, parts]
    simp only [List.append_assoc, List.cons_append, List.nil_append] at read ⊢
    simp only [readValue, skipSpace_cons (c := '\x7b') rfl, deep', if_false,
      skipSpace_blank (spaced.gap _), skipSpace_cons (c := '"') rfl]
    split
    · rename_i same
      cases same
    · rw [read, Option.map_some]
termination_by structural a

theorem readItems_laid (spaced : l.Spaced) (items : List Json) {depth : Nat} (level fuel : Nat)
    (pad rest : List Char) (fits : FitsItems depth items) (filled : items ≠ []) (blank : Blank pad)
    (enough : 2 * (layItems l level items).length + 1 ≤ fuel) :
    readItems fuel depth (layItems l level items ++ (pad ++ ']' :: rest)) =
      some (items, rest) := by
  obtain ⟨fuel, rfl⟩ : ∃ k, fuel = k + 1 := ⟨fuel - 1, by omega⟩
  match items with
  | [] => exact absurd rfl filled
  | [x] =>
    have read := readValue_laid spaced x level fuel _ fits.1
      (by rw [layItems, List.length_append] at enough; omega)
      (ends_blank blank (.inr (.inl rfl)) rest)
    rw [layItems, List.append_assoc, readItems, readValue_blank (spaced.gap level), read]
    simp only [skipSpace_blank blank, skipSpace_cons (c := ']') rfl]
  | x :: y :: more =>
    simp only [layItems_cons_cons, List.length_append, List.length_cons] at enough
    have read := readValue_laid spaced x level fuel _ fits.1 (by omega)
      (ends_cons (.inl rfl)
        (layItems l level (y :: more) ++ (pad ++ ']' :: rest)))
    have others := readItems_laid spaced (y :: more) level fuel pad rest fits.2 (by simp) blank
      (by omega)
    rw [layItems_cons_cons, List.append_assoc, List.append_assoc, readItems,
      readValue_blank (spaced.gap level), List.cons_append, read]
    simp only [skipSpace_cons (c := ',') rfl, others, Option.map_some]
termination_by structural items

theorem readFields_laid (spaced : l.Spaced) (fields : List (String × Json)) {depth : Nat}
    (level fuel : Nat) (pad rest : List Char) (fits : FitsFields depth fields)
    (filled : fields ≠ []) (blank : Blank pad)
    (enough : 2 * (layFields l level fields).length + 1 ≤ fuel) :
    readFields fuel depth (layFields l level fields ++ (pad ++ '\x7d' :: rest)) =
      some (fields, rest) := by
  obtain ⟨fuel, rfl⟩ : ∃ k, fuel = k + 1 := ⟨fuel - 1, by omega⟩
  have quoted : ∀ r, skipSpace ('"' :: r) = '"' :: r := skipSpace_cons rfl
  have colon : ∀ r, skipSpace (':' :: r) = ':' :: r := skipSpace_cons rfl
  match fields with
  | [] => exact absurd rfl filled
  | [(k, x)] =>
    simp only [layFields, List.length_append, List.length_cons] at enough
    have read := readValue_laid spaced x level fuel _ fits.1 (by omega)
      (ends_blank blank (.inr (.inr rfl)) rest)
    obtain ⟨cs, parts, body⟩ := stringBody_writeString fuel k
      (':' :: (l.colon ++ (lay l level x ++ (pad ++ '\x7d' :: rest)))) (by omega)
    simp only [layFields, List.append_assoc, List.cons_append]
    rw [readFields_blank (spaced.gap level), parts, readFields]
    simp only [quoted, body, colon, readValue_blank spaced.colon, read, skipSpace_blank blank,
      skipSpace_cons (c := '\x7d') rfl, String.ofList_toList]
  | (k, x) :: f :: more =>
    simp only [layFields_cons_cons, List.length_append, List.length_cons] at enough
    have read := readValue_laid spaced x level fuel _ fits.1 (by omega)
      (ends_cons (.inl rfl)
        (layFields l level (f :: more) ++ (pad ++ '\x7d' :: rest)))
    have others := readFields_laid spaced (f :: more) level fuel pad rest fits.2 (by simp) blank
      (by omega)
    obtain ⟨cs, parts, body⟩ := stringBody_writeString fuel k
      (':' :: (l.colon ++ (lay l level x ++
        ',' :: (layFields l level (f :: more) ++ (pad ++ '\x7d' :: rest))))) (by omega)
    simp only [layFields_cons_cons, List.append_assoc, List.cons_append]
    rw [readFields_blank (spaced.gap level), parts, readFields]
    simp only [quoted, body, colon, readValue_blank spaced.colon, read,
      skipSpace_cons (c := ',') rfl, others, Option.map_some, String.ofList_toList]
termination_by structural fields

end

theorem parseChars_laid {a : Json} (spaced : l.Spaced) (fits : Fits depthLimit a) :
    parseChars (lay l 0 a) = some a := by
  have read := readValue_laid spaced a 0 (2 * (lay l 0 a).length + 2) [] fits (by omega) (.inl rfl)
  rw [List.append_nil] at read
  rw [parseChars, read]
  rfl

/-- A value that fits is read back from its text. -/
theorem parse_compact {a : Json} (fits : Fits depthLimit a) : parse a.compact = some a := by
  rw [parse, compact, String.toList_ofList, ← lay_compact 0 a]
  exact parseChars_laid Layout.spaced_compact fits

/-- A value that fits is read back from its text with a line for each item. -/
theorem parse_pretty {a : Json} (step : Nat) (fits : Fits depthLimit a) :
    parse (a.pretty step) = some a := by
  rw [parse, pretty, String.toList_ofList, ← lay_pretty step 0 a]
  exact parseChars_laid (Layout.spaced_pretty step) fits

end BoardDesign.Json
