import BoardDesign.Proofs.Json.ReadBack
import Mathlib.Data.List.Basic
import Mathlib.Data.Prod.Basic

/-!
# What the text of a value tells

Two values with one compact text are alike in everything but the numbers in them, and two numbers
with one text are written alike.

* `writeCompact_append_inj`: where the text of a value ends does not depend on what follows;
* `compact_str_inj` and its like: the text tells what kind of value it is of, and its parts;
* `field?_of_compact`: it tells the text of each field.
-/

namespace BoardDesign.Json

variable {rest rest' : List Char}

/-! ## Numbers -/

/-- A character that numbers are written with. -/
def isNumberChar (c : Char) : Bool :=
  Text.isDigit c || c == '-' || c == '+' || c == '.' || c == 'e'

theorem isNumberChar_of_isDigit {c : Char} (h : Text.isDigit c = true) : isNumberChar c = true := by
  simp [isNumberChar, h]

theorem isNumberChar_of_mem_digitsOf {n : Nat} {c : Char} (mem : c ∈ Decimal.digitsOf n) :
    isNumberChar c = true :=
  isNumberChar_of_isDigit (Number.isDigit_of_mem_go mem)

theorem isNumberChar_of_mem_writeInt {n : Int} {c : Char} (mem : c ∈ writeInt n) :
    isNumberChar c = true := by
  rw [writeInt, Decimal.intText] at mem
  split at mem
  · have parts : c = '-' ∨ c ∈ Decimal.digitsOf n.natAbs := by simpa [Decimal.natText] using mem
    rcases parts with rfl | digit
    · decide
    · exact isNumberChar_of_mem_digitsOf digit
  · have digit : c ∈ Decimal.digitsOf n.natAbs := by simpa [Decimal.natText] using mem
    exact isNumberChar_of_mem_digitsOf digit

theorem isNumberChar_of_mem_writeFloat {x : Decimal.Binary} {c : Char} (mem : c ∈ writeFloat x) :
    isNumberChar c = true := by
  have digits {n : Nat} (mem : c ∈ Decimal.digitsOf n) := isNumberChar_of_mem_digitsOf mem
  have signs (mem : c ∈ (if x.negative then "-" else "").toList) : isNumberChar c = true := by
    split at mem
    · obtain rfl : c = '-' := by simpa using mem
      decide
    · simp at mem
  rw [writeFloat, Decimal.Binary.text] at mem
  dsimp only at mem
  split at mem
  · rw [String.toList_append] at mem
    rcases List.mem_append.mp mem with sign | zero
    · exact signs sign
    · have parts : c = '0' ∨ c = '.' ∨ c = '0' := by simpa using zero
      rcases parts with rfl | rfl | rfl <;> decide
  · rw [String.toList_append, String.toList_ofList] at mem
    rcases List.mem_append.mp mem with sign | mem
    · exact signs sign
    split at mem
    · simp only [List.mem_append, List.mem_replicate, List.mem_cons, List.not_mem_nil,
        or_false] at mem
      rcases mem with (mem | ⟨-, rfl⟩) | rfl | rfl
      · exact digits mem
      all_goals decide
    split at mem
    · simp only [List.mem_append, List.mem_cons] at mem
      rcases mem with mem | rfl | mem
      · exact digits (List.mem_of_mem_take mem)
      · decide
      · exact digits (List.mem_of_mem_drop mem)
    split at mem
    · simp only [List.cons_append, List.mem_append, List.mem_replicate, List.mem_cons] at mem
      rcases mem with rfl | rfl | ⟨-, rfl⟩ | mem
      · decide
      · decide
      · decide
      · exact digits mem
    -- The digits with an exponent.
    have exponent {e : Int} {plus : Bool}
        (mem : c ∈ (if plus then ['+'] else []) ++ (Decimal.intText e).toList) :
        isNumberChar c = true := by
      rcases List.mem_append.mp mem with sign | mem
      · split at sign
        · obtain rfl : c = '+' := by simpa using sign
          decide
        · cases sign
      · exact isNumberChar_of_mem_writeInt (n := e) mem
    split at mem
    · rename_i d single
      rcases List.mem_cons.mp mem with rfl | mem
      · exact digits (n := x.shortest.1) (by simp [single])
      rcases List.mem_cons.mp mem with rfl | mem
      · decide
      · exact exponent mem
    · rename_i d more _ several
      rcases List.mem_append.mp mem with mem | mem
      · rcases List.mem_cons.mp mem with rfl | mem
        · exact digits (n := x.shortest.1) (by simp [several])
        rcases List.mem_cons.mp mem with rfl | mem
        · decide
        · exact digits (n := x.shortest.1) (by simp [several, mem])
      · rcases List.mem_cons.mp mem with rfl | mem
        · decide
        · exact exponent mem
    · cases mem

theorem writeFloat_ne_nil (x : Decimal.Binary) : writeFloat x ≠ [] := by
  obtain ⟨c, cs, parts, -⟩ := Number.head_digitsOf x.shortest.1
  rw [writeFloat, Decimal.Binary.text]
  dsimp only
  split
  · simp
  · rw [parts]
    repeat' split
    all_goals simp_all

theorem writeInt_ne_nil (n : Int) : writeInt n ≠ [] := by
  obtain ⟨c, cs, parts, -⟩ := Number.head_writeInt n
  rw [parts]
  exact List.cons_ne_nil c cs

def isNumber : Json → Bool
  | .int _ | .float _ => true
  | _ => false

theorem text_of_isNumber {a : Json} (h : a.isNumber = true) :
    writeCompact a ≠ [] ∧ ∀ c ∈ writeCompact a, isNumberChar c = true := by
  cases a with
  | int n => exact ⟨writeInt_ne_nil n, fun c mem => isNumberChar_of_mem_writeInt mem⟩
  | float x => exact ⟨writeFloat_ne_nil x, fun c mem => isNumberChar_of_mem_writeFloat mem⟩
  | _ => cases h

theorem Ends.takeWhile_isNumberChar (ends : Ends rest) : rest.takeWhile isNumberChar = [] := by
  cases rest with
  | nil => rfl
  | cons c r =>
    rw [List.takeWhile_cons_of_neg]
    rcases ends.cases with rfl | rfl | rfl | rfl | rfl | rfl | rfl <;> decide

theorem number_append_inj {a b : Json} (isA : a.isNumber = true) (isB : b.isNumber = true)
    (ends : Ends rest) (ends' : Ends rest')
    (h : writeCompact a ++ rest = writeCompact b ++ rest') :
    writeCompact a = writeCompact b ∧ rest = rest' := by
  have taken := congrArg (List.takeWhile isNumberChar) h
  rw [List.takeWhile_append_of_pos (text_of_isNumber isA).2, ends.takeWhile_isNumberChar,
    List.takeWhile_append_of_pos (text_of_isNumber isB).2, ends'.takeWhile_isNumberChar,
    List.append_nil, List.append_nil] at taken
  rw [taken] at h
  exact ⟨taken, List.append_cancel_left h⟩

/-! ## Where a value ends -/

/-- The first character of a value tells of which kind it is. -/
def opening : Json → Char
  | .null => 'n'
  | .bool true => 't'
  | .bool false => 'f'
  | .str _ => '"'
  | .arr _ => '['
  | .obj _ => '\x7b'
  | .int _ | .float _ => '0'

theorem head_of_not_isNumber {a : Json} (h : a.isNumber = false) :
    ∃ cs, writeCompact a = a.opening :: cs := by
  cases a with
  | bool b => cases b <;> exact ⟨_, rfl⟩
  | int n => cases h
  | float x => cases h
  | _ => exact ⟨_, rfl⟩

theorem isNumberChar_opening {a : Json} (h : a.isNumber = false) :
    isNumberChar a.opening = false := by
  cases a with
  | bool b => cases b <;> rfl
  | int n => cases h
  | float x => cases h
  | _ => rfl

/-- Values that begin with the same character are both numbers, or both of one other kind. -/
theorem head_cases {a b : Json} (h : writeCompact a ++ rest = writeCompact b ++ rest') :
    a.isNumber = true ∧ b.isNumber = true ∨
      a.isNumber = false ∧ b.isNumber = false ∧ a.opening = b.opening := by
  have mixed {a b : Json} {rest rest' : List Char} (isA : a.isNumber = true)
      (isB : b.isNumber = false) (h : writeCompact a ++ rest = writeCompact b ++ rest') : False := by
    obtain ⟨filled, chars⟩ := text_of_isNumber isA
    obtain ⟨c, cs, parts⟩ := List.exists_cons_of_ne_nil filled
    obtain ⟨ds, parts'⟩ := head_of_not_isNumber isB
    rw [parts, parts', List.cons_append, List.cons_append] at h
    have char := chars c (by simp [parts])
    rw [(List.cons.inj h).1, isNumberChar_opening isB] at char
    cases char
  cases isA : a.isNumber <;> cases isB : b.isNumber
  · obtain ⟨cs, parts⟩ := head_of_not_isNumber isA
    obtain ⟨ds, parts'⟩ := head_of_not_isNumber isB
    rw [parts, parts', List.cons_append, List.cons_append] at h
    exact .inr ⟨rfl, rfl, (List.cons.inj h).1⟩
  · exact (mixed isB isA h.symm).elim
  · exact (mixed isA isB h).elim
  · exact .inl ⟨rfl, rfl⟩

theorem writeString_append_inj {s t : String} (h : writeString s ++ rest = writeString t ++ rest') :
    s = t ∧ rest = rest' := by
  let fuel := (writeString s).length + (writeString t).length
  obtain ⟨cs, parts, body⟩ := stringBody_writeString fuel s rest (by omega)
  obtain ⟨ds, parts', body'⟩ := stringBody_writeString fuel t rest' (by omega)
  obtain rfl : cs = ds := (List.cons.inj (parts.symm.trans (h.trans parts'))).2
  obtain ⟨chars, tail⟩ := Prod.mk.inj (Option.some.inj (body.symm.trans body'))
  exact ⟨String.toList_inj.mp chars, tail⟩

/-- Items are written with something after each that ends it. -/
theorem writeItems_cons (x : Json) (more : List Json) (r : List Char) :
    writeItems (x :: more) ++ ']' :: r =
      writeCompact x ++ if more = [] then ']' :: r else ',' :: (writeItems more ++ ']' :: r) := by
  cases more with
  | nil => rfl
  | cons y more => rw [writeItems_cons_cons, List.append_assoc, if_neg (List.cons_ne_nil y more),
      List.cons_append]

theorem writeFields_cons (k : String) (x : Json) (more : List (String × Json)) (r : List Char) :
    writeFields ((k, x) :: more) ++ '\x7d' :: r =
      writeString k ++ ':' :: (writeCompact x ++
        if more = [] then '\x7d' :: r else ',' :: (writeFields more ++ '\x7d' :: r)) := by
  cases more with
  | nil => simp [writeFields]
  | cons f more => simp [writeFields_cons_cons]

theorem ends_ite {p : Prop} [Decidable p] {c : Char} (h : c = ',' ∨ c = ']' ∨ c = '\x7d')
    (r r' : List Char) : Ends (if p then c :: r else ',' :: r') := by
  split
  · exact ends_cons h r
  · exact ends_cons (.inl rfl) r'

theorem writeCompact_ne_closing (a : Json) {c : Char} (h : c = ']' ∨ c = '\x7d') (r : List Char) :
    writeCompact a ++ rest ≠ c :: r := by
  intro same
  obtain ⟨d, cs, parts, other⟩ : ∃ d cs, writeCompact a = d :: cs ∧ d ≠ c := by
    cases isA : a.isNumber with
    | false =>
      obtain ⟨cs, parts⟩ := head_of_not_isNumber isA
      refine ⟨a.opening, cs, parts, ?_⟩
      cases a with
      | bool b => cases b <;> rcases h with rfl | rfl <;> decide
      | int n => cases isA
      | float x => cases isA
      | _ => rcases h with rfl | rfl <;> simp [opening]
    | true =>
      obtain ⟨filled, chars⟩ := text_of_isNumber isA
      obtain ⟨d, cs, parts⟩ := List.exists_cons_of_ne_nil filled
      refine ⟨d, cs, parts, ?_⟩
      rintro rfl
      have char := chars d (by simp [parts])
      rcases h with rfl | rfl <;> cases char
  rw [parts, List.cons_append] at same
  exact other (List.cons.inj same).1

/-- What follows an item or a field tells whether it is the last one. -/
theorem tail_cases {α β : Type _} {xs : List α} {ys : List β} {c : Char} (other : c ≠ ',')
    {r r' s s' : List Char}
    (h : (if xs = [] then c :: r else ',' :: s) = if ys = [] then c :: r' else ',' :: s') :
    xs = [] ∧ ys = [] ∧ r = r' ∨ xs ≠ [] ∧ ys ≠ [] ∧ s = s' := by
  split at h <;> split at h
  · exact .inl ⟨‹_›, ‹_›, (List.cons.inj h).2⟩
  · exact absurd (List.cons.inj h).1 other
  · exact absurd (List.cons.inj h).1.symm other
  · exact .inr ⟨‹_›, ‹_›, (List.cons.inj h).2⟩

/-- A field with its value as it is written. -/
def writtenField (f : String × Json) : String × List Char := (f.1, writeCompact f.2)

theorem writeItems_congr {xs ys : List Json} (h : xs.map writeCompact = ys.map writeCompact) :
    writeItems xs = writeItems ys := by
  induction xs generalizing ys with
  | nil =>
    cases ys with
    | nil => rfl
    | cons y ys => cases h
  | cons x xs ih =>
    cases ys with
    | nil => cases h
    | cons y ys =>
      obtain ⟨first, others⟩ := List.cons.inj h
      have again := ih others
      cases xs <;> cases ys
      · exact first
      · cases others
      · cases others
      · rw [writeItems_cons_cons, writeItems_cons_cons, first, again]

theorem writeFields_congr {fs gs : List (String × Json)}
    (h : fs.map writtenField = gs.map writtenField) : writeFields fs = writeFields gs := by
  induction fs generalizing gs with
  | nil =>
    cases gs with
    | nil => rfl
    | cons g gs => cases h
  | cons f fs ih =>
    cases gs with
    | nil => cases h
    | cons g gs =>
      obtain ⟨k, x⟩ := f
      obtain ⟨k', y⟩ := g
      obtain ⟨first, others⟩ := List.cons.inj h
      obtain ⟨rfl, value⟩ := Prod.mk.inj first
      have again := ih others
      cases fs <;> cases gs
      · rw [writeFields, writeFields, value]
      · cases others
      · cases others
      · rw [writeFields_cons_cons, writeFields_cons_cons, value, again]

mutual

/-- Where the text of a value ends does not depend on what follows it. -/
theorem writeCompact_append_inj (a b : Json) {rest rest' : List Char} (ends : Ends rest)
    (ends' : Ends rest') (h : writeCompact a ++ rest = writeCompact b ++ rest') :
    writeCompact a = writeCompact b ∧ rest = rest' := by
  obtain ⟨isA, isB⟩ | ⟨isA, isB, same⟩ := head_cases h
  · exact number_append_inj isA isB ends ends' h
  match a, b with
  | .null, .null => exact ⟨rfl, List.append_cancel_left h⟩
  | .bool true, .bool true => exact ⟨rfl, List.append_cancel_left h⟩
  | .bool false, .bool false => exact ⟨rfl, List.append_cancel_left h⟩
  | .str s, .str t =>
    obtain ⟨rfl, tail⟩ := writeString_append_inj h
    exact ⟨rfl, tail⟩
  | .arr xs, .arr ys =>
    simp only [writeCompact, List.cons_append, List.append_assoc, List.nil_append] at h
    obtain ⟨items, tail⟩ := writeItems_append_inj xs ys (List.cons.inj h).2
    exact ⟨by rw [writeCompact, writeCompact, writeItems_congr items], tail⟩
  | .obj fs, .obj gs =>
    simp only [writeCompact, List.cons_append, List.append_assoc, List.nil_append] at h
    obtain ⟨fields, tail⟩ := writeFields_append_inj fs gs (List.cons.inj h).2
    exact ⟨by rw [writeCompact, writeCompact, writeFields_congr fields], tail⟩
termination_by structural a

theorem writeItems_append_inj (xs ys : List Json) {r r' : List Char}
    (h : writeItems xs ++ ']' :: r = writeItems ys ++ ']' :: r') :
    xs.map writeCompact = ys.map writeCompact ∧ r = r' := by
  match xs, ys with
  | [], [] => exact ⟨rfl, (List.cons.inj h).2⟩
  | [], y :: ys =>
    rw [writeItems_cons] at h
    exact absurd h.symm (writeCompact_ne_closing y (.inl rfl) r)
  | x :: xs, [] =>
    rw [writeItems_cons] at h
    exact absurd h (writeCompact_ne_closing x (.inl rfl) r')
  | x :: xs, y :: ys =>
    rw [writeItems_cons, writeItems_cons] at h
    obtain ⟨first, tail⟩ := writeCompact_append_inj x y (ends_ite (.inr (.inl rfl)) _ _)
      (ends_ite (.inr (.inl rfl)) _ _) h
    obtain ⟨rfl, rfl, last⟩ | ⟨-, -, tail⟩ := tail_cases (by decide) tail
    · exact ⟨by rw [List.map_singleton, List.map_singleton, first], last⟩
    · obtain ⟨others, tail⟩ := writeItems_append_inj xs ys tail
      exact ⟨by rw [List.map_cons, List.map_cons, first, others], tail⟩
termination_by structural xs

theorem writeFields_append_inj (fs gs : List (String × Json)) {r r' : List Char}
    (h : writeFields fs ++ '\x7d' :: r = writeFields gs ++ '\x7d' :: r') :
    fs.map writtenField = gs.map writtenField ∧ r = r' := by
  match fs, gs with
  | [], [] => exact ⟨rfl, (List.cons.inj h).2⟩
  | [], (k, y) :: gs =>
    rw [writeFields_cons] at h
    cases h
  | (k, x) :: fs, [] =>
    rw [writeFields_cons] at h
    cases h
  | (k, x) :: fs, (k', y) :: gs =>
    rw [writeFields_cons, writeFields_cons] at h
    obtain ⟨rfl, value⟩ := writeString_append_inj h
    obtain ⟨first, tail⟩ := writeCompact_append_inj x y (ends_ite (.inr (.inr rfl)) _ _)
      (ends_ite (.inr (.inr rfl)) _ _) (List.cons.inj value).2
    have field : writtenField (k, x) = writtenField (k, y) := Prod.ext rfl first
    obtain ⟨rfl, rfl, last⟩ | ⟨-, -, tail⟩ := tail_cases (by decide) tail
    · exact ⟨by rw [List.map_singleton, List.map_singleton, field], last⟩
    · obtain ⟨others, tail⟩ := writeFields_append_inj fs gs tail
      exact ⟨by rw [List.map_cons, List.map_cons, field, others], tail⟩
termination_by structural fs

end

/-! ## What a text tells -/

variable {a b : Json}

/-- A field with the text of its value. -/
def told (f : String × Json) : String × String := (f.1, f.2.compact)

/-- Values of one kind with parts of the same texts. -/
inductive Alike : Json → Json → Prop where
  | number {a b : Json} (isA : a.isNumber = true) (isB : b.isNumber = true)
      (same : a.compact = b.compact) : Alike a b
  | plain (a : Json) : Alike a a
  | arr {xs ys : List Json} (items : xs.map compact = ys.map compact) : Alike (.arr xs) (.arr ys)
  | obj {fs gs : List (String × Json)} (fields : fs.map told = gs.map told) :
      Alike (.obj fs) (.obj gs)

theorem map_compact_eq_iff {xs ys : List Json} :
    xs.map compact = ys.map compact ↔ xs.map writeCompact = ys.map writeCompact := by
  have again : compact = String.ofList ∘ writeCompact := rfl
  rw [again, ← List.map_map, ← List.map_map]
  exact (List.map_injective_iff.mpr fun _ _ => String.ofList_injective).eq_iff

theorem map_told_eq_iff {fs gs : List (String × Json)} :
    fs.map told = gs.map told ↔ fs.map writtenField = gs.map writtenField := by
  have again : told = Prod.map id String.ofList ∘ writtenField := rfl
  have injective : Function.Injective (Prod.map (id : String → String) String.ofList) :=
    Function.injective_id.prodMap fun _ _ => String.ofList_injective
  rw [again, ← List.map_map, ← List.map_map]
  exact (List.map_injective_iff.mpr injective).eq_iff

theorem alike_of_compact (h : a.compact = b.compact) : Alike a b := by
  have same : writeCompact a = writeCompact b := String.ofList_injective h
  obtain ⟨isA, isB⟩ | ⟨isA, isB, head⟩ := head_cases (congrArg (· ++ []) same)
  · exact .number isA isB h
  clear h
  match a, b with
  | .null, .null => exact .plain _
  | .bool true, .bool true => exact .plain _
  | .bool false, .bool false => exact .plain _
  | .str s, .str t =>
    obtain ⟨rfl, -⟩ := writeString_append_inj (congrArg (· ++ []) same)
    exact .plain _
  | .arr xs, .arr ys =>
    rw [writeCompact, writeCompact] at same
    exact .arr (map_compact_eq_iff.mpr (writeItems_append_inj xs ys (List.cons.inj same).2).1)
  | .obj fs, .obj gs =>
    rw [writeCompact, writeCompact] at same
    exact .obj (map_told_eq_iff.mpr (writeFields_append_inj fs gs (List.cons.inj same).2).1)

@[simp] theorem compact_str_inj {s t : String} : (str s).compact = (str t).compact ↔ s = t := by
  refine ⟨fun same => ?_, fun same => same ▸ rfl⟩
  cases alike_of_compact same with
  | number isA => cases isA
  | plain => rfl

@[simp] theorem compact_bool_inj {b c : Bool} : (bool b).compact = (bool c).compact ↔ b = c := by
  refine ⟨fun same => ?_, fun same => same ▸ rfl⟩
  cases alike_of_compact same with
  | number isA => cases isA
  | plain => rfl

@[simp] theorem compact_arr_inj {xs ys : List Json} :
    (arr xs).compact = (arr ys).compact ↔ xs.map compact = ys.map compact := by
  constructor
  · intro same
    cases alike_of_compact same with
    | number isA => cases isA
    | plain => rfl
    | arr items => exact items
  · intro items
    have same := writeItems_congr (map_compact_eq_iff.mp items)
    rw [compact, compact, writeCompact, writeCompact, same]

@[simp] theorem compact_obj_inj {fs gs : List (String × Json)} :
    (obj fs).compact = (obj gs).compact ↔ fs.map told = gs.map told := by
  constructor
  · intro same
    cases alike_of_compact same with
    | number isA => cases isA
    | plain => rfl
    | obj fields => exact fields
  · intro fields
    have same := writeFields_congr (map_told_eq_iff.mp fields)
    rw [compact, compact, writeCompact, writeCompact, same]

/-- The number that digits stand for. -/
def ofDigits (ds : List Char) : Nat := ds.foldl (fun n d => n * 10 + Text.digitValue d) 0

theorem ofDigits_go {fuel n : Nat} (enough : n ≤ fuel) :
    ofDigits (Decimal.digitsOf.go fuel n) = n := by
  have digit (k : Nat) : Text.digitValue (Char.ofNat (48 + k % 10)) = k % 10 :=
    Number.digitValue_digit (Nat.mod_lt k (by decide))
  induction fuel generalizing n with
  | zero =>
    obtain rfl : n = 0 := Nat.le_zero.mp enough
    rfl
  | succ fuel ih =>
    rw [Decimal.digitsOf.go]
    split
    · rename_i small
      have last := digit n
      rw [Nat.mod_eq_of_lt small] at last
      simp [ofDigits, last]
    · have front : ofDigits (Decimal.digitsOf.go fuel (n / 10)) = n / 10 := ih (by omega)
      rw [ofDigits] at front ⊢
      rw [List.foldl_append, front, List.foldl_cons, List.foldl_nil, digit]
      omega

@[simp] theorem compact_nat_inj {m n : Nat} :
    (int m).compact = (int n).compact ↔ m = n := by
  refine ⟨fun same => ?_, fun same => same ▸ rfl⟩
  have written (k : Nat) : writeCompact (int k) = Decimal.digitsOf k := by
    have positive : ¬ (k : Int) < 0 := Int.not_lt.mpr (Int.natCast_nonneg k)
    simp [writeCompact, writeInt, Decimal.intText, Decimal.natText, positive]
  have digits : Decimal.digitsOf m = Decimal.digitsOf n := by
    rw [← written, ← written, String.ofList_injective same]
  have numbers := congrArg ofDigits digits
  rwa [Decimal.digitsOf, Decimal.digitsOf, ofDigits_go (Nat.le_refl m),
    ofDigits_go (Nat.le_refl n)] at numbers

theorem isNull_of_compact (h : a.compact = b.compact) : a.isNull = b.isNull := by
  cases alike_of_compact h with
  | number isA isB => cases a <;> cases isA <;> cases b <;> cases isB <;> rfl
  | _ => rfl

theorem str?_of_compact (h : a.compact = b.compact) : a.str? = b.str? := by
  cases alike_of_compact h with
  | number isA isB => cases a <;> cases isA <;> cases b <;> cases isB <;> rfl
  | _ => rfl

theorem list?_of_compact (h : a.compact = b.compact) :
    a.list?.map (·.map compact) = b.list?.map (·.map compact) := by
  cases alike_of_compact h with
  | number isA isB => cases a <;> cases isA <;> cases b <;> cases isB <;> rfl
  | plain => rfl
  | arr items => exact congrArg some items
  | obj => rfl

theorem findEntry_told (name : String) (fs : List (String × Json)) :
    findEntry name (fs.map told) = (findEntry name fs).map compact := by
  induction fs with
  | nil => rfl
  | cons f fs ih =>
    by_cases here : name = f.1
    · simp [findEntry, told, here]
    · simpa [findEntry, told, here] using ih

theorem field?_of_compact (h : a.compact = b.compact) (name : String) :
    (a.field? name).map compact = (b.field? name).map compact := by
  cases alike_of_compact h with
  | number isA isB => cases a <;> cases isA <;> cases b <;> cases isB <;> rfl
  | plain => rfl
  | arr => rfl
  | obj fields =>
    change (findEntry name _).map compact = (findEntry name _).map compact
    rw [← findEntry_told, ← findEntry_told, fields]

end BoardDesign.Json
