import BoardDesign.Proofs.Json.ReadBack
import BoardDesign.Proofs.Text.Hex

/-!
# Words and strings within a text

The tokens of a text other than its brackets, commas and colons are words and strings.

* `IsWord`: what numbers, `true`, `false` and `null` are written as; `Number.exists_word` says that
  what is read as a number is one;
* `readValue_word`: a word is read alike whatever follows it;
* `isBody`: what can stand between quotes; `exists_body` says that what is read as a string does;
* `stringBody_body`: it is read alike whatever follows it.
-/

namespace BoardDesign.Json

variable {depth fuel : Nat} {rest cs : List Char}

/-! ## Words -/

/-- A character that neither sets words apart nor begins another token. -/
def isWordChar (c : Char) : Bool :=
  !isSpace c && !([',', ':', '[', ']', '\x7b', '\x7d', '"'].contains c)

def IsWord (w : List Char) : Prop := w ≠ [] ∧ ∀ c ∈ w, isWordChar c = true

instance (w : List Char) : Decidable (IsWord w) :=
  decidable_of_iff (w ≠ [] ∧ w.all isWordChar = true) (by rw [IsWord, List.all_eq_true])

theorem isWordChar_iff {c : Char} : isWordChar c = true ↔
    isSpace c = false ∧ c ∉ [',', ':', '[', ']', '\x7b', '\x7d', '"'] := by
  simp [isWordChar]

theorem isWordChar_of_isDigit {c : Char} (digit : Text.isDigit c = true) : isWordChar c = true := by
  refine isWordChar_iff.mpr ⟨Number.Begins.not_isSpace (.inr digit), fun mem => ?_⟩
  simp only [List.mem_cons, List.not_mem_nil, or_false] at mem
  rcases mem with rfl | rfl | rfl | rfl | rfl | rfl | rfl <;> cases digit

theorem Ends.not_isWordChar {c : Char} {r : List Char} (ends : Ends (c :: r)) :
    isWordChar c = false := by
  rcases ends.cases with rfl | rfl | rfl | rfl | rfl | rfl | rfl <;> rfl

namespace Number

open Text (isDigit)

variable {negative down : Bool} {digits : Nat} {start : Int} {left : List Char}
  {found : Json × List Char}

/-- A number is read, and what is taken from the text for it are characters of words. -/
structure Takes (cs : List Char) (found : Json × List Char) : Prop where
  scalar : found.1.nesting = 0
  taken : ∃ w, (∀ c ∈ w, isWordChar c = true) ∧ cs = w ++ found.2

theorem Takes.cons {c : Char} (char : isWordChar c = true) (h : Takes cs found) :
    Takes (c :: cs) found := by
  obtain ⟨w, chars, rfl⟩ := h.taken
  exact ⟨h.scalar, c :: w, List.forall_mem_cons.mpr ⟨char, chars⟩, rfl⟩

theorem Takes.behindDigits (h : Takes (cs.dropWhile isDigit) found) : Takes cs found := by
  obtain ⟨w, chars, same⟩ := h.taken
  refine ⟨h.scalar, cs.takeWhile isDigit ++ w, fun c mem => ?_, ?_⟩
  · rcases List.mem_append.mp mem with mem | mem
    · exact isWordChar_of_isDigit (List.all_eq_true.mp List.all_takeWhile c mem)
    · exact chars c mem
  · rw [List.append_assoc, ← same, List.takeWhile_append_dropWhile]

theorem takes_nothing {x : Json} (scalar : x.nesting = 0) (cs : List Char) : Takes cs (x, cs) :=
  ⟨scalar, [], nofun, rfl⟩

theorem nesting_fraction {x : Json} (h : fraction negative digits start = some x) :
    x.nesting = 0 := by
  unfold fraction at h
  split at h <;> cases h
  rfl

theorem takes_fraction (h : (fraction negative digits start).map (·, cs) = some found) :
    Takes cs found := by
  obtain ⟨x, is, rfl⟩ := Option.map_eq_some_iff.mp h
  exact takes_nothing (nesting_fraction is) cs

theorem takes_exponentDigits?
    (h : exponentDigits? digits negative start down cs = some found) : Takes cs found := by
  refine Takes.behindDigits ?_
  simp only [exponentDigits?] at h
  split at h
  · cases h
  split at h
  · split at h
    · cases h
    · cases h
      exact takes_nothing rfl _
  · exact takes_fraction h

theorem takes_exponent? (h : exponent? digits negative start cs = some found) :
    Takes cs found := by
  unfold exponent? at h
  split at h
  · exact (takes_exponentDigits? h).cons (by decide)
  · exact (takes_exponentDigits? h).cons (by decide)
  · exact takes_exponentDigits? h

theorem takes_afterDigits (h : afterDigits negative digits start cs = some found) :
    Takes cs found := by
  unfold afterDigits at h
  split at h
  · exact (takes_exponent? h).cons (by decide)
  · exact (takes_exponent? h).cons (by decide)
  · exact takes_fraction h

theorem takes_whole (h : whole negative digits left cs = some found) : Takes cs found := by
  unfold whole at h
  split at h
  · exact takes_afterDigits h
  split at h
  · cases h
    exact takes_nothing rfl cs
  split at h
  · obtain ⟨x, -, rfl⟩ := Option.map_eq_some_iff.mp h
    exact takes_nothing rfl cs
  · cases h
    exact takes_nothing rfl cs

theorem takes_afterWhole (h : afterWhole negative digits left cs = some found) :
    Takes cs found := by
  unfold afterWhole at h
  split at h
  · simp only [afterPoint] at h
    split at h
    · cases h
    · exact (takes_afterDigits h).behindDigits.cons (by decide)
  · exact takes_afterDigits h
  · exact takes_afterDigits h
  · exact takes_whole h

theorem Takes.length_le (h : Takes cs found) : found.2.length ≤ cs.length := by
  obtain ⟨w, -, rfl⟩ := h.taken
  rw [List.length_append]
  omega

theorem takes_unsigned? (h : unsigned? negative cs = some found) :
    Takes cs found ∧ found.2.length < cs.length := by
  unfold unsigned? at h
  split at h
  · cases h
  · cases h
  · rename_i filled _
    have behind := takes_afterWhole h
    have some : 0 < (cs.takeWhile isDigit).length := List.length_pos_of_ne_nil filled
    have whole := congrArg List.length (List.takeWhile_append_dropWhile (p := isDigit) (l := cs))
    rw [List.length_append] at whole
    have less := behind.length_le
    exact ⟨behind.behindDigits, by omega⟩

theorem takes_read? (h : read? cs = some found) : Takes cs found ∧ found.2.length < cs.length := by
  unfold read? at h
  split at h
  · obtain ⟨takes, less⟩ := takes_unsigned? h
    exact ⟨takes.cons (by decide), Nat.lt_succ_of_lt less⟩
  · exact takes_unsigned? h

/-- What is read as a number is a word. -/
theorem exists_word (h : read? cs = some found) : ∃ w, IsWord w ∧ cs = w ++ found.2 := by
  obtain ⟨takes, less⟩ := takes_read? h
  obtain ⟨w, chars, rfl⟩ := takes.taken
  refine ⟨w, ⟨?_, chars⟩, rfl⟩
  rintro rfl
  exact absurd less (Nat.lt_irrefl _)

end Number

/-- What a word stands for, which is read to its end. -/
def word? (w : List Char) : Option Json :=
  (readValue 1 1 w).bind fun found => if found.2.isEmpty then some found.1 else none

/-- The words that are no numbers. -/
def literals : List (List Char × Json) :=
  [("null".toList, .null), ("true".toList, .bool true), ("false".toList, .bool false)]

section Word

variable {w : List Char} {c : Char} {l : List Char × Json}

theorem skipSpace_wordChar (char : isWordChar c = true) (r : List Char) :
    skipSpace (c :: r) = c :: r := skipSpace_cons (isWordChar_iff.mp char).1 r

theorem readValue_literal (mem : l ∈ literals) (r : List Char) :
    readValue (fuel + 1) depth (l.1 ++ r) = some (l.2, r) := by
  simp only [literals, List.mem_cons, List.not_mem_nil, or_false] at mem
  obtain rfl | rfl | rfl := mem <;> rfl

/-- A word that begins with none of the literals is read as a number. -/
theorem readValue_other (char : isWordChar c = true)
    (other : ∀ l ∈ literals, ∀ r, c :: cs ≠ l.1 ++ r) :
    readValue (fuel + 1) depth (c :: cs) = Number.read? (c :: cs) := by
  rw [readValue, skipSpace_wordChar char]
  have plain := (isWordChar_iff.mp char).2
  split
  · rename_i same
    cases same
    simp at plain
  · rename_i same
    cases same
    simp at plain
  · rename_i same
    cases same
    simp at plain
  · rename_i r same
    exact absurd same (other ("null".toList, .null) (by decide) r)
  · rename_i r same
    exact absurd same (other ("true".toList, .bool true) (by decide) r)
  · rename_i r same
    exact absurd same (other ("false".toList, .bool false) (by decide) r)
  · rfl

/-- A word begins with a literal if it does so with something else behind it. -/
theorem exists_of_append_eq {r : List Char} (mem : l ∈ literals) (ends : Ends rest)
    (h : w ++ rest = l.1 ++ r) : ∃ r', w = l.1 ++ r' := by
  have words : ∀ l ∈ literals, IsWord l.1 := by decide
  obtain ⟨a, whole, same⟩ | ⟨a, whole, -⟩ := List.append_eq_append_iff.mp h
  · cases a with
    | nil => exact ⟨[], by simpa using whole.symm⟩
    | cons d a =>
      rw [same] at ends
      have char := (words l mem).2 d (by simp [whole])
      rw [ends.not_isWordChar] at char
      cases char
  · exact ⟨a, whole⟩

/-- A word is read alike whatever follows it. -/
theorem readValue_word (word : IsWord w) (ends : Ends rest) (fuel depth : Nat) :
    readValue (fuel + 1) depth (w ++ rest) = (readValue 1 1 w).map (Number.leaving rest) := by
  by_cases literal : ∃ l ∈ literals, ∃ r, w = l.1 ++ r
  · obtain ⟨l, mem, r, rfl⟩ := literal
    rw [List.append_assoc, readValue_literal mem, readValue_literal mem]
    rfl
  · have other : ∀ l ∈ literals, ∀ r, w ≠ l.1 ++ r := fun l mem r same =>
      literal ⟨l, mem, r, same⟩
    have other' : ∀ l ∈ literals, ∀ r, w ++ rest ≠ l.1 ++ r := fun l mem r same =>
      have ⟨r', whole⟩ := exists_of_append_eq mem ends same
      other l mem r' whole
    obtain ⟨c, cs, rfl⟩ := List.exists_cons_of_ne_nil word.1
    have char := word.2 c (.head _)
    rw [List.cons_append] at other' ⊢
    rw [readValue_other char other', readValue_other char other, ← List.cons_append,
      Number.read?_append ends]

/-- What is read where nothing may be opened is no array and no object. -/
theorem nesting_of_readValue {found : Json × List Char} (h : readValue 1 1 cs = some found) :
    found.1.nesting = 0 := by
  rw [readValue] at h
  split at h
  · obtain ⟨b, -, rfl⟩ := Option.map_eq_some_iff.mp h
    rfl
  · cases h
  · cases h
  · cases h
    rfl
  · cases h
    rfl
  · cases h
    rfl
  · exact (Number.takes_read? h).1.scalar

/-- Of a word the end is left. -/
theorem suffix_of_readValue (word : IsWord w) {found : Json × List Char}
    (h : readValue 1 1 w = some found) : found.2 <:+ w := by
  by_cases literal : ∃ l ∈ literals, ∃ r, w = l.1 ++ r
  · obtain ⟨l, mem, r, rfl⟩ := literal
    rw [readValue_literal mem] at h
    cases h
    exact List.suffix_append _ _
  · obtain ⟨c, cs, rfl⟩ := List.exists_cons_of_ne_nil word.1
    rw [readValue_other (word.2 c (.head _)) fun l mem r same => literal ⟨l, mem, r, same⟩] at h
    obtain ⟨taken, -, same⟩ := Number.exists_word h
    exact ⟨taken, same.symm⟩

end Word

/-! ## Strings -/

/-- Whether a text may stand between quotes: it has a quote only behind a backslash, and every
backslash has something behind it. -/
def isBody : List Char → Bool
  | [] => true
  | '\\' :: _ :: r => isBody r
  | c :: r => c != '\\' && c != '"' && isBody r

/-- The characters that stand between quotes. -/
def bodyChars? (b : List Char) : Option (List Char) :=
  (stringBody (b.length + 1) (b ++ ['"'])).map (·.1)

section Body

variable {b : List Char} {c : Char}

theorem isBody_cons (other : c ≠ '\\') (b : List Char) :
    isBody (c :: b) = (c != '"' && isBody b) := by
  rw [isBody.eq_3 _ _ fun _ _ same => absurd same other, bne_iff_ne.mpr other, Bool.true_and]

/-- The reader stops before the quote that closes a string, if it does not fail, and does not look
behind it. -/
def Stops {α : Type} (read : List Char → Option (α × List Char)) (b : List Char) : Prop :=
  (∀ r, read (b ++ '"' :: r) = none) ∨
    ∃ x b', isBody b' = true ∧ b'.length ≤ b.length ∧
      ∀ r, read (b ++ '"' :: r) = some (x, b' ++ '"' :: r)

theorem Stops.bind {α β : Type} {read : List Char → Option (α × List Char)}
    {next : α → List Char → Option (β × List Char)} (stops : Stops read b)
    (then' : ∀ x b', isBody b' = true → Stops (next x) b') :
    Stops (fun cs => (read cs).bind fun found => next found.1 found.2) b := by
  obtain none | ⟨x, b', body, shorter, found⟩ := stops
  · exact .inl fun r => by simp [none]
  obtain none | ⟨y, b'', body', shorter', found'⟩ := then' x b' body
  · exact .inl fun r => by simp [found, none]
  · exact .inr ⟨y, b'', body', Nat.le_trans shorter' shorter, fun r => by simp [found, found']⟩

/-- Four digits do not reach beyond the closing quote. -/
theorem unit?_of_short (short : b.length < 4) (r : List Char) : unit? (b ++ '"' :: r) = none := by
  unfold unit?
  split
  · rename_i a₁ a₂ a₃ a₄ left same
    rw [Option.map_eq_none_iff, Option.eq_none_iff_forall_ne_some]
    intro n read
    have quote : '"' ∈ [a₁, a₂, a₃, a₄] := by
      match b, short with
      | [], _ | [_], _ | [_, _], _ | [_, _, _], _ => cases same; simp
    exact absurd (Text.Hex.isSome_value?_of_go read _ quote) (by decide)
  · rfl

theorem stops_unit? (body : isBody b = true) : Stops unit? b := by
  match b with
  | [] | [_] | [_, _] | [_, _, _] => exact .inl (unit?_of_short (by simp))
  | a₁ :: a₂ :: a₃ :: a₄ :: b' =>
    cases read : Text.Hex.toNat? [a₁, a₂, a₃, a₄] with
    | none => exact .inl fun r => by simp [unit?, read]
    | some n =>
      refine .inr ⟨n, b', ?_, by simp; omega, fun r => by simp [unit?, read]⟩
      have other : ∀ a ∈ [a₁, a₂, a₃, a₄], a ≠ '\\' := by
        rintro _ mem rfl
        exact absurd (Text.Hex.isSome_value?_of_go read _ mem) (by decide)
      rw [isBody_cons (other a₁ (by simp)), isBody_cons (other a₂ (by simp)),
        isBody_cons (other a₃ (by simp)), isBody_cons (other a₄ (by simp))] at body
      simp only [Bool.and_eq_true] at body
      exact body.2.2.2.2

theorem Stops.of_eq {α : Type} {f g : List Char → Option (α × List Char)} {b' : List Char}
    (stops : Stops g b') (shorter : b'.length ≤ b.length)
    (same : ∀ r, f (b ++ '"' :: r) = g (b' ++ '"' :: r)) : Stops f b := by
  obtain none | ⟨x, b'', body, shorter', found⟩ := stops
  · exact .inl fun r => (same r).trans (none r)
  · exact .inr ⟨x, b'', body, Nat.le_trans shorter' shorter, fun r => (same r).trans (found r)⟩

/-- The character whose halves have been read. -/
def whole? (n m : Nat) (cs : List Char) : Option (Char × List Char) :=
  if 0xDC00 ≤ m && m < 0xE000 then
    some (Char.ofNat (0x10000 + (n - 0xD800) * 0x400 + (m - 0xDC00)), cs)
  else none

/-- The character whose first half has been read. -/
def secondHalf? (n : Nat) : List Char → Option (Char × List Char)
  | '\\' :: 'u' :: r => (unit? r).bind fun found => whole? n found.1 found.2
  | _ => none

/-- The character whose four digits have been read, or those of its first half. -/
def afterUnit? (n : Nat) (cs : List Char) : Option (Char × List Char) :=
  if 0xD800 ≤ n && n < 0xDC00 then secondHalf? n cs
  else if 0xDC00 ≤ n && n < 0xE000 then none
  else some (Char.ofNat n, cs)

theorem escape?_unit (cs : List Char) :
    escape? ('u' :: cs) = (unit? cs).bind fun found => afterUnit? found.1 found.2 := by
  rw [escape?]
  cases unit? cs with
  | none => rfl
  | some found =>
    obtain ⟨n, left⟩ := found
    rw [Option.bind_some, afterUnit?]
    refine if_congr Iff.rfl ?_ rfl
    by_cases half : ∃ r, left = '\\' :: 'u' :: r
    · obtain ⟨r, rfl⟩ := half
      rw [secondHalf?]
      cases digits : unit? r <;> simp [digits, whole?]
    · rw [secondHalf?.eq_2 n left fun r same => half ⟨r, same⟩]
      split
      · exact absurd ⟨_, rfl⟩ half
      · rfl

/-- Every other escape is one character long. -/
theorem escape?_other (other : c ≠ 'u') :
    ∃ o : Option Char, ∀ r, escape? (c :: r) = o.map (·, r) := by
  by_cases simple : c ∈ ['"', '\\', '/', 'b', 'f', 'n', 'r', 't']
  · simp only [List.mem_cons, List.not_mem_nil, or_false] at simple
    rcases simple with rfl | rfl | rfl | rfl | rfl | rfl | rfl | rfl <;>
      exact ⟨some _, fun _ => rfl⟩
  · refine ⟨none, fun r => ?_⟩
    unfold escape?
    split
    all_goals
      first
      | rfl
      | rename_i same
        cases same
        simp at simple other

theorem stops_some {α : Type} (body : isBody b = true) (x : α) : Stops (fun cs => some (x, cs)) b :=
  .inr ⟨x, b, body, Nat.le_refl _, fun _ => rfl⟩

theorem stops_none {α : Type} : Stops (fun _ => (none : Option (α × List Char))) b :=
  .inl fun _ => rfl

theorem stops_secondHalf? {n : Nat} (body : isBody b = true) : Stops (secondHalf? n) b := by
  by_cases half : ∃ b', b = '\\' :: 'u' :: b'
  · obtain ⟨b', rfl⟩ := half
    have stops : Stops (fun cs => (unit? cs).bind fun found => whole? n found.1 found.2) b' := by
      refine (stops_unit? (b := b') body).bind fun m b'' body => ?_
      unfold whole?
      split
      · exact stops_some body _
      · exact stops_none
    exact stops.of_eq (by simp; omega) fun r => rfl
  · refine .inl fun r => secondHalf?.eq_2 n _ fun r' same => ?_
    match b with
    | [] | [_] => cases same
    | _ :: _ :: b' =>
      obtain ⟨rfl, rfl, -⟩ := by simpa using same
      exact half ⟨b', rfl⟩

theorem stops_escape? (body : isBody ('\\' :: b) = true) : Stops escape? b := by
  match b, body with
  | c :: b, body =>
    change isBody b = true at body
    by_cases unit : c = 'u'
    · subst unit
      have stops : Stops (fun cs => (unit? cs).bind fun found => afterUnit? found.1 found.2) b := by
        refine (stops_unit? body).bind fun n b' body => ?_
        unfold afterUnit?
        split
        · exact stops_secondHalf? body
        split
        · exact stops_none
        · exact stops_some body _
      exact stops.of_eq (by simp) fun r => escape?_unit _
    · obtain ⟨_ | d, same⟩ := escape?_other unit
      · exact stops_none.of_eq (Nat.le_refl _) fun r => same _
      · exact (stops_some body d).of_eq (by simp) fun r => same _

/-- One character of a string is read, whatever follows the string. -/
theorem stringBody_cons (body : isBody (c :: b) = true) :
    (∀ fuel r, stringBody fuel (c :: b ++ '"' :: r) = none) ∨
      ∃ d b', isBody b' = true ∧ b'.length ≤ b.length ∧ ∀ fuel r,
        stringBody (fuel + 1) (c :: b ++ '"' :: r) =
          (stringBody fuel (b' ++ '"' :: r)).map fun found => (d :: found.1, found.2) := by
  by_cases escape : c = '\\'
  · subst escape
    obtain failed | ⟨d, b', body', shorter, found⟩ := stops_escape? body
    · refine .inl fun fuel r => ?_
      cases fuel with
      | zero => rfl
      | succ fuel => simp [stringBody, failed]
    · exact .inr ⟨d, b', body', shorter, fun fuel r => by simp [stringBody, found]⟩
  · rw [isBody_cons escape, Bool.and_eq_true, bne_iff_ne] at body
    have step (fuel : Nat) (r : List Char) : stringBody (fuel + 1) (c :: b ++ '"' :: r) =
        if c.toNat < 0x20 then none
        else (stringBody fuel (b ++ '"' :: r)).map fun found => (c :: found.1, found.2) := by
      simp [stringBody, body.1]
    by_cases control : c.toNat < 0x20
    · refine .inl fun fuel r => ?_
      cases fuel with
      | zero => rfl
      | succ fuel => rw [step, if_pos control]
    · exact .inr ⟨c, b, body.2, Nat.le_refl _, fun fuel r => by rw [step, if_neg control]⟩

theorem exists_stringBody (b : List Char) (body : isBody b = true) :
    ∃ o : Option (List Char), ∀ fuel r, b.length < fuel →
      stringBody fuel (b ++ '"' :: r) = o.map (·, r) := by
  match b with
  | [] =>
    refine ⟨some [], fun fuel r enough => ?_⟩
    obtain ⟨fuel, rfl⟩ := Nat.exists_eq_succ_of_ne_zero (Nat.ne_of_gt enough)
    rfl
  | c :: b =>
    obtain failed | ⟨d, b', body', shorter, step⟩ := stringBody_cons body
    · exact ⟨none, fun fuel r _ => failed fuel r⟩
    · have : b'.length < (c :: b).length := Nat.lt_succ_of_le shorter
      obtain ⟨o, read⟩ := exists_stringBody b' body'
      refine ⟨o.map (d :: ·), fun fuel r enough => ?_⟩
      rw [List.length_cons] at enough
      obtain ⟨fuel, rfl⟩ : ∃ k, fuel = k + 1 := ⟨fuel - 1, by omega⟩
      rw [step, read fuel r (by omega), Option.map_map, Option.map_map]
      rfl
termination_by b.length

/-- What stands between quotes is read alike whatever follows it. -/
theorem stringBody_body (body : isBody b = true) (enough : b.length < fuel) (r : List Char) :
    stringBody fuel (b ++ '"' :: r) = (bodyChars? b).map (·, r) := by
  obtain ⟨o, read⟩ := exists_stringBody b body
  rw [bodyChars?, read _ _ (Nat.lt_succ_self _), read _ _ enough, Option.map_map, Option.map_map]
  rfl

/-! ### What is taken for a string -/

theorem exists_of_unit? {n : Nat} {r : List Char} (h : unit? cs = some (n, r)) :
    ∃ e, cs = e ++ r ∧ ∀ b, isBody (e ++ b) = isBody b := by
  unfold unit? at h
  split at h
  · rename_i a₁ a₂ a₃ a₄ left
    obtain ⟨m, read, same⟩ := Option.map_eq_some_iff.mp h
    cases same
    have digits := Text.Hex.isSome_value?_of_go read
    have plain : ∀ a ∈ [a₁, a₂, a₃, a₄], a ≠ '\\' ∧ (a != '"') = true := by
      refine fun a mem => ⟨?_, bne_iff_ne.mpr ?_⟩ <;> rintro rfl <;>
        exact absurd (digits _ mem) (by decide)
    simp only [List.mem_cons, List.not_mem_nil, or_false, forall_eq_or_imp, forall_eq] at plain
    obtain ⟨⟨h₁, q₁⟩, ⟨h₂, q₂⟩, ⟨h₃, q₃⟩, h₄, q₄⟩ := plain
    refine ⟨[a₁, a₂, a₃, a₄], rfl, fun b => ?_⟩
    simp only [List.cons_append, List.nil_append, isBody_cons h₁, isBody_cons h₂, isBody_cons h₃,
      isBody_cons h₄, q₁, q₂, q₃, q₄, Bool.true_and]
  · cases h

theorem exists_of_escape? {d : Char} {r : List Char} (h : escape? cs = some (d, r)) :
    ∃ e, cs = e ++ r ∧ ∀ b, isBody ('\\' :: (e ++ b)) = isBody b := by
  cases cs with
  | nil => cases h
  | cons c cs =>
    by_cases unit : c = 'u'
    · subst unit
      rw [escape?_unit] at h
      obtain ⟨⟨n, r₁⟩, read, after⟩ := Option.bind_eq_some_iff.mp h
      obtain ⟨e₁, rfl, body₁⟩ := exists_of_unit? read
      unfold afterUnit? at after
      split at after
      · unfold secondHalf? at after
        split at after
        · rename_i half
          obtain ⟨⟨m, r₂⟩, read₂, second⟩ := Option.bind_eq_some_iff.mp after
          obtain ⟨e₂, rfl, body₂⟩ := exists_of_unit? read₂
          unfold whole? at second
          split at second
          · obtain rfl : r₂ = r := congrArg Prod.snd (Option.some.inj second)
            change r₁ = _ at half
            subst half
            refine ⟨'u' :: (e₁ ++ '\\' :: 'u' :: e₂), by simp, fun b => ?_⟩
            have first : isBody ('\\' :: 'u' :: (e₁ ++ ('\\' :: 'u' :: (e₂ ++ b)))) =
              isBody (e₁ ++ ('\\' :: 'u' :: (e₂ ++ b))) := rfl
            have next : isBody ('\\' :: 'u' :: (e₂ ++ b)) = isBody (e₂ ++ b) := rfl
            simp only [List.cons_append, List.append_assoc]
            rw [first, body₁, next, body₂]
          · cases second
        · cases after
      split at after
      · cases after
      · cases after
        exact ⟨'u' :: e₁, rfl, body₁⟩
    · obtain ⟨o, same⟩ := escape?_other unit
      rw [same] at h
      obtain ⟨x, -, is⟩ := Option.map_eq_some_iff.mp h
      cases is
      exact ⟨[c], rfl, fun b => rfl⟩

/-- What is read as a string can stand between quotes. -/
theorem exists_body {s r : List Char} (h : stringBody fuel cs = some (s, r)) :
    ∃ b, isBody b = true ∧ cs = b ++ '"' :: r := by
  induction fuel generalizing cs s with
  | zero => cases h
  | succ fuel ih =>
    cases cs with
    | nil => cases h
    | cons c cs =>
      by_cases quote : c = '"'
      · subst quote
        cases h
        exact ⟨[], rfl, rfl⟩
      by_cases escape : c = '\\'
      · subst escape
        rw [stringBody] at h
        split at h
        · cases h
        · rename_i d left escaped
          obtain ⟨⟨s', r'⟩, read, same⟩ := Option.map_eq_some_iff.mp h
          cases same
          obtain ⟨e, rfl, more⟩ := exists_of_escape? escaped
          obtain ⟨b, body, rfl⟩ := ih read
          exact ⟨'\\' :: (e ++ b), (more b).trans body, by simp⟩
      · simp only [stringBody, Option.ite_none_left_eq_some] at h
        obtain ⟨⟨s', r'⟩, read, same⟩ := Option.map_eq_some_iff.mp h.2
        cases same
        obtain ⟨b, body, rfl⟩ := ih read
        exact ⟨c :: b, by rw [isBody_cons escape, body, bne_iff_ne.mpr quote]; rfl, rfl⟩

end Body

end BoardDesign.Json
