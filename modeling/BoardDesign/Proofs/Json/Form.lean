import BoardDesign.Proofs.Json.Token

/-!
# The form of a text

A text is made of tokens with any blanks before, between and after them. What is read from it
depends on the tokens alone, and on how they are nested.

* `Form`: the tokens of a text as they are nested, with `Form.Spells` for its texts;
* `Form.value?`: what a form stands for, if it stands for anything;
* `parse_spelled`: a text is read as what its form stands for;
* `exists_spells`: every text that is read has a form;
* `nesting_of_parse`: and it is not nested too deep.
-/

namespace BoardDesign.Json

variable {depth fuel : Nat} {rest cs : List Char}

/-! ## Forms -/

/-- The tokens of a text as they are nested: words, which are numbers, `true`, `false` and `null`;
strings, by what stands between their quotes; arrays, and objects. -/
inductive Form where
  | word (text : List Char)
  | str (body : List Char)
  | arr (items : List Form)
  | obj (fields : List (List Char × Form))

/-- A token with blanks around it. -/
def Padded (token : List Char → Prop) (cs : List Char) : Prop :=
  ∃ before inner after, Blank before ∧ token inner ∧ Blank after ∧ cs = before ++ (inner ++ after)

/-- A string with blanks around it. -/
def Quoted (body : List Char) : List Char → Prop :=
  Padded fun t => isBody body = true ∧ t = '"' :: (body ++ ['"'])

namespace Form

mutual

/-- The text is made of the tokens of the form, with any blanks before, between and after them. -/
def Spells (a : Form) (cs : List Char) : Prop :=
  match a with
  | .word w => Padded (fun t => IsWord w ∧ t = w) cs
  | .str b => Quoted b cs
  | .arr items =>
    Padded (fun t => ∃ inner, SpellsItems items inner ∧ t = '[' :: (inner ++ [']'])) cs
  | .obj fields =>
    Padded (fun t => ∃ inner, SpellsFields fields inner ∧ t = '\x7b' :: (inner ++ ['\x7d'])) cs
termination_by structural a

def SpellsItems (items : List Form) (cs : List Char) : Prop :=
  match items with
  | [] => Blank cs
  | [x] => Spells x cs
  | x :: rest => ∃ first more, Spells x first ∧ SpellsItems rest more ∧ cs = first ++ ',' :: more
termination_by structural items

def SpellsFields (fields : List (List Char × Form)) (cs : List Char) : Prop :=
  match fields with
  | [] => Blank cs
  | [(k, x)] => ∃ name value, Quoted k name ∧ Spells x value ∧ cs = name ++ ':' :: value
  | (k, x) :: rest => ∃ name value more, Quoted k name ∧ Spells x value ∧
      SpellsFields rest more ∧ cs = name ++ ':' :: (value ++ ',' :: more)
termination_by structural fields

end

end Form

/-! ## What forms stand for -/

namespace Form

mutual

/-- What the form stands for where `depth` arrays and objects, less one, may be nested. -/
def value? (depth : Nat) (a : Form) : Option Json :=
  match a with
  | .word w => word? w
  | .str b => (bodyChars? b).map fun cs => .str (String.ofList cs)
  | .arr items => if depth ≤ 1 then none else (values? (depth - 1) items).map .arr
  | .obj fields => if depth ≤ 1 then none else (fields? (depth - 1) fields).map .obj
termination_by structural a

def values? (depth : Nat) (items : List Form) : Option (List Json) :=
  match items with
  | [] => some []
  | x :: rest => (value? depth x).bind fun v => (values? depth rest).map (v :: ·)
termination_by structural items

def fields? (depth : Nat) (fields : List (List Char × Form)) : Option (List (String × Json)) :=
  match fields with
  | [] => some []
  | (k, x) :: rest => (bodyChars? k).bind fun name => (value? depth x).bind fun v =>
      (fields? depth rest).map ((String.ofList name, v) :: ·)
termination_by structural fields

end

end Form

/-! ## Values within a text -/

/-- Whether a text is at its end or goes on with what ends an item, an array or an object. -/
def closes : List Char → Bool
  | [] => true
  | c :: _ => c == ',' || c == ']' || c == '\x7d'

/-- What has been read, where nothing but blanks stands before what closes it. -/
def closed? {α : Type} (found : Option (α × List Char)) : Option (α × List Char) :=
  found.bind fun b => if closes (skipSpace b.2) then some (b.1, skipSpace b.2) else none

section Closed

variable {pad r : List Char} {c : Char}

theorem isSpace_of_closes (close : closes (c :: r) = true) : isSpace c = false := by
  simp only [closes, Bool.or_eq_true, beq_iff_eq] at close
  rcases close with (rfl | rfl) | rfl <;> rfl

theorem skipSpace_closes (blank : Blank pad) (close : closes rest = true) :
    skipSpace (pad ++ rest) = rest := by
  rw [skipSpace_blank blank]
  cases rest with
  | nil => rfl
  | cons c r => exact skipSpace_cons (isSpace_of_closes close) r

theorem ends_closes (blank : Blank pad) (close : closes rest = true) : Ends (pad ++ rest) := by
  cases rest with
  | nil =>
    cases pad with
    | nil => exact .inl rfl
    | cons d pad => exact .inr ⟨d, pad ++ [], rfl, .inr (.inr (.inr (blank d (.head _))))⟩
  | cons c r =>
    simp only [closes, Bool.or_eq_true, beq_iff_eq, or_assoc] at close
    exact ends_blank blank close r

theorem closed?_map {α : Type} (blank : Blank pad) (close : closes rest = true) (o : Option α) :
    closed? (o.map (·, pad ++ rest)) = o.map (·, rest) := by
  cases o with
  | none => rfl
  | some x => simp [closed?, skipSpace_closes blank close, close]

theorem closes_wordChar (char : isWordChar c = true) (r : List Char) : closes (c :: r) = false := by
  have plain := (isWordChar_iff.mp char).2
  simp only [List.mem_cons, not_or] at plain
  simp [closes, plain]

/-- A word is read to its end or not at all. -/
theorem closed?_word {w : List Char} (word : IsWord w) (blank : Blank pad)
    (close : closes rest = true) (fuel depth : Nat) :
    closed? (readValue (fuel + 1) depth (w ++ (pad ++ rest))) = (word? w).map (·, rest) := by
  rw [readValue_word word (ends_closes blank close), word?]
  cases read : readValue 1 1 w with
  | none => rfl
  | some found =>
    obtain ⟨x, left⟩ := found
    cases left with
    | nil => exact closed?_map blank close (some x)
    | cons c left =>
      have char := word.2 c ((suffix_of_readValue word read).subset (.head _))
      simp [closed?, Number.leaving, skipSpace_wordChar char, closes_wordChar char]

theorem bind_closed? {α β : Type} {x : α} {left : List Char}
    {f : α → List Char → Option β} (only : ∀ cs, closes cs = false → f x cs = none) :
    ((closed? (some (x, left))).bind fun found => f found.1 found.2) = f x (skipSpace left) := by
  cases close : closes (skipSpace left) with
  | false => simp [closed?, close, only]
  | true => simp [closed?, close]

/-- What is read of an array whose next item has been read. -/
def afterItem? (fuel depth : Nat) (x : Json) : List Char → Option (List Json × List Char)
  | ',' :: r => (readItems fuel depth r).map fun b => (x :: b.1, b.2)
  | ']' :: r => some ([x], r)
  | _ => none

theorem readItems_succ (fuel depth : Nat) (cs : List Char) :
    readItems (fuel + 1) depth cs = (closed? (readValue fuel depth cs)).bind fun found =>
      afterItem? fuel depth found.1 found.2 := by
  rw [readItems]
  cases readValue fuel depth cs with
  | none => rfl
  | some found =>
    rw [bind_closed? (f := afterItem? fuel depth)]
    · rfl
    · intro cs open'
      refine afterItem?.eq_3 _ _ _ _ ?_ ?_ <;> rintro r rfl <;> cases open'

/-- What is read of an object whose next field has been read. -/
def afterField? (fuel depth : Nat) (k : String) (x : Json) :
    List Char → Option (List (String × Json) × List Char)
  | ',' :: r => (readFields fuel depth r).map fun b => ((k, x) :: b.1, b.2)
  | '\x7d' :: r => some ([(k, x)], r)
  | _ => none

/-- An object whose next field begins with a name. -/
theorem readFields_quoted {k value : List Char} (name : Quoted k pad) (fuel depth : Nat)
    (enough : pad.length ≤ fuel) :
    readFields (fuel + 1) depth (pad ++ ':' :: value) = (bodyChars? k).bind fun name =>
      (closed? (readValue fuel depth value)).bind fun found =>
        afterField? fuel depth (String.ofList name) found.1 found.2 := by
  obtain ⟨before, _, after, blank, ⟨body, rfl⟩, blank', rfl⟩ := name
  simp only [List.length_append, List.length_cons] at enough
  simp only [List.append_assoc, List.cons_append, List.nil_append]
  have long : k.length < fuel := by omega
  rw [readFields_blank blank, readFields]
  simp only [skipSpace_cons (c := '"') rfl, stringBody_body body long]
  cases bodyChars? k with
  | none => rfl
  | some cs =>
    simp only [Option.map_some, Option.bind_some, skipSpace_blank blank',
      skipSpace_cons (c := ':') rfl]
    cases readValue fuel depth value with
    | none => rfl
    | some found =>
      rw [bind_closed? (f := afterField? fuel depth _)]
      · rfl
      · intro cs open'
        refine afterField?.eq_3 _ _ _ _ _ ?_ ?_ <;> rintro r rfl <;> cases open'

/-- Behind blanks, the text goes on with something else than the character. -/
def Starts (other : Char) (cs : List Char) : Prop :=
  ∃ before c r, Blank before ∧ isSpace c = false ∧ c ≠ other ∧ cs = before ++ c :: r

theorem Starts.append {other : Char} (h : Starts other cs) (r : List Char) :
    Starts other (cs ++ r) := by
  obtain ⟨before, c, r', blank, space, ne, rfl⟩ := h
  exact ⟨before, c, r' ++ r, blank, space, ne, by simp⟩

theorem readValue_array (starts : Starts ']' cs) (fuel depth : Nat) :
    readValue (fuel + 1) depth ('[' :: cs) =
      if depth ≤ 1 then none
      else (readItems fuel (depth - 1) cs).map fun b => (.arr b.1, b.2) := by
  obtain ⟨before, c, r, blank, space, other, rfl⟩ := starts
  rw [readItems_blank blank]
  simp only [readValue, skipSpace_cons (c := '[') rfl, skipSpace_blank blank, skipSpace_cons space]
  split
  · rfl
  · split
    · rename_i same
      exact absurd (List.cons.inj same).1 other
    · rfl

theorem readValue_object (starts : Starts '\x7d' cs) (fuel depth : Nat) :
    readValue (fuel + 1) depth ('\x7b' :: cs) =
      if depth ≤ 1 then none
      else (readFields fuel (depth - 1) cs).map fun b => (.obj b.1, b.2) := by
  obtain ⟨before, c, r, blank, space, other, rfl⟩ := starts
  rw [readFields_blank blank]
  simp only [readValue, skipSpace_cons (c := '\x7b') rfl, skipSpace_blank blank,
    skipSpace_cons space]
  split
  · rfl
  · split
    · rename_i same
      exact absurd (List.cons.inj same).1 other
    · rfl

theorem readValue_emptyArray (blank : Blank pad) (fuel depth : Nat) (r : List Char) :
    readValue (fuel + 1) depth ('[' :: (pad ++ ']' :: r)) =
      if depth ≤ 1 then none else some (.arr [], r) := by
  simp only [readValue, skipSpace_cons (c := '[') rfl, skipSpace_blank blank,
    skipSpace_cons (c := ']') rfl]

theorem readValue_emptyObject (blank : Blank pad) (fuel depth : Nat) (r : List Char) :
    readValue (fuel + 1) depth ('\x7b' :: (pad ++ '\x7d' :: r)) =
      if depth ≤ 1 then none else some (.obj [], r) := by
  simp only [readValue, skipSpace_cons (c := '\x7b') rfl, skipSpace_blank blank,
    skipSpace_cons (c := '\x7d') rfl]

end Closed

/-! ## Forms are read -/

namespace Form

/-- What a form is spelled with begins, behind blanks, with something that ends no array. -/
theorem Spells.starts {a : Form} (spelled : a.Spells cs) : Starts ']' cs := by
  match a with
  | .word w =>
    obtain ⟨before, _, after, blank, ⟨word, rfl⟩, -, rfl⟩ := spelled
    obtain ⟨c, w, rfl⟩ := List.exists_cons_of_ne_nil word.1
    have char := isWordChar_iff.mp (word.2 c (.head _))
    exact ⟨before, c, w ++ after, blank, char.1, by rintro rfl; simp at char, rfl⟩
  | .str b =>
    obtain ⟨before, _, after, blank, ⟨-, rfl⟩, -, rfl⟩ := spelled
    exact ⟨before, '"', _, blank, by decide, by decide, rfl⟩
  | .arr items =>
    obtain ⟨before, _, after, blank, ⟨inner, -, rfl⟩, -, rfl⟩ := spelled
    exact ⟨before, '[', _, blank, by decide, by decide, rfl⟩
  | .obj fields =>
    obtain ⟨before, _, after, blank, ⟨inner, -, rfl⟩, -, rfl⟩ := spelled
    exact ⟨before, '\x7b', _, blank, by decide, by decide, rfl⟩

theorem spellsItems_cons_cons {x y : Form} {more : List Form} :
    SpellsItems (x :: y :: more) cs ↔
      ∃ first others, x.Spells first ∧ SpellsItems (y :: more) others ∧
        cs = first ++ ',' :: others := Iff.rfl

theorem spellsFields_cons_cons {k : List Char} {x : Form} {f : List Char × Form}
    {more : List (List Char × Form)} :
    SpellsFields ((k, x) :: f :: more) cs ↔
      ∃ name value others, Quoted k name ∧ x.Spells value ∧ SpellsFields (f :: more) others ∧
        cs = name ++ ':' :: (value ++ ',' :: others) := Iff.rfl

theorem SpellsItems.starts {x : Form} {more : List Form} (spelled : SpellsItems (x :: more) cs) :
    Starts ']' cs := by
  match more with
  | [] => exact Spells.starts (a := x) spelled
  | y :: more =>
    obtain ⟨first, others, spells, -, rfl⟩ := spelled
    exact spells.starts.append _

theorem starts_of_quoted {k : List Char} (quoted : Quoted k cs) : Starts '\x7d' cs := by
  obtain ⟨before, _, after, blank, ⟨-, rfl⟩, -, rfl⟩ := quoted
  exact ⟨before, '"', _, blank, by decide, by decide, rfl⟩

theorem SpellsFields.starts {f : List Char × Form} {more : List (List Char × Form)}
    (spelled : SpellsFields (f :: more) cs) : Starts '\x7d' cs := by
  match more with
  | [] =>
    obtain ⟨name, value, quoted, -, rfl⟩ := spelled
    exact (starts_of_quoted quoted).append _
  | g :: more =>
    obtain ⟨name, value, others, quoted, -, -, rfl⟩ := spelled
    exact (starts_of_quoted quoted).append _

mutual

/-- A value is read as what its form stands for, and what follows it is left. -/
theorem readValue_spelled (a : Form) {cs : List Char} (depth fuel : Nat) (rest : List Char)
    (spelled : a.Spells cs) (close : closes rest = true) (enough : 2 * cs.length ≤ fuel) :
    closed? (readValue fuel depth (cs ++ rest)) = (a.value? depth).map (·, rest) := by
  obtain ⟨fuel, rfl⟩ : ∃ k, fuel = k + 1 := by
    obtain ⟨before, c, r, -, -, -, rfl⟩ := spelled.starts
    rw [List.length_append, List.length_cons] at enough
    exact ⟨fuel - 1, by omega⟩
  match a with
  | .word w =>
    obtain ⟨before, _, after, blank, ⟨word, rfl⟩, blank', rfl⟩ := spelled
    rw [List.append_assoc, List.append_assoc, readValue_blank blank,
      closed?_word word blank' close, value?]
  | .str b =>
    obtain ⟨before, _, after, blank, ⟨body, rfl⟩, blank', rfl⟩ := spelled
    simp only [List.length_append, List.length_cons] at enough
    simp only [List.append_assoc, List.cons_append, List.nil_append]
    rw [readValue_blank blank, readValue, value?, ← closed?_map blank' close]
    simp only [skipSpace_cons (c := '"') rfl, stringBody_body body (show b.length < fuel by omega),
      Option.map_map]
    rfl
  | .arr items =>
    obtain ⟨before, _, after, blank, ⟨inner, each, rfl⟩, blank', rfl⟩ := spelled
    simp only [List.length_append, List.length_cons] at enough
    simp only [List.append_assoc, List.cons_append, List.nil_append]
    rw [readValue_blank blank, value?, ← closed?_map blank' close]
    match items with
    | [] =>
      rw [readValue_emptyArray each]
      split <;> rfl
    | x :: more =>
      have read := readItems_spelled (x :: more) (depth - 1) fuel (after ++ rest) each (by simp)
        (by omega)
      rw [readValue_array (each.starts.append _), read]
      split
      · rfl
      · rw [Option.map_map, Option.map_map]
        rfl
  | .obj fields =>
    obtain ⟨before, _, after, blank, ⟨inner, each, rfl⟩, blank', rfl⟩ := spelled
    simp only [List.length_append, List.length_cons] at enough
    simp only [List.append_assoc, List.cons_append, List.nil_append]
    rw [readValue_blank blank, value?, ← closed?_map blank' close]
    match fields with
    | [] =>
      rw [readValue_emptyObject each]
      split <;> rfl
    | f :: more =>
      have read := readFields_spelled (f :: more) (depth - 1) fuel (after ++ rest) each (by simp)
        (by omega)
      rw [readValue_object (each.starts.append _), read]
      split
      · rfl
      · rw [Option.map_map, Option.map_map]
        rfl
termination_by structural a

theorem readItems_spelled (items : List Form) {cs : List Char} (depth fuel : Nat)
    (rest : List Char) (spelled : SpellsItems items cs) (filled : items ≠ [])
    (enough : 2 * cs.length + 1 ≤ fuel) :
    readItems fuel depth (cs ++ ']' :: rest) = (values? depth items).map (·, rest) := by
  obtain ⟨fuel, rfl⟩ : ∃ k, fuel = k + 1 := ⟨fuel - 1, by omega⟩
  rw [readItems_succ]
  match items with
  | [] => exact absurd rfl filled
  | [x] =>
    rw [readValue_spelled x depth fuel _ spelled rfl (by omega), values?, values?]
    cases x.value? depth <;> rfl
  | x :: y :: more =>
    obtain ⟨first, others, spells, each, rfl⟩ := spellsItems_cons_cons.mp spelled
    rw [List.length_append, List.length_cons] at enough
    have read := readItems_spelled (y :: more) depth fuel rest each (by simp) (by omega)
    rw [List.append_assoc, List.cons_append,
      readValue_spelled x depth fuel _ spells rfl (by omega), values?]
    cases x.value? depth with
    | none => rfl
    | some v =>
      simp only [Option.map_some, Option.bind_some, afterItem?, read, Option.map_map]
      rfl
termination_by structural items

theorem readFields_spelled (fields : List (List Char × Form)) {cs : List Char} (depth fuel : Nat)
    (rest : List Char) (spelled : SpellsFields fields cs) (filled : fields ≠ [])
    (enough : 2 * cs.length + 1 ≤ fuel) :
    readFields fuel depth (cs ++ '\x7d' :: rest) = (fields? depth fields).map (·, rest) := by
  obtain ⟨fuel, rfl⟩ : ∃ k, fuel = k + 1 := ⟨fuel - 1, by omega⟩
  match fields with
  | [] => exact absurd rfl filled
  | [(k, x)] =>
    obtain ⟨name, value, quoted, spells, rfl⟩ := spelled
    rw [List.length_append, List.length_cons] at enough
    rw [List.append_assoc, List.cons_append, readFields_quoted quoted fuel depth (by omega),
      readValue_spelled x depth fuel _ spells rfl (by omega), fields?, fields?]
    cases bodyChars? k <;> cases x.value? depth <;> rfl
  | (k, x) :: f :: more =>
    obtain ⟨name, value, others, quoted, spells, each, rfl⟩ := spellsFields_cons_cons.mp spelled
    simp only [List.length_append, List.length_cons] at enough
    have read := readFields_spelled (f :: more) depth fuel rest each (by simp) (by omega)
    simp only [List.append_assoc, List.cons_append]
    rw [readFields_quoted quoted fuel depth (by omega),
      readValue_spelled x depth fuel _ spells rfl (by omega), fields?]
    cases bodyChars? k with
    | none => rfl
    | some name =>
      cases x.value? depth with
      | none => rfl
      | some v =>
        simp only [Option.map_some, Option.bind_some, afterField?, read, Option.map_map]
        rfl
termination_by structural fields

end

end Form

theorem parseChars_eq (cs : List Char) :
    parseChars cs = (closed? (readValue (2 * cs.length + 2) depthLimit cs)).bind fun found =>
      if found.2.isEmpty then some found.1 else none := by
  rw [parseChars]
  cases readValue (2 * cs.length + 2) depthLimit cs with
  | none => rfl
  | some found =>
    rw [bind_closed? (f := fun x cs => if cs.isEmpty then some x else none)]
    intro cs open'
    cases cs with
    | nil => cases open'
    | cons c r => rfl

/-- A text is read as what its form stands for. -/
theorem parse_spelled {a : Form} {t : String} (spelled : a.Spells t.toList) :
    parse t = a.value? depthLimit := by
  have read := a.readValue_spelled depthLimit (2 * t.toList.length + 2) [] spelled rfl (by omega)
  rw [List.append_nil] at read
  rw [parse, parseChars_eq, read]
  cases a.value? depthLimit <;> rfl

/-! ## Every text that is read has a form -/

section Exists

variable {pad r : List Char}

theorem exists_blank (cs : List Char) : ∃ pad, Blank pad ∧ cs = pad ++ skipSpace cs :=
  ⟨cs.takeWhile isSpace, List.all_eq_true.mp List.all_takeWhile,
    List.takeWhile_append_dropWhile.symm⟩

theorem blank_nil : Blank [] := nofun

theorem Blank.append {pad' : List Char} (blank : Blank pad) (blank' : Blank pad') :
    Blank (pad ++ pad') :=
  List.forall_mem_append.mpr ⟨blank, blank'⟩

theorem Padded.padded {token : List Char → Prop} (h : Padded token cs) (blank : Blank pad)
    (blank' : Blank r) : Padded token (pad ++ (cs ++ r)) := by
  obtain ⟨before, inner, after, first, is, last, rfl⟩ := h
  exact ⟨pad ++ before, inner, after ++ r, blank.append first, is, last.append blank', by simp⟩

theorem padded_self {token : List Char → Prop} (is : token cs) : Padded token cs :=
  ⟨[], cs, [], nofun, is, nofun, by simp⟩

theorem quoted_self {k : List Char} (body : isBody k = true) : Quoted k ('"' :: (k ++ ['"'])) :=
  padded_self ⟨body, rfl⟩

namespace Form

theorem spells_str {b : List Char} (body : isBody b = true) :
    (str b).Spells ('"' :: (b ++ ['"'])) := quoted_self body

theorem spells_word {w : List Char} (word : IsWord w) : (Form.word w).Spells w :=
  padded_self ⟨word, rfl⟩

theorem Spells.padded {a : Form} (h : a.Spells cs) (blank : Blank pad) (blank' : Blank r) :
    a.Spells (pad ++ (cs ++ r)) := by
  match a with
  | .word _ | .str _ | .arr _ | .obj _ => exact Padded.padded h blank blank'

theorem SpellsItems.padded {items : List Form} (h : SpellsItems items cs) (blank : Blank pad) :
    SpellsItems items (pad ++ cs) := by
  match items with
  | [] => exact blank.append h
  | [x] =>
    have spells := Spells.padded (a := x) (r := []) h blank nofun
    rwa [List.append_nil] at spells
  | x :: y :: more =>
    obtain ⟨first, others, spells, each, rfl⟩ := spellsItems_cons_cons.mp h
    exact ⟨pad ++ (first ++ []), others, spells.padded blank nofun, each, by simp⟩

theorem SpellsFields.padded {fields : List (List Char × Form)} (h : SpellsFields fields cs)
    (blank : Blank pad) : SpellsFields fields (pad ++ cs) := by
  match fields with
  | [] => exact blank.append h
  | [(k, x)] =>
    obtain ⟨name, value, quoted, spells, rfl⟩ := h
    exact ⟨pad ++ (name ++ []), value, quoted.padded blank nofun, spells, by simp⟩
  | (k, x) :: f :: more =>
    obtain ⟨name, value, others, quoted, spells, each, rfl⟩ := spellsFields_cons_cons.mp h
    exact ⟨pad ++ (name ++ []), value, others, quoted.padded blank nofun, spells, each, by simp⟩

end Form

/-- What has been taken from a text for a value is what a form is spelled with. -/
def TakesForm (cs left : List Char) : Prop := ∃ a front, Form.Spells a front ∧ cs = front ++ left

theorem TakesForm.blank {left : List Char} (h : TakesForm cs left) (blank : Blank pad) :
    TakesForm (pad ++ cs) left := by
  obtain ⟨a, front, spells, rfl⟩ := h
  exact ⟨a, pad ++ (front ++ []), spells.padded blank nofun, by simp⟩

theorem takesForm_word {w : List Char} (word : IsWord w) (left : List Char) :
    TakesForm (w ++ left) left :=
  ⟨.word w, w, Form.spells_word word, rfl⟩

theorem takesForm_str {b : List Char} (body : isBody b = true) (left : List Char) :
    TakesForm ('"' :: (b ++ '"' :: left)) left :=
  ⟨.str b, _, Form.spells_str body, by simp⟩

theorem takesForm_arr {items : List Form} {inner : List Char}
    (spells : Form.SpellsItems items inner) (left : List Char) :
    TakesForm ('[' :: (inner ++ ']' :: left)) left :=
  ⟨.arr items, _, padded_self ⟨inner, spells, rfl⟩, by simp⟩

theorem takesForm_obj {fields : List (List Char × Form)} {inner : List Char}
    (spells : Form.SpellsFields fields inner) (left : List Char) :
    TakesForm ('\x7b' :: (inner ++ '\x7d' :: left)) left :=
  ⟨.obj fields, _, padded_self ⟨inner, spells, rfl⟩, by simp⟩

/-- What the three readers take from a text with some fuel. -/
structure TakesForms (fuel : Nat) : Prop where
  value : ∀ depth cs found, readValue fuel depth cs = some found → TakesForm cs found.2
  items : ∀ depth cs found, readItems fuel depth cs = some found →
    ∃ x more inner, Form.SpellsItems (x :: more) inner ∧ cs = inner ++ ']' :: found.2
  fields : ∀ depth cs found, readFields fuel depth cs = some found →
    ∃ f more inner, Form.SpellsFields (f :: more) inner ∧ cs = inner ++ '\x7d' :: found.2

theorem TakesForms.value_succ (h : TakesForms fuel) (depth : Nat) (cs : List Char)
    (found : Json × List Char) (read : readValue (fuel + 1) depth cs = some found) :
    TakesForm cs found.2 := by
  obtain ⟨pad, blank, whole⟩ := exists_blank cs
  rw [whole]
  refine TakesForm.blank ?_ blank
  rw [readValue] at read
  clear whole
  generalize skipSpace cs = token at read ⊢
  split at read
  · obtain ⟨⟨text, left⟩, string, rfl⟩ := Option.map_eq_some_iff.mp read
    obtain ⟨b, body, rfl⟩ := exists_body string
    exact takesForm_str body left
  · rename_i r
    obtain ⟨pad, blank, whole⟩ := exists_blank r
    rw [whole]
    split at read
    · cases read
    split at read
    · rename_i left same
      cases read
      rw [same]
      exact takesForm_arr (show Form.SpellsItems [] pad from blank) left
    · obtain ⟨⟨xs, left⟩, each, rfl⟩ := Option.map_eq_some_iff.mp read
      obtain ⟨x, more, inner, spells, same⟩ := h.items _ _ _ each
      rw [same, ← List.append_assoc]
      exact takesForm_arr (spells.padded blank) left
  · rename_i r
    obtain ⟨pad, blank, whole⟩ := exists_blank r
    rw [whole]
    split at read
    · cases read
    split at read
    · rename_i left same
      cases read
      rw [same]
      exact takesForm_obj (show Form.SpellsFields [] pad from blank) left
    · obtain ⟨⟨xs, left⟩, each, rfl⟩ := Option.map_eq_some_iff.mp read
      obtain ⟨f, more, inner, spells, same⟩ := h.fields _ _ _ each
      rw [same, ← List.append_assoc]
      exact takesForm_obj (spells.padded blank) left
  · cases read
    exact takesForm_word (w := "null".toList) (by decide) _
  · cases read
    exact takesForm_word (w := "true".toList) (by decide) _
  · cases read
    exact takesForm_word (w := "false".toList) (by decide) _
  · obtain ⟨w, word, rfl⟩ := Number.exists_word read
    exact takesForm_word word _

theorem TakesForms.items_succ (h : TakesForms fuel) (depth : Nat) (cs : List Char)
    (found : List Json × List Char) (read : readItems (fuel + 1) depth cs = some found) :
    ∃ x more inner, Form.SpellsItems (x :: more) inner ∧ cs = inner ++ ']' :: found.2 := by
  rw [readItems] at read
  split at read
  · cases read
  · rename_i v left first
    obtain ⟨x, front, spells, rfl⟩ := h.value _ _ _ first
    obtain ⟨pad, blank, whole⟩ := exists_blank left
    have spells := spells.padded blank_nil blank
    split at read
    · rename_i r same
      obtain ⟨⟨vs, r'⟩, each, rfl⟩ := Option.map_eq_some_iff.mp read
      obtain ⟨y, more, inner, others, rfl⟩ := h.items _ _ _ each
      refine ⟨x, y :: more, _, ⟨_, inner, spells, others, rfl⟩, ?_⟩
      rw [whole, same]
      simp
    · rename_i r same
      cases read
      refine ⟨x, [], _, spells, ?_⟩
      rw [whole, same]
      simp
    · cases read

theorem TakesForms.fields_succ (h : TakesForms fuel) (depth : Nat) (cs : List Char)
    (found : List (String × Json) × List Char)
    (read : readFields (fuel + 1) depth cs = some found) :
    ∃ f more inner, Form.SpellsFields (f :: more) inner ∧ cs = inner ++ '\x7d' :: found.2 := by
  obtain ⟨pad, blank, whole⟩ := exists_blank cs
  rw [readFields] at read
  split at read
  · rename_i r open'
    split at read
    · cases read
    · rename_i name r₁ string
      obtain ⟨b, body, rfl⟩ := exists_body string
      obtain ⟨pad₁, blank₁, whole₁⟩ := exists_blank r₁
      have quoted : Quoted b (pad ++ (('"' :: (b ++ ['"'])) ++ pad₁)) :=
        (quoted_self body).padded blank blank₁
      split at read
      · rename_i r₂ colon
        split at read
        · cases read
        · rename_i v r₃ value
          obtain ⟨x, front, spells, rfl⟩ := h.value _ _ _ value
          obtain ⟨pad₂, blank₂, whole₂⟩ := exists_blank r₃
          have spells := spells.padded blank_nil blank₂
          split at read
          · rename_i r₄ comma
            obtain ⟨⟨vs, r₅⟩, each, rfl⟩ := Option.map_eq_some_iff.mp read
            obtain ⟨f, more, inner, others, rfl⟩ := h.fields _ _ _ each
            refine ⟨(b, x), f :: more, _, ⟨_, _, inner, quoted, spells, others, rfl⟩, ?_⟩
            rw [whole, open', whole₁, colon, whole₂, comma]
            simp
          · rename_i r₄ close
            cases read
            refine ⟨(b, x), [], _, ⟨_, _, quoted, spells, rfl⟩, ?_⟩
            rw [whole, open', whole₁, colon, whole₂, close]
            simp
          · cases read
      · cases read
  · cases read

theorem takesForms (fuel : Nat) : TakesForms fuel := by
  induction fuel with
  | zero => exact ⟨nofun, nofun, nofun⟩
  | succ fuel ih => exact ⟨ih.value_succ, ih.items_succ, ih.fields_succ⟩

end Exists

/-- Every text that is read has a form. -/
theorem exists_spells {t : String} {v : Json} (h : parse t = some v) :
    ∃ a : Form, a.Spells t.toList := by
  rw [parse, parseChars] at h
  split at h
  · rename_i x left read
    split at h
    · rename_i nothing
      obtain ⟨a, front, spells, whole⟩ := (takesForms _).value _ _ _ read
      obtain ⟨pad, blank, same⟩ := exists_blank left
      rw [List.isEmpty_iff.mp nothing, List.append_nil] at same
      rw [whole, same]
      exact ⟨a, spells.padded blank_nil blank⟩
    · cases h
  · cases h

/-! ## Nesting -/

namespace Form

mutual

theorem nesting_of_value? (a : Form) {depth : Nat} {v : Json} (h : a.value? depth = some v)
    (some : 0 < depth) : v.nesting < depth := by
  match a with
  | .word w =>
    obtain ⟨found, read, rest⟩ := Option.bind_eq_some_iff.mp h
    split at rest
    · cases rest
      rwa [nesting_of_readValue read]
    · cases rest
  | .str b =>
    obtain ⟨cs, -, rfl⟩ := Option.map_eq_some_iff.mp h
    exact some
  | .arr items =>
    rw [value?] at h
    split at h
    · cases h
    · obtain ⟨vs, each, rfl⟩ := Option.map_eq_some_iff.mp h
      have within := nesting_of_values? items each (by omega)
      rw [nesting]
      omega
  | .obj fields =>
    rw [value?] at h
    split at h
    · cases h
    · obtain ⟨vs, each, rfl⟩ := Option.map_eq_some_iff.mp h
      have within := nesting_of_fields? fields each (by omega)
      rw [nesting]
      omega
termination_by structural a

theorem nesting_of_values? (items : List Form) {depth : Nat} {vs : List Json}
    (h : values? depth items = some vs) (some : 0 < depth) : nestingItems vs < depth := by
  match items with
  | [] =>
    cases h
    exact some
  | x :: rest =>
    obtain ⟨v, first, h⟩ := Option.bind_eq_some_iff.mp h
    obtain ⟨vs, others, rfl⟩ := Option.map_eq_some_iff.mp h
    exact Nat.max_lt.mpr ⟨nesting_of_value? x first some, nesting_of_values? rest others some⟩
termination_by structural items

theorem nesting_of_fields? (fields : List (List Char × Form)) {depth : Nat}
    {vs : List (String × Json)} (h : fields? depth fields = some vs) (some : 0 < depth) :
    nestingFields vs < depth := by
  match fields with
  | [] =>
    cases h
    exact some
  | (k, x) :: rest =>
    obtain ⟨name, -, h⟩ := Option.bind_eq_some_iff.mp h
    obtain ⟨v, first, h⟩ := Option.bind_eq_some_iff.mp h
    obtain ⟨vs, others, rfl⟩ := Option.map_eq_some_iff.mp h
    exact Nat.max_lt.mpr ⟨nesting_of_value? x first some, nesting_of_fields? rest others some⟩
termination_by structural fields

end

end Form

/-- A value that has been read is not nested too deep. -/
theorem nesting_of_parse {t : String} {v : Json} (h : parse t = some v) :
    v.nesting < depthLimit := by
  obtain ⟨a, spells⟩ := exists_spells h
  rw [parse_spelled spells] at h
  exact a.nesting_of_value? h (by decide)

end BoardDesign.Json
