import BoardDesign.Text.Blank
/-!
Texts as lists of characters: pieces between separators, lines, search and replacement.

`joinPieces_pieces` says that the pieces of a text, with the separator between them, are the
text; `joinLines_keptLines` says the same of lines that keep their line ends.
-/

namespace BoardDesign.Text

/-- The pieces of a text between the occurrences of a separator; there is always one. -/
def pieces (sep : Char) : List Char → List (List Char)
  | [] => [[]]
  | c :: rest =>
    if c = sep then [] :: pieces sep rest
    else
      match pieces sep rest with
      | [] => [[c]]
      | p :: ps => (c :: p) :: ps

/-- Pieces written one after the other with a separator between each two. -/
def joinPieces (sep : Char) : List (List Char) → List Char
  | [] => []
  | [p] => p
  | p :: q :: ps => p ++ sep :: joinPieces sep (q :: ps)

theorem pieces_ne_nil (sep : Char) (cs : List Char) : pieces sep cs ≠ [] := by
  cases cs with
  | nil => simp [pieces]
  | cons c rest =>
    simp only [pieces]
    split
    · simp
    · split <;> simp

theorem joinPieces_pieces (sep : Char) (cs : List Char) :
    joinPieces sep (pieces sep cs) = cs := by
  induction cs with
  | nil => rfl
  | cons c rest ih =>
    simp only [pieces]
    split
    · rename_i h
      subst h
      cases hp : pieces c rest with
      | nil => exact absurd hp (pieces_ne_nil c rest)
      | cons p ps => rw [hp] at ih; simp [joinPieces, ih]
    · cases hp : pieces sep rest with
      | nil => exact absurd hp (pieces_ne_nil sep rest)
      | cons p ps =>
        rw [hp] at ih
        cases ps with
        | nil => simp_all [joinPieces]
        | cons q qs => simp only [joinPieces, List.cons_append] at ih ⊢; rw [ih]

/-- The lines of a text, each with its line end if it has one. -/
def keptLines : List Char → List (List Char)
  | [] => []
  | c :: rest =>
    if c = '\n' then ['\n'] :: keptLines rest
    else
      match keptLines rest with
      | [] => [[c]]
      | l :: ls => (c :: l) :: ls

theorem joinLines_keptLines (cs : List Char) : (keptLines cs).flatten = cs := by
  induction cs with
  | nil => rfl
  | cons c rest ih =>
    simp only [keptLines]
    split
    · rename_i h; simp [h, ih]
    · split
      · rename_i h; rw [h] at ih; simp [← ih]
      · rename_i h; rw [h] at ih; simp [← ih]

/-- A line without its line end, which is a line feed or a carriage return and a line feed. -/
def dropLineEnd (line : List Char) : List Char :=
  match line.reverse with
  | '\n' :: '\r' :: body => body.reverse
  | '\n' :: body => body.reverse
  | _ => line

/-- The lines of a text without their line ends. -/
def lines (cs : List Char) : List (List Char) := (keptLines cs).map dropLineEnd

/-- The rest of a text after a given beginning. -/
def after : List Char → List Char → Option (List Char)
  | [], cs => some cs
  | _ :: _, [] => none
  | p :: ps, c :: cs => if p = c then after ps cs else none

def startsWith (start cs : List Char) : Bool := (after start cs).isSome

theorem after_eq_some_iff {start cs rest : List Char} :
    after start cs = some rest ↔ cs = start ++ rest := by
  induction start generalizing cs with
  | nil => simp [after, eq_comm]
  | cons p ps ih =>
    cases cs with
    | nil => simp [after]
    | cons c cs =>
      by_cases h : p = c
      · subst h; simp [after, ih]
      · simp [after, h, Ne.symm h]

/-- The text before the first occurrence of a part, and the text after it. -/
def cut (part : List Char) : List Char → Option (List Char × List Char)
  | [] => (after part []).map fun rest => ([], rest)
  | c :: cs =>
    match after part (c :: cs) with
    | some rest => some ([], rest)
    | none => (cut part cs).map fun r => (c :: r.1, r.2)

def occurs (part cs : List Char) : Bool := (cut part cs).isSome

theorem eq_of_cut {part cs before rest : List Char} (h : cut part cs = some (before, rest)) :
    cs = before ++ part ++ rest := by
  induction cs generalizing before with
  | nil =>
    simp only [cut, Option.map_eq_some_iff, Prod.mk.injEq] at h
    obtain ⟨r, hr, rfl, rfl⟩ := h
    simpa using after_eq_some_iff.1 hr
  | cons c cs ih =>
    simp only [cut] at h
    split at h
    · rename_i r hr
      simp only [Option.some.injEq, Prod.mk.injEq] at h
      obtain ⟨rfl, rfl⟩ := h
      simpa using after_eq_some_iff.1 hr
    · simp only [Option.map_eq_some_iff, Prod.mk.injEq] at h
      obtain ⟨r, hr, rfl, rfl⟩ := h
      simp only [List.cons_append]
      exact congrArg (c :: ·) (@ih r.1 (by rw [hr]))

/-- Every occurrence of a non-empty part replaced, from the left. -/
def replaceAll (part new : List Char) (cs : List Char) : List Char :=
  go cs.length cs
where
  go : Nat → List Char → List Char
    | 0, cs => cs
    | n + 1, cs =>
      match cut part cs with
      | some (before, rest) => before ++ new ++ go n rest
      | none => cs

/-- Texts written one after the other with a separator between each two. -/
def joinWith (sep : String) : List String → String
  | [] => ""
  | [s] => s
  | s :: t :: rest => s ++ sep ++ joinWith sep (t :: rest)

/-- What a message says of a text that does not have the form it should have. -/
def unreadable : String := "not in the expected form"

def isDigit (c : Char) : Bool := '0' ≤ c && c ≤ '9'

def digitValue (c : Char) : Nat := c.toNat - '0'.toNat

/-- The number that a list of decimal digits writes. -/
def decimalValue (ds : List Char) : Nat := ds.foldl (fun n c => n * 10 + digitValue c) 0

def isLetter (c : Char) : Bool := ('a' ≤ c && c ≤ 'z') || ('A' ≤ c && c ≤ 'Z')

/-- The lower-case form of one of the 26 letters; every other character is itself. -/
def lowerLetter (c : Char) : Char :=
  if 'A' ≤ c && c ≤ 'Z' then Char.ofNat (c.toNat + 32) else c

/-- The upper-case form of one of the 26 letters; every other character is itself. -/
def upperLetter (c : Char) : Char :=
  if 'a' ≤ c && c ≤ 'z' then Char.ofNat (c.toNat - 32) else c

end BoardDesign.Text
