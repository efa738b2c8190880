import BoardDesign.Text.Basic
import Mathlib.Data.List.Basic
import Mathlib.Data.List.TakeWhile

/-!
# Pieces of texts, and white space at their ends

* `not_mem_of_mem_pieces`: no piece has the separator in it;
* `pieces_append`: a text without the separator at the end of another one lengthens its last
  piece;
* `pieces_prepend`: one at the beginning lengthens its first piece;
* `Blanks`, `IsGap`: white space, and white space of which there is some; `trim_append`: it is taken
  from the ends of a text, and nothing else is;
* `trim_eq_nil_iff`: the texts of which nothing is left.
-/

namespace BoardDesign.Text

/-! ## Pieces -/

section Pieces

variable {sep : Char}

theorem not_mem_of_mem_pieces {cs p : List Char} (mem : p ∈ pieces sep cs) : sep ∉ p := by
  induction cs generalizing p with
  | nil => simp [List.mem_singleton.mp mem]
  | cons c rest ih =>
    rw [pieces] at mem
    split at mem
    · rcases List.mem_cons.mp mem with rfl | mem
      · simp
      · exact ih mem
    · rename_i other
      cases parts : pieces sep rest with
      | nil => exact absurd parts (pieces_ne_nil sep rest)
      | cons q qs =>
        rw [parts] at mem ih
        rcases List.mem_cons.mp mem with rfl | mem
        · exact List.not_mem_cons_of_ne_of_not_mem (Ne.symm other) (ih (.head qs))
        · exact ih (.tail q mem)

theorem pieces_of_not_mem {cs : List Char} (h : sep ∉ cs) : pieces sep cs = [cs] := by
  induction cs with
  | nil => rfl
  | cons c rest ih =>
    have other : c ≠ sep := fun same => h (same ▸ .head rest)
    rw [pieces, if_neg other, ih fun mem => h (.tail c mem)]

theorem pieces_append (a : List Char) {b : List Char} (h : sep ∉ b) :
    ∃ before last, pieces sep a = before ++ [last] ∧
      pieces sep (a ++ b) = before ++ [last ++ b] := by
  induction a with
  | nil => exact ⟨[], [], rfl, pieces_of_not_mem h⟩
  | cons c rest ih =>
    obtain ⟨before, last, parts, parts'⟩ := ih
    rw [List.cons_append, pieces, pieces, parts, parts']
    by_cases same : c = sep
    · exact ⟨[] :: before, last, by simp [same], by simp [same]⟩
    · cases before with
      | nil => exact ⟨[], c :: last, by simp [same], by simp [same]⟩
      | cons p ps => exact ⟨(c :: p) :: ps, last, by simp [same], by simp [same]⟩

/-- A text without the separator before another one lengthens its first piece. -/
theorem pieces_prepend {a : List Char} (h : sep ∉ a) (b : List Char) :
    ∃ first rest, pieces sep b = first :: rest ∧ pieces sep (a ++ b) = (a ++ first) :: rest := by
  induction a with
  | nil =>
    obtain ⟨first, rest, parts⟩ := List.exists_cons_of_ne_nil (pieces_ne_nil sep b)
    exact ⟨first, rest, parts, parts⟩
  | cons c a ih =>
    obtain ⟨other, h⟩ := not_or.mp (List.mem_cons.not.mp h)
    obtain ⟨first, rest, parts, parts'⟩ := ih h
    exact ⟨first, rest, parts, by simp [pieces, parts', Ne.symm other]⟩

/-- After a separator a new piece begins. -/
theorem pieces_append_sep (a b : List Char) :
    pieces sep (a ++ sep :: b) = pieces sep a ++ pieces sep b := by
  induction a with
  | nil => simp [pieces]
  | cons c rest ih =>
    rw [List.cons_append, pieces, pieces, ih]
    by_cases same : c = sep
    · simp [same]
    · cases parts : pieces sep rest with
      | nil => exact absurd parts (pieces_ne_nil sep rest)
      | cons p ps => simp [same]

theorem last_eq_nil_of_ends {a : List Char} {before : List (List Char)} {last : List Char}
    (ends : a = [] ∨ a.getLast? = some sep) (parts : pieces sep a = before ++ [last]) :
    last = [] := by
  rcases ends with rfl | ends
  · have whole : before ++ [last] = [] ++ [[]] := parts.symm
    exact List.singleton_injective (List.append_inj' whole rfl).2
  · obtain ⟨init, rfl⟩ := List.getLast?_eq_some_iff.mp ends
    rw [pieces_append_sep, pieces] at parts
    exact (List.singleton_injective (List.append_inj' parts rfl).2).symm

end Pieces

/-! ## White space -/

variable {a b cs rest gap : List Char}

/-- Nothing but white space. -/
def Blanks (cs : List Char) : Prop := ∀ c ∈ cs, isBlank c = true

def IsGap (cs : List Char) : Prop := cs ≠ [] ∧ Blanks cs

/-- A text does not begin with white space. -/
def StartsVisible (cs : List Char) : Prop := ∀ c, cs.head? = some c → isBlank c = false

theorem trimStart_append (blank : Blanks a) (cs : List Char) :
    trimStart (a ++ cs) = trimStart cs :=
  List.dropWhile_append_of_pos blank

theorem trimStart_of_startsVisible (visible : StartsVisible cs) : trimStart cs = cs := by
  cases cs with
  | nil => rfl
  | cons c cs => exact List.dropWhile_cons_of_neg (by simp [visible c rfl])

theorem startsVisible_trimStart (cs : List Char) : StartsVisible (trimStart cs) := by
  intro c first
  by_contra blank
  have stops := List.head?_dropWhile_not isBlank cs
  rw [show cs.dropWhile isBlank = trimStart cs from rfl, first] at stops
  simp_all

theorem exists_blanks_trimStart (cs : List Char) : ∃ a, Blanks a ∧ cs = a ++ trimStart cs :=
  ⟨cs.takeWhile isBlank, fun _ mem => List.mem_takeWhile_imp mem,
    List.takeWhile_append_dropWhile.symm⟩

/-- A text does not end with white space. -/
def EndsVisible (cs : List Char) : Prop := ∀ c, cs.getLast? = some c → isBlank c = false

theorem trimEnd_eq (cs : List Char) : trimEnd cs = (trimStart cs.reverse).reverse := rfl

theorem trimEnd_append (blank : Blanks b) (visible : EndsVisible cs) : trimEnd (cs ++ b) = cs := by
  have turned : Blanks b.reverse := fun c mem => blank c (List.mem_reverse.mp mem)
  have first : StartsVisible cs.reverse := fun c first =>
    visible c (List.head?_reverse ▸ first)
  rw [trimEnd_eq, List.reverse_append, trimStart_append turned, trimStart_of_startsVisible first,
    List.reverse_reverse]

/-- White space is taken from the ends of a text, and nothing else. -/
theorem trim_append (blank : Blanks a) (blank' : Blanks b) (starts : StartsVisible cs)
    (ends : EndsVisible cs) : trim (a ++ cs ++ b) = cs := by
  cases cs with
  | nil =>
    have all : Blanks (a ++ [] ++ b) := by
      rw [List.append_nil]
      exact fun c mem => (List.mem_append.mp mem).elim (blank c) (blank' c)
    have nothing : trimStart (a ++ [] ++ b ++ []) = [] := trimStart_append all []
    rw [List.append_nil] at nothing
    rw [trim, nothing]
    rfl
  | cons c more =>
    have still : StartsVisible (c :: more ++ b) := fun d first => starts d first
    rw [trim, List.append_assoc, trimStart_append blank, trimStart_of_startsVisible still,
      trimEnd_append blank' ends]

theorem exists_blanks_trim (cs : List Char) :
    ∃ a b, Blanks a ∧ Blanks b ∧ cs = a ++ trim cs ++ b := by
  obtain ⟨a, blank, whole⟩ := exists_blanks_trimStart cs
  obtain ⟨b, blank', turned⟩ := exists_blanks_trimStart (trimStart cs).reverse
  have back := congrArg List.reverse turned
  rw [List.reverse_reverse, List.reverse_append, ← trimEnd_eq] at back
  refine ⟨a, b.reverse, blank, fun c mem => blank' c (List.mem_reverse.mp mem), ?_⟩
  rw [trim, List.append_assoc, ← back, ← whole]

/-- Nothing is left of a text just if it is nothing but white space. -/
theorem trim_eq_nil_iff : trim cs = [] ↔ allBlank cs = true := by
  rw [allBlank, List.all_eq_true]
  constructor
  · intro nothing
    obtain ⟨a, b, blank, blank', whole⟩ := exists_blanks_trim cs
    rw [nothing, List.append_nil] at whole
    rw [whole]
    exact fun c mem => (List.mem_append.mp mem).elim (blank c) (blank' c)
  · intro blank
    have nothing : trimStart cs = [] := List.dropWhile_eq_nil_iff.mpr blank
    rw [trim, nothing]
    rfl

end BoardDesign.Text
