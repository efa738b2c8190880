import BoardDesign.Proofs.Template.Directives
import Mathlib.Data.List.Induction

/-!
# Which texts are templates

The lines of a text open loops and close them. What is wrong with a text can be told from how many
loops its lines open and close, without any stack.

* `AreLines`: lines as they stand in a text (`areLines_keptLines`);
* `opened`, `closed`: how many loops some lines open and close;
* `offence?`: the error of a line after the lines before it;
* `StaysOpen`, `Innermost`: a loop that is open at the end, and the last one of these;
* `Fault`: the error of a text, of which there is one at most (`Fault.unique`);
* `parseLines_verdict`: what becomes of lines after others;
* `parse_verdict`: the texts that are templates, and the errors of all others.
-/

namespace BoardDesign.Text

/-- Each line ends with its only line end; the last one may have none. -/
def AreLines : List (List Char) → Prop
  | [] => True
  | line :: rest =>
    (∃ body, '\n' ∉ body ∧ (line = body ++ ['\n'] ∨ line = body ∧ body ≠ [] ∧ rest = [])) ∧
      AreLines rest

theorem areLines_keptLines (cs : List Char) : AreLines (keptLines cs) := by
  induction cs with
  | nil => trivial
  | cons c rest ih =>
    rw [keptLines]
    split
    · exact ⟨⟨[], by simp, .inl rfl⟩, ih⟩
    · rename_i other
      split
      · exact ⟨⟨[c], by simpa using Ne.symm other, .inr ⟨rfl, by simp, rfl⟩⟩, trivial⟩
      · rename_i line more parts
        rw [parts] at ih
        obtain ⟨⟨body, one, ends⟩, later⟩ := ih
        refine ⟨⟨c :: body, ?_, ?_⟩, later⟩
        · simpa using ⟨Ne.symm other, one⟩
        · rcases ends with rfl | ⟨rfl, -, last⟩
          · exact .inl rfl
          · exact .inr ⟨rfl, List.cons_ne_nil c line, last⟩

end BoardDesign.Text

namespace BoardDesign.Template

open Text

variable {before lines rest : List (List Char)} {line : List Char} {us : List Unclosed}
  {done : List Block} {number i j p q : Nat} {e e' : Error}

/-! ## Loops opened and closed -/

def opensLoop (line : List Char) : Bool :=
  match directive? line with
  | some (.repeatFor _ _) => true
  | _ => false

def closesLoop (line : List Char) : Bool := decide (directive? line = some .close)

/-- How many loops are opened. -/
def opened (lines : List (List Char)) : Nat := lines.countP opensLoop

/-- How many loops are closed. -/
def closed (lines : List (List Char)) : Nat := lines.countP closesLoop

@[simp] theorem opened_append (before lines : List (List Char)) :
    opened (before ++ lines) = opened before + opened lines := List.countP_append

@[simp] theorem closed_append (before lines : List (List Char)) :
    closed (before ++ lines) = closed before + closed lines := List.countP_append

theorem opened_cons (line : List Char) (rest : List (List Char)) :
    opened (line :: rest) = opened [line] + opened rest := opened_append [line] rest

theorem closed_cons (line : List Char) (rest : List (List Char)) :
    closed (line :: rest) = closed [line] + closed rest := closed_append [line] rest

theorem count_head (opens : opensLoop line = true) : opened [line] = 1 ∧ closed [line] = 0 := by
  have notClosing : closesLoop line = false := by
    rw [opensLoop] at opens
    split at opens
    · rename_i meant
      simp [closesLoop, meant]
    · cases opens
  simp [opened, closed, opens, notClosing]

theorem count_close (meant : directive? line = some .close) :
    opened [line] = 0 ∧ closed [line] = 1 := by
  simp [opened, closed, opensLoop, closesLoop, meant]

theorem count_text (meant : directive? line = none) : opened [line] = 0 ∧ closed [line] = 0 := by
  simp [opened, closed, opensLoop, closesLoop, meant]

/-! ## What can be wrong with a text -/

/-- The error of a line: its directive is neither the head of a loop nor the end of one, or it ends
a loop where none is open. Lines count from one in errors. -/
def offence? (lines : List (List Char)) (i : Nat) : Option Error :=
  match lines[i]?.bind directive? with
  | some (.other text) => some (.invalidDirective text (i + 1))
  | some .close =>
    if opened (lines.take i) ≤ closed (lines.take i) then some (.unexpectedEnd (i + 1)) else none
  | _ => none

/-- The line is the head of a loop, and the lines after it never close more loops than they open. -/
def StaysOpen (lines : List (List Char)) (i : Nat) : Prop :=
  (∃ line, lines[i]? = some line ∧ opensLoop line = true) ∧
    ∀ after, after <+: lines.drop (i + 1) → closed after ≤ opened after

/-- The last head of a loop that is open at the end. -/
def Innermost (lines : List (List Char)) (i : Nat) : Prop :=
  StaysOpen lines i ∧ ∀ j, i < j → ¬ StaysOpen lines j

/-- The first offending line decides; without one it is the innermost of the loops that are open at
the end. -/
inductive Fault (lines : List (List Char)) : Error → Prop
  | first {i : Nat} {e : Error} : offence? lines i = some e → (∀ j < i, offence? lines j = none) →
      Fault lines e
  | unclosed {i : Nat} : (∀ j, offence? lines j = none) → Innermost lines i →
      Fault lines (.unclosedLoop (i + 1))

theorem Fault.unique (h : Fault lines e) (h' : Fault lines e') : e = e' := by
  cases h with
  | @first i _ found earlier =>
    cases h' with
    | @first j _ found' earlier' =>
      rcases Nat.lt_trichotomy i j with less | rfl | more
      · cases found.symm.trans (earlier' i less)
      · exact Option.some.inj (found.symm.trans found')
      · cases found'.symm.trans (earlier j more)
    | unclosed none => cases found.symm.trans (none i)
  | @unclosed i none last =>
    cases h' with
    | @first j _ found' => cases found'.symm.trans (none j)
    | @unclosed j _ last' =>
      rcases Nat.lt_trichotomy i j with less | rfl | more
      · exact absurd last'.1 (last.2 j less)
      · rfl
      · exact absurd last.1 (last'.2 i more)

theorem offence?_at (before : List (List Char)) (line : List Char) (rest : List (List Char)) :
    offence? (before ++ line :: rest) before.length =
      match directive? line with
      | some (.other text) => some (.invalidDirective text (before.length + 1))
      | some .close =>
        if opened before ≤ closed before then some (.unexpectedEnd (before.length + 1)) else none
      | _ => none := by
  have here : (before ++ line :: rest)[before.length]? = some line := by simp
  rw [offence?, here, List.take_left, Option.bind_some]

theorem exists_around (found : lines[i]? = some line) :
    ∃ before rest, lines = before ++ line :: rest ∧ before.length = i := by
  obtain ⟨small, rfl⟩ := List.getElem?_eq_some_iff.mp found
  refine ⟨lines.take i, lines.drop (i + 1), ?_, List.length_take_of_le (Nat.le_of_lt small)⟩
  rw [List.getElem_cons_drop, List.take_append_drop]

/-- After lines that close no more loops than they open, a line is fine if its directive is the head
or the end of a loop, and that is so with it too. -/
theorem offence?_at_eq_none_iff (balance : closed before ≤ opened before) :
    offence? (before ++ line :: rest) before.length = none ↔
      (∀ text, directive? line ≠ some (.other text)) ∧
        closed (before ++ [line]) ≤ opened (before ++ [line]) := by
  rw [offence?_at, opened_append, closed_append]
  cases meant : directive? line with
  | none =>
    have counts := count_text meant
    exact iff_of_true rfl ⟨by simp, by omega⟩
  | some d =>
    cases d with
    | close =>
      have counts := count_close meant
      by_cases level : opened before ≤ closed before
      · exact iff_of_false (by simp [level]) fun fine => by omega
      · exact iff_of_true (if_neg level) ⟨by simp, by omega⟩
    | repeatFor var list =>
      have counts : opened [line] = 1 ∧ closed [line] = 0 := count_head (by simp [opensLoop, meant])
      exact iff_of_true rfl ⟨by simp, by omega⟩
    | other text => exact iff_of_false (by simp) fun fine => fine.1 text rfl

theorem closed_le_opened (none : ∀ i, offence? lines i = none) (start : before <+: lines) :
    closed before ≤ opened before := by
  induction before using List.reverseRecOn with
  | nil => exact Nat.le_refl _
  | append_singleton before line ih =>
    obtain ⟨rest, rfl⟩ := start
    rw [List.append_assoc, List.singleton_append] at none ih
    have balance := ih ⟨line :: rest, rfl⟩
    exact ((offence?_at_eq_none_iff balance).mp (none before.length)).2

/-- There is no offending line just where each directive is the head or the end of a loop and no
lines from the beginning close more loops than they open. -/
theorem offence?_eq_none_iff : (∀ i, offence? lines i = none) ↔
    (∀ line ∈ lines, ∀ text, directive? line ≠ some (.other text)) ∧
      ∀ before, before <+: lines → closed before ≤ opened before := by
  constructor
  · intro none
    refine ⟨fun line mem => ?_, fun before => closed_le_opened none⟩
    obtain ⟨before, rest, rfl⟩ := List.append_of_mem mem
    have balance := closed_le_opened none ⟨line :: rest, rfl⟩
    exact ((offence?_at_eq_none_iff balance).mp (none before.length)).1
  · rintro ⟨noOther, balanced⟩ i
    cases found : lines[i]? with
    | none => simp [offence?, found]
    | some line =>
      obtain ⟨before, rest, rfl, rfl⟩ := exists_around found
      exact (offence?_at_eq_none_iff (balanced before ⟨line :: rest, rfl⟩)).mpr
        ⟨noOther line (by simp), balanced _ ⟨rest, by simp⟩⟩

/-- A loop that is open at the end is one more than those that are closed. -/
theorem closed_lt_opened (balanced : ∀ before, before <+: lines → closed before ≤ opened before)
    (open' : StaysOpen lines i) : closed lines < opened lines := by
  obtain ⟨⟨line, found, opens⟩, later⟩ := open'
  obtain ⟨before, rest, rfl, rfl⟩ := exists_around found
  have counts := count_head opens
  have upTo := balanced before ⟨line :: rest, rfl⟩
  have after := later rest (by simp)
  rw [opened_append, closed_append, opened_cons, closed_cons]
  omega

theorem not_fault (none : ∀ i, offence? lines i = none) (even : opened lines = closed lines) :
    ¬ Fault lines e := by
  rintro (⟨found, -⟩ | ⟨-, last⟩)
  · cases found.symm.trans (none _)
  · have := closed_lt_opened (offence?_eq_none_iff.mp none).2 last.1
    omega

theorem fault_iff : Fault lines e ↔
    (∃ i, offence? lines i = some e ∧ ∀ j < i, offence? lines j = none) ∨
      (∀ j, offence? lines j = none) ∧ ∃ i, Innermost lines i ∧ e = .unclosedLoop (i + 1) := by
  constructor
  · rintro (⟨found, earlier⟩ | ⟨none, last⟩)
    · exact .inl ⟨_, found, earlier⟩
    · exact .inr ⟨none, _, last, rfl⟩
  · rintro (⟨i, found, earlier⟩ | ⟨none, i, last, rfl⟩)
    · exact .first found earlier
    · exact .unclosed none last

/-! ## Lines after others -/

/-- A loop is open after some lines, and so many others within it. -/
def OpenAt (lines : List (List Char)) (number p : Nat) : Prop :=
  ∃ i, number = i + 1 ∧ StaysOpen lines i ∧
    opened (lines.drop (i + 1)) = closed (lines.drop (i + 1)) + p

theorem OpenAt.next (h : OpenAt before number p)
    (balance : p + opened [line] = q + closed [line]) : OpenAt (before ++ [line]) number q := by
  obtain ⟨i, rfl, ⟨⟨head, found, opens⟩, later⟩, depth⟩ := h
  have small : i < before.length := (List.getElem?_eq_some_iff.mp found).1
  have drop : (before ++ [line]).drop (i + 1) = before.drop (i + 1) ++ [line] :=
    List.drop_append_of_le_length small
  refine ⟨i, rfl, ⟨⟨head, (List.getElem?_append_left small).trans found, opens⟩, ?_⟩, ?_⟩
  · intro after start
    rw [drop, List.prefix_concat_iff] at start
    rcases start with rfl | start
    · rw [opened_append, closed_append]
      omega
    · exact later after start
  · rw [drop, opened_append, closed_append]
    omega

theorem openAt_self (opens : opensLoop line = true) :
    OpenAt (before ++ [line]) (before.length + 1) 0 := by
  have drop : (before ++ [line]).drop (before.length + 1) = [] := by simp
  refine ⟨before.length, rfl, ⟨⟨line, by simp, opens⟩, fun after start => ?_⟩, ?_⟩
  · rw [drop, List.prefix_nil] at start
    exact start ▸ Nat.le_refl _
  · rw [drop]
    rfl

/-- The innermost open loop has no others within it that are open. -/
theorem OpenAt.innermost (h : OpenAt lines number 0) : ∃ i, number = i + 1 ∧ Innermost lines i := by
  obtain ⟨i, rfl, open', depth⟩ := h
  refine ⟨i, rfl, open', fun j less inner => ?_⟩
  obtain ⟨k, rfl⟩ := Nat.exists_eq_add_of_lt less
  have within : StaysOpen (lines.drop (i + 1)) k := by
    obtain ⟨⟨line, found, opens⟩, later⟩ := inner
    refine ⟨⟨line, ?_, opens⟩, ?_⟩
    · rw [List.getElem?_drop, ← found]
      congr 1
      omega
    · rw [List.drop_drop]
      rwa [show i + 1 + (k + 1) = i + k + 1 + 1 by omega]
  have := closed_lt_opened open'.2 within
  omega

theorem map_number_place (b : Block) (done : List Block) (us : List Unclosed) :
    (place b done us).2.map (·.number) = us.map (·.number) := by
  cases us <;> rfl

/-- The open loops of the parser are those that the lines before have opened and not closed. -/
structure Tracks (before : List (List Char)) (us : List Unclosed) : Prop where
  count : opened before = closed before + us.length
  open' : ∀ p n, (us.map (·.number))[p]? = some n → OpenAt before n p

namespace Tracks

theorem balance (h : Tracks before us) : closed before ≤ opened before :=
  h.count ▸ Nat.le_add_right _ _

theorem text (h : Tracks before us) (meant : directive? line = none) (b : Block) :
    Tracks (before ++ [line]) (place b done us).2 := by
  obtain ⟨noHead, noClose⟩ := count_text meant
  refine ⟨?_, fun p n found => ?_⟩
  · rw [opened_append, closed_append, noHead, noClose, length_place]
    exact h.count
  · rw [map_number_place] at found
    exact (h.open' p n found).next (by rw [noHead, noClose])

theorem head (h : Tracks before us) (opens : opensLoop line = true) {u : Unclosed}
    (numbered : u.number = before.length + 1) : Tracks (before ++ [line]) (u :: us) := by
  obtain ⟨one, noClose⟩ := count_head opens
  refine ⟨?_, fun p n found => ?_⟩
  · rw [opened_append, closed_append, one, noClose, h.count, List.length_cons]
    omega
  · cases p with
    | zero =>
      obtain rfl : u.number = n := by simpa using found
      rw [numbered]
      exact openAt_self opens
    | succ p => exact (h.open' p n (by simpa using found)).next (by rw [one, noClose])

theorem close {u : Unclosed} (h : Tracks before (u :: us)) (meant : directive? line = some .close)
    (b : Block) : Tracks (before ++ [line]) (place b done us).2 := by
  obtain ⟨noHead, one⟩ := count_close meant
  refine ⟨?_, fun p n found => ?_⟩
  · rw [opened_append, closed_append, noHead, one, length_place, h.count, List.length_cons]
    omega
  · rw [map_number_place] at found
    exact (h.open' (p + 1) n (by simpa using found)).next (by rw [noHead, one])

end Tracks

/-- What lines after others are parsed to. -/
def Verdict (lines : List (List Char)) : Except Error (List Block) → Prop
  | .ok _ => (∀ i, offence? lines i = none) ∧ opened lines = closed lines
  | .error e => Fault lines e

/-- At the end the loops that are open are told from the innermost one. -/
theorem parseLines_verdict_nil (tracks : Tracks before us) (none : ∀ i, offence? before i = none) :
    Verdict before (parseLines done us number []) := by
  cases us with
  | nil => exact ⟨none, tracks.count⟩
  | cons u outer =>
    obtain ⟨i, same, last⟩ := (tracks.open' 0 u.number rfl).innermost
    rw [parseLines, same]
    exact .unclosed none last

theorem parseLines_verdict (tracks : Tracks before us) (numbered : number = before.length + 1)
    (clean : ∀ i < before.length, offence? (before ++ lines) i = none) :
    Verdict (before ++ lines) (parseLines done us number lines) := by
  induction lines generalizing before done us number with
  | nil =>
    rw [List.append_nil] at clean ⊢
    refine parseLines_verdict_nil tracks fun i => ?_
    by_cases small : i < before.length
    · exact clean i small
    · simp [offence?, List.getElem?_eq_none (Nat.not_lt.mp small)]
  | cons line rest ih =>
    have at_line := offence?_at before line rest
    have first (e : Error) (found : offence? (before ++ line :: rest) before.length = some e) :
        Fault (before ++ line :: rest) e := .first found clean
    -- A line that is fine is one more of the lines before.
    have goOn {done : List Block} {us : List Unclosed} (tracks' : Tracks (before ++ [line]) us)
        (noOther : ∀ text, directive? line ≠ some (.other text)) :
        Verdict (before ++ line :: rest) (parseLines done us (number + 1) rest) := by
      have fine : offence? (before ++ line :: rest) before.length = none :=
        (offence?_at_eq_none_iff tracks.balance).mpr ⟨noOther, tracks'.balance⟩
      have whole : before ++ line :: rest = (before ++ [line]) ++ rest := by simp
      rw [whole]
      refine ih tracks' (by rw [numbered, List.length_append]; rfl) fun i small => ?_
      rw [← whole]
      rw [List.length_append, List.length_singleton] at small
      rcases Nat.lt_succ_iff_lt_or_eq.mp small with less | rfl
      · exact clean i less
      · exact fine
    cases meant : directive? line with
    | none =>
      simp only [parseLines, meant]
      exact goOn (tracks.text meant _) (by simp [meant])
    | some d =>
      simp only [meant] at at_line
      cases d with
      | close =>
        cases us with
        | nil =>
          simp only [parseLines, meant]
          have noneOpen : opened before ≤ closed before := Nat.le_of_eq tracks.count
          rw [if_pos noneOpen] at at_line
          exact numbered ▸ first _ at_line
        | cons u outer =>
          simp only [parseLines, meant]
          exact goOn (tracks.close meant _) (by simp [meant])
      | repeatFor var list =>
        simp only [parseLines, meant]
        exact goOn (tracks.head (by simp [opensLoop, meant]) numbered) (by simp [meant])
      | other text =>
        simp only [parseLines, meant]
        exact numbered ▸ first _ at_line

theorem verdict_parse (text : List Char) : Verdict (keptLines text) (parse text) :=
  have tracks : Tracks [] [] := ⟨rfl, by simp⟩
  parseLines_verdict tracks rfl (fun _ before => absurd before (Nat.not_lt_zero _))

/-! ## Templates -/

/-- The lines of a text are those between its line ends. A directive stands on the lines whose
first characters but for white space are `//!`; it is the head of a loop, the end of one, or some
other. A text is a template just if there is no other directive, no lines from the beginning close
more loops than they open, and in all as many are closed as are opened. Each other text has one
error: that of its first offending line, which has another directive or closes a loop when all
before it are closed; and without such a line that of the innermost loop that is open at the end,
with the number of its head. -/
theorem parse_verdict (text : List Char) :
    ((keptLines text).flatten = text ∧ AreLines (keptLines text)) ∧
    (∀ line d, directive? line = some d ↔ ∃ said, Directs line said ∧ d.Written said) ∧
    ((∃ blocks, parse text = .ok blocks) ↔
      (∀ line ∈ keptLines text, ∀ said, directive? line ≠ some (.other said)) ∧
        (∀ before, before <+: keptLines text → closed before ≤ opened before) ∧
        opened (keptLines text) = closed (keptLines text)) ∧
    ∀ e, parse text = .error e ↔
      (∃ i, offence? (keptLines text) i = some e ∧ ∀ j < i, offence? (keptLines text) j = none) ∨
        (∀ j, offence? (keptLines text) j = none) ∧
          ∃ i, Innermost (keptLines text) i ∧ e = .unclosedLoop (i + 1) := by
  have verdict := verdict_parse text
  refine ⟨⟨joinLines_keptLines text, areLines_keptLines text⟩, fun _ _ => directive?_eq_some_iff,
    ?_, fun e => ?_⟩
  · rw [← and_assoc, ← offence?_eq_none_iff]
    constructor
    · rintro ⟨blocks, parsed⟩
      rwa [parsed] at verdict
    · rintro ⟨none, even⟩
      cases parsed : parse text with
      | ok blocks => exact ⟨blocks, rfl⟩
      | error e =>
        rw [parsed] at verdict
        exact absurd verdict (not_fault none even)
  · rw [← fault_iff]
    constructor
    · intro failed
      rwa [failed] at verdict
    · intro fault
      cases parsed : parse text with
      | ok blocks =>
        rw [parsed] at verdict
        exact absurd fault (not_fault verdict.1 verdict.2)
      | error e' =>
        rw [parsed] at verdict
        rw [verdict.unique fault]

end BoardDesign.Template
