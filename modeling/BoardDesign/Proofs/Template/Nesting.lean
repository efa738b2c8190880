import BoardDesign.Template.Render

/-!
# Templates within templates

The lines of a template that stands below other lines have higher numbers. Nothing else changes.

* `Error.shift`, `Block.shift`: numbers of lines raised;
* `parseLines_shift`, `renderBlocks_shift`: the blocks of lines with higher numbers, and what
  becomes of them;
* `Whole`: a text that ends with its last line;
* `Balanced`: all loops of a text are closed in it, and nothing else is;
* `parse_ok_iff`: just such texts can be parsed;
* `parseLines_within`: the lines of a balanced text are parsed in an open loop as they are alone;
* `parse_append`, `parse_loop`: a template after another, and in a loop.
-/

namespace BoardDesign.Template

variable {α β : Type} {k : Nat} {ctx : Context} {scope : List (String × String)}

namespace Error

/-- The same error some lines further down. -/
def shift (k : Nat) : Error → Error
  | .unknownList list line => .unknownList list (line + k)
  | .unknownVariable name line => .unknownVariable name (line + k)
  | .invalidExpression text line => .invalidExpression text (line + k)
  | .invalidDirective text line => .invalidDirective text (line + k)
  | .unclosedLoop line => .unclosedLoop (line + k)
  | .unexpectedEnd line => .unexpectedEnd (line + k)

end Error

mutual

/-- The same block some lines further down. -/
def Block.shift (k : Nat) (b : Block) : Block :=
  match b with
  | .line text number => .line text (number + k)
  | .loop var list number body => .loop var list (number + k) (shiftAll k body)
termination_by structural b

def shiftAll (k : Nat) (bs : List Block) : List Block :=
  match bs with
  | [] => []
  | b :: rest => b.shift k :: shiftAll k rest
termination_by structural bs

end

@[simp] theorem shiftAll_append (k : Nat) (bs cs : List Block) :
    shiftAll k (bs ++ cs) = shiftAll k bs ++ shiftAll k cs := by
  induction bs with
  | nil => rfl
  | cons b rest ih => rw [List.cons_append, shiftAll, shiftAll, ih, List.cons_append]

def Unclosed.shift (k : Nat) (u : Unclosed) : Unclosed :=
  ⟨u.var, u.list, u.number + k, shiftAll k u.body⟩

/-! ## Parsing -/

theorem place_shift (b : Block) (done : List Block) (us : List Unclosed) :
    place (b.shift k) (shiftAll k done) (us.map (.shift k)) =
      (shiftAll k (place b done us).1, (place b done us).2.map (.shift k)) := by
  cases us with
  | nil => simp [place, shiftAll]
  | cons u outer => simp [place, shiftAll, Unclosed.shift]

theorem parseLines_shift (k : Nat) (done : List Block) (us : List Unclosed) (number : Nat)
    (lines : List (List Char)) :
    parseLines (shiftAll k done) (us.map (.shift k)) (number + k) lines =
      ((parseLines done us number lines).map (shiftAll k)).mapError (.shift k) := by
  induction lines generalizing done us number with
  | nil => cases us <;> rfl
  | cons line rest ih =>
    have next : number + k + 1 = number + 1 + k := by omega
    cases meant : directive? line with
    | none =>
      have placed := place_shift (k := k) (.line line number) done us
      rw [Block.shift] at placed
      simp only [parseLines, meant, placed, next]
      exact ih ..
    | some directive =>
      cases directive with
      | close =>
        cases us with
        | nil => simp only [parseLines, meant]; rfl
        | cons u outer =>
          have placed := place_shift (k := k) (.loop u.var u.list u.number u.body) done outer
          rw [Block.shift] at placed
          simp only [parseLines, meant, List.map_cons, Unclosed.shift, next]
          rw [placed]
          exact ih ..
      | repeatFor var list =>
        simp only [parseLines, meant, next]
        exact ih done (⟨var, list, number, []⟩ :: us) (number + 1)
      | other text => simp only [parseLines, meant]; rfl

/-! ## Rendering -/

theorem evaluate_shift (k number : Nat) (cs : List Char) :
    evaluate ctx scope (number + k) cs =
      (evaluate ctx scope number cs).mapError (.shift k) := by
  unfold evaluate
  cases expression? cs with
  | none => rfl
  | some e =>
    dsimp only
    cases findEntry e.1 scope <|> ctx.vars.get? e.1 <;> rfl

theorem renderLine_shift (k number fuel : Nat) (cs : List Char) :
    renderLine ctx scope (number + k) fuel cs =
      (renderLine ctx scope number fuel cs).mapError (.shift k) := by
  induction fuel generalizing cs with
  | zero => rfl
  | succ fuel ih =>
    unfold renderLine
    cases placeholder? cs with
    | none => rfl
    | some found =>
      obtain ⟨before, inner, rest⟩ := found
      simp only [evaluate_shift, ih]
      cases evaluate ctx scope number inner with
      | error e => rfl
      | ok value => cases renderLine ctx scope number fuel rest <;> rfl

theorem mapM_mapError {f : α → Except Error β} (g : Error → Error) (xs : List α) :
    (xs.mapM fun x => (f x).mapError g) = (xs.mapM f).mapError g := by
  induction xs with
  | nil => rfl
  | cons x rest ih =>
    rw [List.mapM_cons, List.mapM_cons, ih]
    cases f x with
    | error e => rfl
    | ok y => cases rest.mapM f <;> rfl

mutual

theorem renderBlock_shift (k : Nat) (scope : List (String × String)) (b : Block) :
    renderBlock ctx scope (b.shift k) = (renderBlock ctx scope b).mapError (.shift k) := by
  cases b with
  | line text number => exact renderLine_shift k number text.length text
  | loop var list number body =>
    rw [Block.shift, renderBlock, renderBlock]
    cases ctx.lists.get? list with
    | none => rfl
    | some items =>
      simp only [renderBlocks_shift k _ body, mapM_mapError]
      cases items.mapM fun item => renderBlocks ctx ((var, item) :: scope) body <;> rfl
termination_by structural b

theorem renderBlocks_shift (k : Nat) (scope : List (String × String)) (bs : List Block) :
    renderBlocks ctx scope (shiftAll k bs) = (renderBlocks ctx scope bs).mapError (.shift k) := by
  cases bs with
  | nil => rfl
  | cons b rest =>
    rw [shiftAll, renderBlocks, renderBlocks, renderBlock_shift k scope b,
      renderBlocks_shift k scope rest]
    cases renderBlock ctx scope b with
    | error e => rfl
    | ok first => cases renderBlocks ctx scope rest <;> rfl
termination_by structural bs

end

end BoardDesign.Template

namespace BoardDesign.Text

variable {cs ds line : List Char}

/-- A text that is empty or ends with a line end. -/
def Whole (cs : List Char) : Prop := cs = [] ∨ ∃ body, cs = body ++ ['\n']

theorem Whole.of_cons {c : Char} (h : Whole (c :: cs)) : Whole cs ∧ (cs = [] → c = '\n') := by
  obtain ⟨body, ends⟩ := h.resolve_left (List.cons_ne_nil c cs)
  cases body with
  | nil =>
    cases ends
    exact ⟨.inl rfl, fun _ => rfl⟩
  | cons d body =>
    cases ends
    exact ⟨.inr ⟨body, rfl⟩, fun none => by simp at none⟩

theorem keptLines_append (h : Whole cs) : keptLines (cs ++ ds) = keptLines cs ++ keptLines ds := by
  induction cs with
  | nil => rfl
  | cons c cs ih =>
    obtain ⟨whole, ends⟩ := h.of_cons
    rw [List.cons_append, keptLines, keptLines, ih whole]
    split
    · rfl
    · next goesOn =>
      cases lines : keptLines cs with
      | nil =>
        have none : cs = [] := by rw [← joinLines_keptLines cs, lines]; rfl
        exact absurd (ends none) goesOn
      | cons l ls => rfl

theorem keptLines_line (one : '\n' ∉ line) : keptLines (line ++ ['\n']) = [line ++ ['\n']] := by
  induction line with
  | nil => rfl
  | cons c line ih =>
    rw [List.mem_cons, not_or] at one
    obtain ⟨other, one⟩ := one
    rw [List.cons_append, keptLines, if_neg (Ne.symm other), ih one]

end BoardDesign.Text

namespace BoardDesign.Template

open Text

variable {bs cs done done' blocks : List Block} {us us' : List Unclosed} {number : Nat}
  {lines rest : List (List Char)} {a b : List Char}

/-! ## Balanced texts -/

/-- How many loops are open after lines, if they close nothing but open loops and have no other
directives; some are open before them. -/
def openAfter : Nat → List (List Char) → Option Nat
  | n, [] => some n
  | n, line :: rest =>
    match directive? line with
    | none => openAfter n rest
    | some (.repeatFor _ _) => openAfter (n + 1) rest
    | some .close =>
      match n with
      | 0 => none
      | n + 1 => openAfter n rest
    | some (.other _) => none

/-- The directives of a text open and close loops, and each is closed that is opened. -/
def Balanced (cs : List Char) : Prop := openAfter 0 (keptLines cs) = some 0

instance (cs : List Char) : Decidable (Balanced cs) := inferInstanceAs (Decidable (_ = _))

theorem length_place (b : Block) (done : List Block) (us : List Unclosed) :
    (place b done us).2.length = us.length := by
  cases us <;> rfl

theorem parseLines_ok_iff :
    (∃ blocks, parseLines done us number lines = .ok blocks) ↔
      openAfter us.length lines = some 0 := by
  induction lines generalizing done us number with
  | nil => cases us <;> simp [parseLines, openAfter]
  | cons line rest ih =>
    cases meant : directive? line with
    | none => simp only [parseLines, openAfter, meant, ih, length_place]
    | some directive =>
      cases directive with
      | close =>
        cases us with
        | nil => simp [parseLines, openAfter, meant]
        | cons u outer =>
          simp only [parseLines, openAfter, meant, ih, length_place, List.length_cons]
      | repeatFor var list => simp only [parseLines, openAfter, meant, ih, List.length_cons]
      | other text => simp [parseLines, openAfter, meant]

theorem parse_ok_iff : (∃ blocks, parse a = .ok blocks) ↔ Balanced a := parseLines_ok_iff

/-! ## Lines in an open loop -/

/-- Blocks at the end of the innermost open loop, or of the template. -/
def placeAll (bs done : List Block) : List Unclosed → List Block × List Unclosed
  | [] => (done ++ bs, [])
  | u :: outer => (done, { u with body := u.body ++ bs } :: outer)

@[simp] theorem placeAll_nil (done : List Block) (us : List Unclosed) :
    placeAll [] done us = (done, us) := by
  cases us <;> simp [placeAll]

/-- A block is placed among lines of its own as it is among the lines around them. -/
theorem place_within (b : Block) (done : List Block) (us : List Unclosed) (outside : List Block)
    (around : List Unclosed) :
    place b (placeAll done outside around).1 (us ++ (placeAll done outside around).2) =
      ((placeAll (place b done us).1 outside around).1,
        (place b done us).2 ++ (placeAll (place b done us).1 outside around).2) := by
  cases us with
  | nil => cases around <;> simp [place, placeAll]
  | cons u outer => simp [place]

/-- Lines that can be parsed alone give the same blocks wherever they stand. -/
theorem parseLines_within (outside : List Block) (around : List Unclosed)
    (parsed : parseLines done us number lines = .ok blocks) :
    parseLines (placeAll done outside around).1 (us ++ (placeAll done outside around).2) number
        (lines ++ rest) =
      parseLines (placeAll blocks outside around).1 (placeAll blocks outside around).2
        (number + lines.length) rest := by
  induction lines generalizing done us number with
  | nil =>
    cases us with
    | nil =>
      cases parsed
      rfl
    | cons u outer => cases parsed
  | cons line lines ih =>
    have next : number + (line :: lines).length = number + 1 + lines.length := by
      simp only [List.length_cons]
      omega
    rw [next, List.cons_append]
    cases meant : directive? line with
    | none =>
      simp only [parseLines, meant] at parsed ⊢
      rw [place_within]
      exact ih parsed
    | some directive =>
      cases directive with
      | close =>
        cases us with
        | nil => simp [parseLines, meant] at parsed
        | cons u outer =>
          simp only [parseLines, meant, List.cons_append] at parsed ⊢
          rw [place_within]
          exact ih parsed
      | repeatFor var list =>
        simp only [parseLines, meant] at parsed ⊢
        exact ih parsed
      | other text => simp [parseLines, meant] at parsed

/-- Finished blocks stay before those of the lines that follow. -/
theorem parseLines_append_done (before done : List Block) (us : List Unclosed) (number : Nat)
    (lines : List (List Char)) :
    parseLines (before ++ done) us number lines =
      (parseLines done us number lines).map (before ++ ·) := by
  induction lines generalizing done us number with
  | nil => cases us <;> rfl
  | cons line rest ih =>
    have placed (b : Block) (us : List Unclosed) : place b (before ++ done) us =
        (before ++ (place b done us).1, (place b done us).2) := by
      cases us <;> simp [place]
    cases meant : directive? line with
    | none => simp only [parseLines, meant, placed, ih]
    | some directive =>
      cases directive with
      | close =>
        cases us with
        | nil => simp only [parseLines, meant]; rfl
        | cons u outer => simp only [parseLines, meant, placed, ih]
      | repeatFor var list => simp only [parseLines, meant, ih]
      | other text => simp only [parseLines, meant]; rfl

/-- The blocks of lines further down. -/
theorem parseLines_from (k : Nat) (lines : List (List Char)) :
    parseLines [] [] (1 + k) lines =
      ((parseLines [] [] 1 lines).map (shiftAll k)).mapError (.shift k) :=
  parseLines_shift k [] [] 1 lines

theorem parse_append (whole : Whole a) (parsed : parse a = .ok blocks) (b : List Char) :
    parse (a ++ b) = (((parse b).map (shiftAll (keptLines a).length)).mapError
      (.shift (keptLines a).length)).map (blocks ++ ·) := by
  have within : parseLines [] [] 1 (keptLines a ++ keptLines b) =
      parseLines blocks [] (1 + (keptLines a).length) (keptLines b) :=
    parseLines_within [] [] parsed
  have before := parseLines_append_done blocks [] [] (1 + (keptLines a).length) (keptLines b)
  rw [List.append_nil] at before
  rw [parse, keptLines_append whole, within, before, parseLines_from, parse]

theorem parse_loop {head close : List Char} {var list : String}
    (opens : directive? head = some (.repeatFor var list)) (closes : directive? close = some .close)
    (lines : keptLines a = head :: keptLines b ++ [close]) (parsed : parse b = .ok blocks) :
    parse a = .ok [.loop var list 1 (shiftAll 1 blocks)] := by
  have further : parseLines [] [] 2 (keptLines b) = .ok (shiftAll 1 blocks) :=
    (parseLines_from 1 (keptLines b)).trans (by rw [← parse, parsed]; rfl)
  have within : parseLines [] [⟨var, list, 1, []⟩] 2 (keptLines b ++ [close]) =
      parseLines [] [⟨var, list, 1, shiftAll 1 blocks⟩] (2 + (keptLines b).length) [close] :=
    parseLines_within [] [⟨var, list, 1, []⟩] further
  rw [parse, lines, List.cons_append, parseLines, opens]
  refine within.trans ?_
  simp [parseLines, closes, place]

end BoardDesign.Template
