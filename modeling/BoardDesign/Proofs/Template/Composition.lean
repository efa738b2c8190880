import BoardDesign.Proofs.Table
import BoardDesign.Proofs.Template.Nesting

/-!
# What a template is rendered to, from its parts

* `renderBlocks_congr`: rendering depends on the values that names have, wherever they are given;
* `directive?_head`: the head of a loop over a list;
* `render_append`, `render_loop`: a template after another, and in a loop;
* `exists_pieces`: values are put into a text that does not depend on them;
* `render_compositional`: all of this for every context and all templates.
-/

namespace BoardDesign.Template

open Text

variable {ctx ctx' : Context} {scope scope' : List (String × String)} {a b x : List Char}

/-! ## Values of names -/

/-- A variable of the context with another value, or a new one. -/
def Context.bind (ctx : Context) (var value : String) : Context :=
  { ctx with vars := ctx.vars.insert var value }

/-- The value of a name. -/
def Context.lookUp (ctx : Context) (scope : List (String × String)) (name : String) :
    Option String :=
  findEntry name scope <|> ctx.vars.get? name

theorem lookUp_cons (var item name : String) : ctx.lookUp ((var, item) :: scope) name =
    if name = var then some item else ctx.lookUp scope name := by
  unfold Context.lookUp
  rw [findEntry]
  split <;> rfl

/-- The variable of an outermost loop is like a variable of the context. -/
theorem lookUp_bind (var item name : String) :
    ctx.lookUp [(var, item)] name = (ctx.bind var item).lookUp [] name := by
  rw [lookUp_cons]
  simp [Context.lookUp, Context.bind, findEntry]

theorem evaluate_congr (same : ∀ name, ctx.lookUp scope name = ctx'.lookUp scope' name)
    (number : Nat) (cs : List Char) :
    evaluate ctx scope number cs = evaluate ctx' scope' number cs := by
  unfold evaluate
  cases expression? cs with
  | none => rfl
  | some e =>
    dsimp only
    rw [show (findEntry e.1 scope <|> ctx.vars.get? e.1) =
      (findEntry e.1 scope' <|> ctx'.vars.get? e.1) from same e.1]

theorem renderLine_congr (same : ∀ name, ctx.lookUp scope name = ctx'.lookUp scope' name)
    (number fuel : Nat) (cs : List Char) :
    renderLine ctx scope number fuel cs = renderLine ctx' scope' number fuel cs := by
  induction fuel generalizing cs with
  | zero => rfl
  | succ fuel ih => simp only [renderLine, evaluate_congr same, ih]

mutual

theorem renderBlock_congr (lists : ctx.lists = ctx'.lists) (scope scope' : List (String × String))
    (same : ∀ name, ctx.lookUp scope name = ctx'.lookUp scope' name) (b : Block) :
    renderBlock ctx scope b = renderBlock ctx' scope' b := by
  cases b with
  | line text number => exact renderLine_congr same number text.length text
  | loop var list number body =>
    have inner (item : String) : renderBlocks ctx ((var, item) :: scope) body =
        renderBlocks ctx' ((var, item) :: scope') body :=
      renderBlocks_congr lists _ _ (fun name => by rw [lookUp_cons, lookUp_cons, same]) body
    rw [renderBlock, renderBlock, lists]
    simp only [inner]
termination_by structural b

theorem renderBlocks_congr (lists : ctx.lists = ctx'.lists)
    (scope scope' : List (String × String))
    (same : ∀ name, ctx.lookUp scope name = ctx'.lookUp scope' name) (bs : List Block) :
    renderBlocks ctx scope bs = renderBlocks ctx' scope' bs := by
  cases bs with
  | nil => rfl
  | cons b rest =>
    rw [renderBlocks, renderBlocks, renderBlock_congr lists scope scope' same b,
      renderBlocks_congr lists scope scope' same rest]
termination_by structural bs

end

/-! ## One template after another -/

theorem renderBlocks_append (bs cs : List Block) :
    renderBlocks ctx scope (bs ++ cs) =
      (renderBlocks ctx scope bs).bind fun x => (renderBlocks ctx scope cs).map (x ++ ·) := by
  induction bs with
  | nil =>
    rw [List.nil_append]
    cases renderBlocks ctx scope cs <;> rfl
  | cons b rest ih =>
    rw [List.cons_append, renderBlocks, renderBlocks, ih]
    cases renderBlock ctx scope b with
    | error e => rfl
    | ok first =>
      cases renderBlocks ctx scope rest with
      | error e => rfl
      | ok more =>
        cases renderBlocks ctx scope cs with
        | error e => rfl
        | ok last => exact congrArg Except.ok (List.append_assoc ..).symm

/-- What follows a template is rendered as it is alone, but for the numbers of its lines. -/
theorem renderChars_append (whole : Whole a) (rendered : renderChars ctx a = .ok x)
    (b : List Char) : renderChars ctx (a ++ b) =
      ((renderChars ctx b).mapError (.shift (keptLines a).length)).map (x ++ ·) := by
  unfold renderChars at rendered ⊢
  cases parsed : parse a with
  | error e =>
    rw [parsed] at rendered
    cases rendered
  | ok bs =>
    rw [parsed] at rendered
    change renderBlocks ctx [] bs = .ok x at rendered
    rw [parse_append whole parsed]
    cases parse b with
    | error e => rfl
    | ok cs =>
      change renderBlocks ctx [] (bs ++ shiftAll (keptLines a).length cs) =
        ((renderBlocks ctx [] cs).mapError (.shift (keptLines a).length)).map (x ++ ·)
      rw [renderBlocks_append, rendered, renderBlocks_shift]
      rfl

/-! ## A template in a loop -/

/-- A letter or an underscore, and letters, digits and underscores after it. -/
def IsIdentifier (cs : List Char) : Prop :=
  ∃ c rest, cs = c :: rest ∧ isNameStart c = true ∧ ∀ d ∈ rest, isNameChar d = true

theorem not_isBlank_of_isNameChar {c : Char} (h : isNameChar c = true) : isBlank c = false := by
  have toNat {d e : Char} (le : d ≤ e) : d.toNat ≤ e.toNat := le
  have within : 0x30 ≤ c.toNat ∧ c.toNat ≤ 0x7A := by
    simp only [isNameChar, isNameStart, isLetter, isDigit, Bool.or_eq_true, Bool.and_eq_true,
      decide_eq_true_eq, beq_iff_eq] at h
    rcases h with ((⟨low, high⟩ | ⟨low, high⟩) | rfl) | ⟨low, high⟩
    · exact ⟨Nat.le_trans (by decide) (toNat low), Nat.le_trans (toNat high) (by decide)⟩
    · exact ⟨Nat.le_trans (by decide) (toNat low), Nat.le_trans (toNat high) (by decide)⟩
    · decide
    · exact ⟨Nat.le_trans (by decide) (toNat low), Nat.le_trans (toNat high) (by decide)⟩
  simp only [isBlank, Bool.or_eq_false_iff, Bool.and_eq_false_iff, decide_eq_false_iff_not,
    beq_eq_false_iff_ne]
  omega

theorem isNameChar_of_isNameStart {c : Char} (h : isNameStart c = true) : isNameChar c = true := by
  simp [isNameChar, h]

theorem IsIdentifier.isNameChar {cs : List Char} (h : IsIdentifier cs) :
    ∀ c ∈ cs, isNameChar c = true := by
  obtain ⟨c, rest, rfl, start, others⟩ := h
  exact List.forall_mem_cons.mpr ⟨isNameChar_of_isNameStart start, others⟩

theorem name?_append {cs rest : List Char} (h : IsIdentifier cs)
    (ends : ∀ c, rest.head? = some c → isNameChar c = false) :
    name? (cs ++ rest) = some (cs, rest) := by
  obtain ⟨c, more, rfl, start, others⟩ := h
  have stops : rest.takeWhile isNameChar = [] ∧ rest.dropWhile isNameChar = rest := by
    cases rest with
    | nil => exact ⟨rfl, rfl⟩
    | cons d rest => simp [ends d rfl]
  rw [List.cons_append, name?, if_pos start, List.takeWhile_append_of_pos others,
    List.dropWhile_append_of_pos others, stops.1, stops.2, List.append_nil]

/-- Texts that begin with a name are not changed where white space is dropped. -/
theorem trimStart_of_isIdentifier {cs : List Char} (h : IsIdentifier cs) (rest : List Char) :
    trimStart (cs ++ rest) = cs ++ rest := by
  obtain ⟨c, more, rfl, start, -⟩ := h
  rw [trimStart, List.cons_append, List.dropWhile_cons_of_neg]
  simp [not_isBlank_of_isNameChar (isNameChar_of_isNameStart start)]

theorem trimEnd_of_isIdentifier {cs : List Char} (h : IsIdentifier cs) (before : List Char) :
    trimEnd (before ++ cs ++ ['\n']) = before ++ cs := by
  obtain ⟨init, last, rfl⟩ : ∃ init last, cs = init ++ [last] := by
    obtain rfl | concat := List.eq_nil_or_concat cs
    · obtain ⟨c, more, none, -⟩ := h
      cases none
    · simpa only [List.concat_eq_append] using concat
  have visible : isBlank last = false := not_isBlank_of_isNameChar (h.isNameChar last (by simp))
  have lineEnd : isBlank '\n' = true := by decide
  simp [trimEnd, visible, lineEnd]

/-- The head of a loop, as the directive has it. -/
def headText (var list : List Char) : List Char :=
  ['f', 'o', 'r', ' '] ++ var ++ [' ', 'i', 'n', ' '] ++ list

/-- The first line of a loop. -/
def headLine (var list : List Char) : List Char :=
  ['/', '/', '!', ' '] ++ headText var list ++ ['\n']

def closingLine : List Char := ['/', '/', '!', ' ', 'e', 'n', 'd', 'f', 'o', 'r', '\n']

theorem directive?_closingLine : directive? closingLine = some .close := by decide

section Head

variable {var list : List Char} (isVar : IsIdentifier var) (isList : IsIdentifier list)
include isVar isList

theorem head?_headText :
    head? (headText var list) = some (String.ofList var, String.ofList list) := by
  have text : headText var list = 'f' :: 'o' :: 'r' :: ' ' :: (var ++ ' ' :: 'i' :: 'n' :: ' ' ::
      (list ++ [])) := by
    simp [headText]
  have blank : isBlank ' ' = true := by decide
  have named : name? (var ++ ' ' :: 'i' :: 'n' :: ' ' :: (list ++ [])) =
      some (var, ' ' :: 'i' :: 'n' :: ' ' :: (list ++ [])) :=
    name?_append isVar fun c first => by
      cases first
      decide
  have start : trimStart ('i' :: 'n' :: ' ' :: (list ++ [])) = 'i' :: 'n' :: ' ' :: (list ++ []) :=
    rfl
  have listed : name? (list ++ []) = some (list, []) := name?_append isList nofun
  rw [text, head?]
  simp only [after, if_true, Option.bind_eq_bind, Option.bind_some, afterBlanks?, blank,
    trimStart_of_isIdentifier isVar, named, start, trimStart_of_isIdentifier isList, listed]
  rfl

theorem directive?_headLine : directive? (headLine var list) =
    some (.repeatFor (String.ofList var) (String.ofList list)) := by
  have start : trimStart (headLine var list) = headLine var list := rfl
  have rest : Text.after ['/', '/', '!'] (headLine var list) =
      some (' ' :: (headText var list ++ ['\n'])) := rfl
  have text : trim (' ' :: (headText var list ++ ['\n'])) = headText var list :=
    trimEnd_of_isIdentifier isList (['f', 'o', 'r', ' '] ++ var ++ [' ', 'i', 'n', ' '])
  have other : headText var list ≠ "endfor".toList := by
    rw [show "endfor".toList = ['e', 'n', 'd', 'f', 'o', 'r'] from rfl]
    simp [headText]
  rw [directive?, start, rest]
  simp only [text, other, if_false, head?_headText isVar isList]

end Head

theorem newline_notMem_of_isIdentifier {cs : List Char} (h : IsIdentifier cs) : '\n' ∉ cs :=
  fun mem => absurd (h.isNameChar _ mem) (by decide)

/-- A template in a loop over a list. -/
def loopChars (var list body : List Char) : List Char :=
  headLine var list ++ body ++ closingLine

theorem keptLines_loopChars {var list body : List Char} (isVar : IsIdentifier var)
    (isList : IsIdentifier list) (whole : Whole body) :
    keptLines (loopChars var list body) =
      headLine var list :: keptLines body ++ [closingLine] := by
  have head : keptLines (headLine var list) = [headLine var list] := by
    refine keptLines_line ?_
    simp [headText, newline_notMem_of_isIdentifier isVar, newline_notMem_of_isIdentifier isList]
  have ends : Whole (headLine var list) := .inr ⟨_, rfl⟩
  rw [loopChars, List.append_assoc, keptLines_append ends, keptLines_append whole, head]
  rfl

theorem renderBlocks_singleton (b : Block) :
    renderBlocks ctx scope [b] = renderBlock ctx scope b := by
  rw [renderBlocks, renderBlocks]
  cases renderBlock ctx scope b with
  | error e => rfl
  | ok x => exact congrArg Except.ok (List.append_nil x)

/-- A balanced template in a loop is rendered for each item as it is alone, with the item for the
variable. -/
theorem renderChars_loopChars {var list body : List Char} (isVar : IsIdentifier var)
    (isList : IsIdentifier list) (whole : Whole body) (balanced : Balanced body) :
    renderChars ctx (loopChars var list body) =
      match ctx.lists.get? (String.ofList list) with
      | none => .error (.unknownList (String.ofList list) 1)
      | some items => ((items.mapM fun item =>
          renderChars (ctx.bind (String.ofList var) item) body).mapError (.shift 1)).map
            List.flatten := by
  obtain ⟨blocks, parsed⟩ := parse_ok_iff.mpr balanced
  have loop := parse_loop (directive?_headLine isVar isList) directive?_closingLine
    (keptLines_loopChars isVar isList whole) parsed
  have alone (item : String) :
      renderBlocks ctx [(String.ofList var, item)] (shiftAll 1 blocks) =
        (renderChars (ctx.bind (String.ofList var) item) body).mapError (.shift 1) := by
    rw [renderBlocks_shift, renderChars, parsed]
    have lists : ctx.lists = (ctx.bind (String.ofList var) item).lists := rfl
    have bound : renderBlocks ctx [(String.ofList var, item)] blocks =
        renderBlocks (ctx.bind (String.ofList var) item) [] blocks :=
      renderBlocks_congr lists _ _ (lookUp_bind (String.ofList var) item) blocks
    rw [bound]
    rfl
  rw [renderChars, loop]
  change renderBlocks ctx [] [_] = _
  rw [renderBlocks_singleton, renderBlock]
  cases ctx.lists.get? (String.ofList list) with
  | none => rfl
  | some items => simp only [alone, mapM_mapError]

/-! ## Values are not read -/

/-- A part of a rendered text. -/
inductive Piece where
  | text (cs : List Char)
  | value (filter : Filter) (given : String)

/-- A piece with a change made to the value that it has, if it has one. -/
def Piece.write (change : String → String) : Piece → List Char
  | .text cs => cs
  | .value filter given => filter.apply (change given).toList

/-- A change made to all values of a context. -/
def Context.map (change : String → String) (ctx : Context) : Context :=
  ⟨ctx.lists.map (List.map change), ctx.vars.map change⟩

/-- The pieces of the outcome are the same whatever change is made to the values. -/
def Assembled (outcome : (String → String) → Except Error (List Char)) : Prop :=
  ∃ pieces : Except Error (List Piece), ∀ change,
    outcome change = pieces.map fun ps => ps.flatMap (Piece.write change)

namespace Assembled

theorem error (e : Error) : Assembled fun _ => .error e := ⟨.error e, fun _ => rfl⟩

theorem text (cs : List Char) : Assembled fun _ => .ok cs :=
  ⟨.ok [.text cs], fun _ => congrArg Except.ok (List.append_nil cs).symm⟩

variable {first second : (String → String) → Except Error (List Char)}

theorem append (isFirst : Assembled first) (isSecond : Assembled second) (before : List Char) :
    Assembled fun change =>
      (first change).bind fun x => (second change).bind fun y => .ok (before ++ x ++ y) := by
  obtain ⟨ps, eq⟩ := isFirst
  obtain ⟨qs, eq'⟩ := isSecond
  refine ⟨ps.bind fun p => qs.bind fun q => .ok (.text before :: p ++ q), fun change => ?_⟩
  dsimp only
  rw [eq, eq']
  cases ps with
  | error e => rfl
  | ok p =>
    cases qs with
    | error e => rfl
    | ok q =>
      have joined : before ++ p.flatMap (Piece.write change) ++ q.flatMap (Piece.write change) =
          (.text before :: p ++ q).flatMap (Piece.write change) := by
        simp [Piece.write]
      exact congrArg Except.ok joined

theorem flatten {items : List String}
    {outcome : String → (String → String) → Except Error (List Char)}
    (each : ∀ item, Assembled (outcome item)) :
    Assembled fun change => (items.mapM fun item => outcome item change).map List.flatten := by
  induction items with
  | nil => exact text []
  | cons item rest ih =>
    obtain ⟨pieces, eq⟩ := append (each item) ih []
    refine ⟨pieces, fun change => ?_⟩
    rw [← eq]
    dsimp only
    rw [List.mapM_cons]
    cases outcome item change with
    | error e => rfl
    | ok x => cases rest.mapM fun item => outcome item change <;> rfl

end Assembled

/-- A change made to the values of all variables of loops. -/
def changed (change : String → String) (scope : List (String × String)) :
    List (String × String) :=
  scope.map fun e => (e.1, change e.2)

theorem lookUp_map (change : String → String) (name : String) :
    (ctx.map change).lookUp (changed change scope) name = (ctx.lookUp scope name).map change := by
  induction scope with
  | nil => simp [Context.lookUp, Context.map, changed, findEntry, Table.get?_map]
  | cons e scope ih =>
    rw [lookUp_cons e.1 e.2 name, changed, List.map_cons, lookUp_cons, ← changed, ih]
    split <;> rfl

theorem assembled_evaluate (number : Nat) (cs : List Char) :
    Assembled fun change => evaluate (ctx.map change) (changed change scope) number cs := by
  unfold evaluate
  cases expression? cs with
  | none => exact .error _
  | some e =>
    obtain ⟨name, filter⟩ := e
    have value (change : String → String) : (findEntry name (changed change scope) <|>
        (ctx.map change).vars.get? name) = (ctx.lookUp scope name).map change :=
      lookUp_map change name
    simp only [value]
    cases ctx.lookUp scope name with
    | none => exact .error _
    | some given =>
      exact ⟨.ok [.value filter given], fun change => congrArg Except.ok (List.append_nil _).symm⟩

theorem assembled_renderLine (number fuel : Nat) (cs : List Char) :
    Assembled fun change => renderLine (ctx.map change) (changed change scope) number fuel cs := by
  induction fuel generalizing cs with
  | zero => exact .text cs
  | succ fuel ih =>
    cases found : placeholder? cs with
    | none =>
      simp only [renderLine, found]
      exact .text cs
    | some parts =>
      obtain ⟨before, inner, rest⟩ := parts
      simp only [renderLine, found]
      exact .append (assembled_evaluate number inner) (ih rest) before

mutual

theorem assembled_renderBlock (scope : List (String × String)) (b : Block) :
    Assembled fun change => renderBlock (ctx.map change) (changed change scope) b := by
  cases b with
  | line text number => exact assembled_renderLine number text.length text
  | loop var list number body =>
    simp only [renderBlock, Context.map, Table.get?_map]
    cases ctx.lists.get? list with
    | none => exact .error _
    | some items =>
      simp only [Option.map_some, List.mapM_map]
      exact .flatten fun item => assembled_renderBlocks ((var, item) :: scope) body
termination_by structural b

theorem assembled_renderBlocks (scope : List (String × String)) (bs : List Block) :
    Assembled fun change => renderBlocks (ctx.map change) (changed change scope) bs := by
  cases bs with
  | nil => exact .text []
  | cons b rest =>
    simp only [renderBlocks]
    exact .append (assembled_renderBlock scope b) (assembled_renderBlocks scope rest) []
termination_by structural bs

end

/-! ## All templates -/

/-- A template in a loop over a list. -/
def loopText (var list body : String) : String :=
  "//! for " ++ var ++ " in " ++ list ++ "\n" ++ body ++ "//! endfor\n"

theorem toList_loopText (var list body : String) :
    (loopText var list body).toList = loopChars var.toList list.toList body.toList := by
  simp [loopText, loopChars, headLine, headText, closingLine]

theorem join_map_ofList (xs : List (List Char)) :
    String.join (xs.map String.ofList) = String.ofList xs.flatten := by
  induction xs with
  | nil => rfl
  | cons x rest ih =>
    rw [List.map_cons, String.join_cons, ih, List.flatten_cons, String.ofList_append]

theorem mapM_map_outcome {α β γ : Type} (f : α → Except Error β) (g : β → γ) (xs : List α) :
    (xs.mapM fun x => (f x).map g) = (xs.mapM f).map (List.map g) := by
  induction xs with
  | nil => rfl
  | cons x rest ih =>
    rw [List.mapM_cons, List.mapM_cons, ih]
    cases f x with
    | error e => rfl
    | ok y => cases rest.mapM f <;> rfl

theorem render_append {a b x : String} (whole : Whole a.toList) (rendered : render ctx a = .ok x) :
    render ctx (a ++ b) =
      ((render ctx b).mapError (.shift (keptLines a.toList).length)).map (x ++ ·) := by
  unfold render at rendered ⊢
  cases first : renderChars ctx a.toList with
  | error e =>
    rw [first] at rendered
    cases rendered
  | ok cs =>
    rw [first] at rendered
    cases rendered
    rw [String.toList_append, renderChars_append whole first]
    cases renderChars ctx b.toList with
    | error e => rfl
    | ok ds => exact congrArg Except.ok String.ofList_append

theorem render_loop {var list body : String} (isVar : IsIdentifier var.toList)
    (isList : IsIdentifier list.toList) (whole : Whole body.toList)
    (balanced : Balanced body.toList) :
    render ctx (loopText var list body) =
      match ctx.lists.get? list with
      | none => .error (.unknownList list 1)
      | some items => ((items.mapM fun item => render (ctx.bind var item) body).mapError
          (.shift 1)).map String.join := by
  have chars : renderChars ctx (loopChars var.toList list.toList body.toList) = _ :=
    renderChars_loopChars isVar isList whole balanced
  rw [String.ofList_toList, String.ofList_toList] at chars
  rw [render, toList_loopText, chars]
  cases ctx.lists.get? list with
  | none => rfl
  | some items =>
    simp only [render, mapM_map_outcome]
    cases items.mapM fun item => renderChars (ctx.bind var item) body.toList with
    | error e => rfl
    | ok outcomes => exact congrArg Except.ok (join_map_ofList outcomes).symm

theorem exists_pieces (ctx : Context) (text : String) : ∃ pieces : Except Error (List Piece),
    ∀ change, render (ctx.map change) text =
      pieces.map fun ps => String.ofList (ps.flatMap (Piece.write change)) := by
  unfold render renderChars
  cases parse text.toList with
  | error e => exact ⟨.error e, fun change => rfl⟩
  | ok blocks =>
    have assembled : Assembled fun change => renderBlocks (ctx.map change) [] blocks :=
      assembled_renderBlocks [] blocks
    obtain ⟨pieces, eq⟩ := assembled
    refine ⟨pieces, fun change => ?_⟩
    have outcome : renderBlocks (ctx.map change) [] blocks =
        pieces.map fun ps => ps.flatMap (Piece.write change) := eq change
    change (renderBlocks (ctx.map change) [] blocks).map String.ofList = _
    rw [outcome]
    cases pieces <;> rfl

/-- A template that follows another is rendered after it; a template in a loop is rendered for each
item; and values are put in as they are, between texts that do not depend on them. -/
theorem render_compositional (ctx : Context) :
    (∀ a b x, Whole a.toList → render ctx a = .ok x →
      (∀ y, render ctx b = .ok y → render ctx (a ++ b) = .ok (x ++ y)) ∧
      ∀ e, render ctx b = .error e →
        render ctx (a ++ b) = .error (e.shift (keptLines a.toList).length)) ∧
    (∀ var list body, IsIdentifier var.toList → IsIdentifier list.toList →
      Whole body.toList → Balanced body.toList →
      render ctx ("//! for " ++ var ++ " in " ++ list ++ "\n" ++ body ++ "//! endfor\n") =
        match ctx.lists.get? list with
        | none => .error (.unknownList list 1)
        | some items => ((items.mapM fun item => render (ctx.bind var item) body).mapError
            (.shift 1)).map String.join) ∧
    ∀ text, ∃ pieces : Except Error (List Piece), ∀ change, render (ctx.map change) text =
      pieces.map fun ps => String.ofList (ps.flatMap (Piece.write change)) := by
  refine ⟨fun a b x whole rendered => ⟨fun y next => ?_, fun e next => ?_⟩,
    fun var list body isVar isList whole balanced => render_loop isVar isList whole balanced,
    exists_pieces ctx⟩
  · rw [render_append whole rendered, next]
    rfl
  · rw [render_append whole rendered, next]
    rfl

/-- Two items, one of them like a placeholder, and a variable. -/
def itemsContext : Context :=
  ⟨.ofList [("items", ["a", "\x7b\x7bi\x7d\x7d"])], .ofList [("i", "last")]⟩

/-- In the loop its variable hides the other one, after it does not; the item is not read again. -/
theorem render_compositional_items :
    render itemsContext ("//! for " ++ "i" ++ " in " ++ "items" ++ "\n" ++
        "\x7b\x7bi\x7d\x7d\n" ++ "//! endfor\n" ++ "\x7b\x7bi\x7d\x7d") =
      .ok ("a\n\x7b\x7bi\x7d\x7d\n" ++ "last") ∧
    ∃ pieces : Except Error (List Piece), ∀ change,
      render (itemsContext.map change) "\x7b\x7bi\x7d\x7d" =
        pieces.map fun ps => String.ofList (ps.flatMap (Piece.write change)) := by
  have isVar : IsIdentifier "i".toList := ⟨'i', [], rfl, rfl, List.forall_mem_nil _⟩
  have isList : IsIdentifier "items".toList :=
    ⟨'i', ['t', 'e', 'm', 's'], by decide +kernel, rfl, List.all_eq_true.mp (by decide +kernel)⟩
  have ends : Whole "\x7b\x7bi\x7d\x7d\n".toList :=
    .inr ⟨['\x7b', '\x7b', 'i', '\x7d', '\x7d'], by decide +kernel⟩
  obtain ⟨append, loop, values⟩ := render_compositional itemsContext
  have looped := loop "i" "items" "\x7b\x7bi\x7d\x7d\n" isVar isList ends (by decide +kernel)
  have whole : Whole ("//! for " ++ "i" ++ " in " ++ "items" ++ "\n" ++
      "\x7b\x7bi\x7d\x7d\n" ++ "//! endfor\n").toList :=
    .inr ⟨"//! for i in items\n\x7b\x7bi\x7d\x7d\n//! endfor".toList, by decide +kernel⟩
  have items : render itemsContext ("//! for " ++ "i" ++ " in " ++ "items" ++ "\n" ++
      "\x7b\x7bi\x7d\x7d\n" ++ "//! endfor\n") = .ok "a\n\x7b\x7bi\x7d\x7d\n" :=
    looped.trans (by decide +kernel)
  exact ⟨(append _ _ _ whole items).1 _ (by decide +kernel), values _⟩

end BoardDesign.Template
