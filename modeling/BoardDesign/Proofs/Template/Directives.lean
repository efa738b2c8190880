import BoardDesign.Proofs.Template.Composition
import BoardDesign.Proofs.Text.Basic

/-!
# How directives are written

* `IsHead`: the head of a loop; `head?_eq_some_iff`: it is read just where it is written;
* `Directs`: a line with a directive, and the text of the directive;
* `Directive.Written`: what such a text says;
* `directive?_eq_some_iff`, `directive?_eq_none_iff`: a line says what is written on it;
* `IsPlain`: a line with neither a directive nor a placeholder. So are all lines of a text without
  markers (`isPlain_of_mem`), though markers are looked for in the lines without their ends;
* `render_of_unmarked`: rendering leaves such a text as it is.
-/

namespace BoardDesign.Template

open Text

variable {cs rest line text name : List Char}

/-! ## The head of a loop -/

theorem afterBlanks?_eq_some_iff :
    afterBlanks? cs = some rest ↔ StartsVisible rest ∧ ∃ gap, IsGap gap ∧ cs = gap ++ rest := by
  constructor
  · intro found
    cases cs with
    | nil => cases found
    | cons c more =>
      rw [afterBlanks?] at found
      split at found
      · rename_i blank
        cases found
        obtain ⟨a, blanks, whole⟩ := exists_blanks_trimStart more
        exact ⟨startsVisible_trimStart more, c :: a,
          ⟨List.cons_ne_nil c a, List.forall_mem_cons.mpr ⟨blank, blanks⟩⟩, congrArg _ whole⟩
      · cases found
  · rintro ⟨visible, gap, ⟨some, blanks⟩, rfl⟩
    obtain ⟨c, more, rfl⟩ := List.exists_cons_of_ne_nil some
    obtain ⟨blank, blanks⟩ := List.forall_mem_cons.mp blanks
    rw [List.cons_append, afterBlanks?, if_pos blank, trimStart_append blanks,
      trimStart_of_startsVisible visible]

theorem name?_eq_some_iff : name? cs = some (name, rest) ↔
    IsIdentifier name ∧ cs = name ++ rest ∧ ∀ c, rest.head? = some c → isNameChar c = false := by
  constructor
  · intro found
    cases cs with
    | nil => cases found
    | cons c more =>
      rw [name?] at found
      split at found
      · rename_i start
        cases found
        refine ⟨⟨c, _, rfl, start, fun d mem => List.mem_takeWhile_imp mem⟩, ?_, fun d first => ?_⟩
        · rw [List.cons_append, List.takeWhile_append_dropWhile]
        · have stops := List.head?_dropWhile_not isNameChar more
          rw [first] at stops
          simpa using stops
      · cases found
  · rintro ⟨isName, rfl, ends⟩
    exact name?_append isName ends

theorem IsIdentifier.startsVisible (h : IsIdentifier cs) (rest : List Char) :
    StartsVisible (cs ++ rest) := by
  obtain ⟨c, more, rfl, start, -⟩ := h
  rintro _ ⟨⟩
  exact not_isBlank_of_isNameChar (isNameChar_of_isNameStart start)

theorem not_isNameChar_of_isGap (h : IsGap cs) (rest : List Char) :
    ∀ c, (cs ++ rest).head? = some c → isNameChar c = false := by
  obtain ⟨some, blanks⟩ := h
  obtain ⟨c, more, rfl⟩ := List.exists_cons_of_ne_nil some
  rintro _ ⟨⟩
  by_contra isName
  have visible := not_isBlank_of_isNameChar (by simpa using isName)
  rw [blanks c (.head _)] at visible
  cases visible

/-- `for`, a name, `in` and another name, with white space between them. -/
def IsHead (text var list : List Char) : Prop :=
  IsIdentifier var ∧ IsIdentifier list ∧ ∃ g₁ g₂ g₃, IsGap g₁ ∧ IsGap g₂ ∧ IsGap g₃ ∧
    text = ['f', 'o', 'r'] ++ (g₁ ++ (var ++ (g₂ ++ (['i', 'n'] ++ (g₃ ++ list)))))

theorem head?_eq_some_iff {var list : String} :
    head? text = some (var, list) ↔ IsHead text var.toList list.toList := by
  constructor
  · intro found
    simp only [head?, Option.bind_eq_bind, Option.bind_eq_some_iff] at found
    obtain ⟨cs₁, first, cs₂, blank₁, ⟨v, cs₃⟩, named, cs₄, blank₂, cs₅, second, cs₆, blank₃,
      ⟨l, cs₇⟩, listed, found⟩ := found
    obtain ⟨-, g₁, gap₁, rfl⟩ := afterBlanks?_eq_some_iff.mp blank₁
    obtain ⟨-, g₂, gap₂, rfl⟩ := afterBlanks?_eq_some_iff.mp blank₂
    obtain ⟨-, g₃, gap₃, rfl⟩ := afterBlanks?_eq_some_iff.mp blank₃
    obtain ⟨isVar, rfl, -⟩ := name?_eq_some_iff.mp named
    obtain ⟨isList, rfl, -⟩ := name?_eq_some_iff.mp listed
    obtain rfl := after_eq_some_iff.mp first
    obtain rfl := after_eq_some_iff.mp second
    split at found
    · rename_i ends
      cases found
      obtain rfl := List.isEmpty_iff.mp ends
      rw [String.toList_ofList, String.toList_ofList]
      exact ⟨isVar, isList, g₁, g₂, g₃, gap₁, gap₂, gap₃, by simp⟩
    · cases found
  · rintro ⟨isVar, isList, g₁, g₂, g₃, gap₁, gap₂, gap₃, rfl⟩
    have first := after_eq_some_iff.mpr (Eq.refl (['f', 'o', 'r'] ++
      (g₁ ++ (var.toList ++ (g₂ ++ (['i', 'n'] ++ (g₃ ++ list.toList)))))))
    have blank₁ := afterBlanks?_eq_some_iff.mpr ⟨isVar.startsVisible
      (g₂ ++ (['i', 'n'] ++ (g₃ ++ list.toList))), g₁, gap₁, rfl⟩
    have named := name?_append isVar (not_isNameChar_of_isGap gap₂ (['i', 'n'] ++ (g₃ ++ list.toList)))
    have blank₂ := afterBlanks?_eq_some_iff.mpr ⟨show StartsVisible (['i', 'n'] ++ (g₃ ++ list.toList))
      by rintro _ ⟨⟩; decide, g₂, gap₂, rfl⟩
    have second := after_eq_some_iff.mpr (Eq.refl (['i', 'n'] ++ (g₃ ++ list.toList)))
    have visible := isList.startsVisible []
    rw [List.append_nil] at visible
    have blank₃ := afterBlanks?_eq_some_iff.mpr ⟨visible, g₃, gap₃, rfl⟩
    have ends : ∀ c, ([] : List Char).head? = some c → isNameChar c = false := by simp
    have listed := name?_append isList ends
    rw [List.append_nil] at listed
    simp only [head?, Option.bind_eq_bind, first, Option.bind_some, blank₁, named, blank₂, second,
      blank₃, listed, List.isEmpty_nil, if_true, String.ofList_toList]

/-! ## Lines with directives -/

/-- The first on the line but for white space is `//!`, and what follows is the text, with white
space around it. -/
def Directs (line text : List Char) : Prop :=
  ∃ before rest, Blanks before ∧ line = before ++ (['/', '/', '!'] ++ rest) ∧ trim rest = text

/-- What the text of a directive says. -/
inductive Directive.Written : List Char → Directive → Prop
  | close : Written "endfor".toList .close
  | repeatFor {text : List Char} {var list : String} :
      IsHead text var.toList list.toList → Written text (.repeatFor var list)
  | other {text : List Char} : text ≠ "endfor".toList → (∀ var list, ¬ IsHead text var list) →
      Written text (.other (String.ofList text))

theorem directs_iff : Directs line text ↔
    ∃ rest, Text.after ['/', '/', '!'] (trimStart line) = some rest ∧ trim rest = text := by
  constructor
  · rintro ⟨before, rest, blanks, rfl, rfl⟩
    refine ⟨rest, ?_, rfl⟩
    rw [trimStart_append blanks]
    exact after_eq_some_iff.mpr rfl
  · rintro ⟨rest, found, rfl⟩
    obtain ⟨before, blanks, whole⟩ := exists_blanks_trimStart line
    exact ⟨before, rest, blanks, whole.trans (congrArg _ (after_eq_some_iff.mp found)), rfl⟩

/-- No line has two directives. -/
theorem Directs.unique {text' : List Char} (h : Directs line text) (h' : Directs line text') :
    text = text' := by
  obtain ⟨rest, found, rfl⟩ := directs_iff.mp h
  obtain ⟨rest', found', rfl⟩ := directs_iff.mp h'
  cases found.symm.trans found'
  rfl

theorem directive?_eq_none_iff : directive? line = none ↔ ∀ text, ¬ Directs line text := by
  rw [directive?]
  cases found : Text.after ['/', '/', '!'] (trimStart line) with
  | none =>
    refine iff_of_true rfl fun text directs => ?_
    obtain ⟨rest, there, -⟩ := directs_iff.mp directs
    cases found.symm.trans there
  | some rest =>
    refine iff_of_false ?_ fun none => none _ (directs_iff.mpr ⟨rest, found, rfl⟩)
    dsimp only
    split
    · exact Option.some_ne_none _
    · split <;> exact Option.some_ne_none _

theorem exists_directive (directs : Directs line text) :
    ∃ d, directive? line = some d ∧ d.Written text := by
  obtain ⟨rest, found, rfl⟩ := directs_iff.mp directs
  rw [directive?, found]
  dsimp only
  split
  · rename_i closes
    exact ⟨_, rfl, closes ▸ .close⟩
  · rename_i noClose
    split
    · rename_i var list head
      exact ⟨_, rfl, .repeatFor (head?_eq_some_iff.mp head)⟩
    · rename_i noHead
      refine ⟨_, rfl, .other noClose fun var list isHead => ?_⟩
      have head : head? (trim rest) = some (String.ofList var, String.ofList list) :=
        head?_eq_some_iff.mpr (by rwa [String.toList_ofList, String.toList_ofList])
      cases noHead.symm.trans head

theorem Directive.Written.unique {d d' : Directive} (h : d.Written text) (h' : d'.Written text) :
    d = d' := by
  have noHead (var list : List Char) : ¬ IsHead "endfor".toList var list := by
    rintro ⟨-, -, g₁, g₂, g₃, -, -, -, same⟩
    cases same
  cases h with
  | close =>
    cases h' with
    | close => rfl
    | repeatFor isHead => exact absurd isHead (noHead _ _)
    | other noClose => exact absurd rfl noClose
  | repeatFor isHead =>
    cases h' with
    | close => exact absurd isHead (noHead _ _)
    | repeatFor isHead' =>
      have same := (head?_eq_some_iff.mpr isHead).symm.trans (head?_eq_some_iff.mpr isHead')
      cases same
      rfl
    | other _ none => exact absurd isHead (none _ _)
  | other noClose none =>
    cases h' with
    | close => exact absurd rfl noClose
    | repeatFor isHead => exact absurd isHead (none _ _)
    | other => rfl

/-- A line says what is written on it. -/
theorem directive?_eq_some_iff {d : Directive} :
    directive? line = some d ↔ ∃ text, Directs line text ∧ d.Written text := by
  constructor
  · intro meant
    have some : ∃ text, Directs line text := by
      by_contra none
      cases meant.symm.trans (directive?_eq_none_iff.mpr fun text h => none ⟨text, h⟩)
    obtain ⟨text, directs⟩ := some
    obtain ⟨d', meant', written⟩ := exists_directive directs
    cases meant.symm.trans meant'
    exact ⟨text, directs, written⟩
  · rintro ⟨text, directs, written⟩
    obtain ⟨d', meant, written'⟩ := exists_directive directs
    rw [meant, written'.unique written]

end BoardDesign.Template

/-! ## Texts without markers -/

namespace BoardDesign.Text

variable {part cs line : List Char}

/-- A part is found where it is, and nowhere else. -/
theorem occurs_iff : occurs part cs = true ↔ part <:+: cs := by
  constructor
  · intro found
    obtain ⟨⟨before, rest⟩, found⟩ := Option.isSome_iff_exists.mp found
    exact ⟨before, rest, (eq_of_cut found).symm⟩
  · rintro ⟨before, rest, rfl⟩
    induction before with
    | nil =>
      have starts : after part (part ++ rest) = some rest := after_eq_some_iff.mpr rfl
      rw [List.nil_append]
      cases whole : part ++ rest with
      | nil =>
        rw [whole] at starts
        rw [occurs, cut, starts]
        rfl
      | cons c more =>
        rw [whole] at starts
        rw [occurs, cut, starts]
        rfl
    | cons c before ih =>
      obtain ⟨cutBefore, found⟩ := Option.isSome_iff_exists.mp ih
      rw [List.append_assoc, List.cons_append, ← List.append_assoc, occurs, cut]
      split
      · rfl
      · rw [found]
        rfl

/-- The end of a line is white space. -/
theorem exists_lineEnd (line : List Char) :
    ∃ ending, Blanks ending ∧ line = dropLineEnd line ++ ending := by
  rw [dropLineEnd]
  split
  · rename_i body reversed
    refine ⟨['\r', '\n'], by simp [Blanks]; decide, ?_⟩
    simpa using congrArg List.reverse reversed
  · rename_i body reversed
    refine ⟨['\n'], by simp [Blanks]; decide, ?_⟩
    simpa using congrArg List.reverse reversed
  · exact ⟨[], by simp [Blanks], (List.append_nil line).symm⟩

end BoardDesign.Text

namespace BoardDesign.Template

open Text

variable {ctx : Context} {scope : List (String × String)} {cs line text : List Char}
  {lines : List (List Char)}

/-! ## Lines without markers -/

/-- What directs is seen without the end of the line. -/
theorem Directs.dropLineEnd (h : Directs line text) :
    ∃ text', Directs (Text.dropLineEnd line) text' := by
  obtain ⟨before, rest, blanks, whole, -⟩ := h
  obtain ⟨ending, blank, split⟩ := exists_lineEnd line
  have both : Text.dropLineEnd line ++ ending = before ++ ['/', '/', '!'] ++ rest := by
    rw [← split, whole, List.append_assoc]
  obtain ⟨more, sign, ends⟩ | ⟨more, body, -⟩ := List.append_eq_append_iff.mp both
  · obtain rfl | ⟨front, last, rfl⟩ := more.eq_nil_or_concat
    · rw [List.append_nil] at sign
      exact ⟨trim [], before, [], blanks, by rw [← sign, List.append_nil], rfl⟩
    · -- The sign does not end in white space.
      have marked : last = '!' := by
        have lasts := congrArg List.getLast? sign
        simpa using lasts.symm
      have inside : last ∈ ending := by simp [ends]
      have visible := blank last inside
      rw [marked] at visible
      exact absurd visible (by decide)
  · exact ⟨trim more, before, more, blanks, by rw [body, List.append_assoc], rfl⟩

/-- A line of text without a placeholder. -/
structure IsPlain (line : List Char) : Prop where
  text : directive? line = none
  whole : placeholder? line = none

theorem isPlain_of_mem (unmarked : hasMarkersIn cs = false) (mem : line ∈ keptLines cs) :
    IsPlain line := by
  obtain ⟨noBraces, noSign⟩ := Bool.or_eq_false_iff.mp unmarked
  refine ⟨directive?_eq_none_iff.mpr fun text directs => ?_, ?_⟩
  · obtain ⟨text', directs'⟩ := directs.dropLineEnd
    obtain ⟨rest, signed, -⟩ := directs_iff.mp directs'
    refine List.any_eq_false.mp noSign _ (List.mem_map.mpr ⟨line, mem, rfl⟩) ?_
    rw [startsWith, signed]
    rfl
  · have within : line <:+: cs := joinLines_keptLines cs ▸ List.infix_of_mem_flatten mem
    have none : Text.cut ['\x7b', '\x7b'] line = .none := by
      by_contra found
      have braces : ['\x7b', '\x7b'] <:+: line :=
        occurs_iff.mp (Option.isSome_iff_ne_none.mpr found)
      rw [occurs_iff.mpr (braces.trans within)] at noBraces
      cases noBraces
    rw [placeholder?, none]

/-! ## Rendering them -/

theorem IsPlain.renderLine (h : IsPlain line) (number fuel : Nat) :
    Template.renderLine ctx scope number fuel line = .ok line := by
  cases fuel with
  | zero => rfl
  | succ fuel => rw [Template.renderLine, h.whole]

/-- Plain lines are the blocks of a template, and are rendered as they are. -/
theorem exists_blocks_of_plain (ctx : Context) (scope : List (String × String)) (done : List Block)
    (number : Nat) (plain : ∀ line ∈ lines, IsPlain line) :
    ∃ blocks, parseLines done [] number lines = .ok (done ++ blocks) ∧
      renderBlocks ctx scope blocks = .ok lines.flatten := by
  induction lines generalizing done number with
  | nil => exact ⟨[], by rw [parseLines, List.append_nil], rfl⟩
  | cons line rest ih =>
    obtain ⟨first, others⟩ := List.forall_mem_cons.mp plain
    obtain ⟨blocks, parsed, rendered⟩ :=
      ih (done ++ [.line line number]) (number + 1) others
    refine ⟨.line line number :: blocks, ?_, ?_⟩
    · rw [parseLines, first.text]
      simpa [place] using parsed
    · rw [renderBlocks, renderBlock, first.renderLine, rendered]
      rfl

/-- A text without markers is rendered as it is. -/
theorem renderChars_of_unmarked (unmarked : hasMarkersIn cs = false) :
    renderChars ctx cs = .ok cs := by
  obtain ⟨blocks, parsed, rendered⟩ :=
    exists_blocks_of_plain ctx [] [] 1 fun line mem => isPlain_of_mem unmarked mem
  rw [renderChars, parse, parsed]
  exact rendered.trans (congrArg _ (joinLines_keptLines cs))

theorem render_of_unmarked {text : String} (unmarked : hasMarkers text = false) :
    render ctx text = .ok text := by
  rw [render, renderChars_of_unmarked unmarked]
  exact congrArg _ String.ofList_toList

end BoardDesign.Template
