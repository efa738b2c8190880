import BoardDesign.File.World
import BoardDesign.Proofs.Text.Hex
import BoardDesign.Proofs.Text.Basic

/-!
# Paths by the name at their end, and names that nobody else has

* `tokenText_inj`: fresh names are apart from each other;
* `names_of_pieces`, `fileName?_of_pieces`: what stands after the last slash of a path is its last
  name for those who resolve the path and for those who read it alike;
* `pieces_join`: a name put at the end of a path stands after its last slash.
-/

namespace BoardDesign

open File File.Path

/-! ## Tokens -/

namespace World

theorem tokenText_toList (n : Nat) : (tokenText n).toList =
    "00000000-0000-4000-8000-".toList ++
      (List.replicate (12 - (Text.Hex.ofNat n).length) '0' ++ Text.Hex.ofNat n) :=
  String.toList_append.trans (congrArg _ String.toList_ofList)

theorem tokenText_inj {m n : Nat} (h : tokenText m = tokenText n) : m = n := by
  have same := congrArg String.toList h
  rw [tokenText_toList, tokenText_toList] at same
  have digits := congrArg Text.Hex.toNat? (List.append_cancel_left same)
  rw [Text.Hex.toNat?_zeros, Text.Hex.toNat?_zeros, Text.Hex.toNat?_ofNat,
    Text.Hex.toNat?_ofNat] at digits
  exact Option.some.inj digits

/-- Tokens are written in digits and hyphens. -/
theorem not_mem_tokenText {n : Nat} {c : Char} (other : c = '/' ∨ c = 'k') :
    c ∉ (tokenText n).toList := by
  intro mem
  rw [tokenText_toList] at mem
  rcases List.mem_append.mp mem with mem | mem
  · rcases other with rfl | rfl <;> revert mem <;> decide
  · rcases List.mem_append.mp mem with mem | mem
    · obtain ⟨_, rfl⟩ := List.mem_replicate.mp mem
      rcases other with other | other <;> cases other
    · obtain ⟨k, small, rfl⟩ := Text.Hex.exists_digit_of_mem mem
      have all : ∀ k : Fin 16, Text.Hex.digit k.val ≠ '/' ∧ Text.Hex.digit k.val ≠ 'k' := by decide
      rcases other with same | same
      · exact (all ⟨k, small⟩).1 same
      · exact (all ⟨k, small⟩).2 same

theorem tokenText_ne_nil (n : Nat) : (tokenText n).toList ≠ [] := by
  rw [tokenText_toList]
  simp

end World

/-! ## Paths by their last component -/

theorem exists_last_of_cons {α : Type _} {a b : α} {xs ys : List α} (filled : xs ≠ [])
    (h : a :: xs = ys ++ [b]) : ∃ front, xs = front ++ [b] := by
  cases ys with
  | nil => exact absurd (List.cons.inj h).2 filled
  | cons y ys => exact ⟨ys, (List.cons.inj h).2⟩

section LastPiece

variable {path : String} {before : List (List Char)} {last : List Char}
  (pieces : Text.pieces '/' path.toList = before ++ [last])
include pieces

theorem World.names_of_pieces (proper : last ≠ []) :
    ∃ front, World.names path = front ++ [String.ofList last] := by
  refine ⟨(before.filter fun p => !p.isEmpty).map String.ofList, ?_⟩
  have kept : (!last.isEmpty) = true := by simp [proper]
  simp [World.names, pieces, kept]

theorem World.endsWithSlash_of_pieces (proper : last ≠ []) :
    World.endsWithSlash path = false := by
  rw [World.endsWithSlash, Bool.eq_false_iff]
  intro slash
  rw [beq_iff_eq] at slash
  obtain ⟨init, whole⟩ := List.getLast?_eq_some_iff.mp slash
  rw [whole, Text.pieces_append_sep] at pieces
  exact proper (List.singleton_injective (List.append_inj' pieces rfl).2).symm

namespace File.Path

/-- The body of a path ends with its last piece. -/
theorem body_of_pieces (proper : last ≠ [] ∧ last ≠ ['.']) :
    ∃ front, (parts path).body = front ++ [last] := by
  rw [parts]
  split
  · rename_i rest whole
    rw [whole, Text.pieces, if_pos rfl] at pieces
    exact exists_last_of_cons (Text.pieces_ne_nil '/' rest) pieces
  · rename_i whole
    rw [whole] at pieces
    have single : [] ++ [['.']] = before ++ [last] := pieces
    exact absurd (List.singleton_injective (List.append_inj' single rfl).2).symm proper.2
  · rename_i rest whole
    have dot : Text.pieces '/' ('.' :: '/' :: rest) = ['.'] :: Text.pieces '/' rest := rfl
    rw [whole, dot] at pieces
    obtain ⟨front, parts⟩ := exists_last_of_cons (Text.pieces_ne_nil '/' rest) pieces
    exact ⟨[] :: front, by rw [Text.pieces, if_pos rfl, parts, List.cons_append]⟩
  · exact ⟨before, pieces⟩

theorem fileName?_of_pieces (proper : last ≠ [] ∧ last ≠ ['.'] ∧ last ≠ ['.', '.']) :
    fileName? path = some (String.ofList last) := by
  obtain ⟨front, body⟩ := body_of_pieces pieces ⟨proper.1, proper.2.1⟩
  have kept : (!isNothing last) = true := by simp [isNothing, proper]
  have name : component last = .name (String.ofList last) := by simp [component, proper]
  simp [fileName?, components, body, kept, name]

end File.Path

end LastPiece

namespace File.Path

theorem toList_join (base path : String) :
    ∃ front, (front = [] ∨ front.getLast? = some '/') ∧
      (join base path).toList = front ++ path.toList := by
  rw [join]
  split
  · exact ⟨[], .inl rfl, rfl⟩
  · split
    · rename_i slash
      exact ⟨base.toList, .inr slash, String.toList_append⟩
    · exact ⟨base.toList ++ ['/'], .inr (by simp), by simp⟩

/-- A name put at the end of a path is its last piece. -/
theorem pieces_join (base : String) {name : String} (noSlash : '/' ∉ name.toList) :
    ∃ before, Text.pieces '/' (join base name).toList = before ++ [name.toList] := by
  obtain ⟨front, ends, whole⟩ := toList_join base name
  obtain ⟨before, last, first, both⟩ := Text.pieces_append front noSlash
  refine ⟨before, ?_⟩
  rw [whole, both, Text.last_eq_nil_of_ends ends first, List.nil_append]

end File.Path

end BoardDesign
