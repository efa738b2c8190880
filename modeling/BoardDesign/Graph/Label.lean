import BoardDesign.Text.Basic
/-!
Labels of nodes and names of boards, made from texts that a person typed.

`plain_sanitize`: a sanitized label has only lower-case letters, digits and underscores.
-/

namespace BoardDesign.Graph.Label

/-- The characters of labels. -/
def plain (c : Char) : Bool := ('a' ≤ c && c ≤ 'z') || Text.isDigit c || c == '_'

def sanitizeChar (c : Char) : Char :=
  if plain (Text.lowerLetter c) then Text.lowerLetter c else '_'

/-- Letters in lower case, and an underscore for every character that a label cannot have. -/
def sanitize (s : String) : String :=
  String.ofList ((Text.trim s.toList).map sanitizeChar)

/-- The last part of a text that a separator divides. -/
def lastPiece (sep : Char) (s : String) : String :=
  String.ofList (((Text.pieces sep s.toList).getLast?).getD [])

/-- A label from the name of a type and the end of an identifier. -/
def derived (typeName id : String) : String :=
  sanitize (typeName ++ "_" ++ lastPiece '-' id)

/-- A label from the end of a category and the end of an identifier. -/
def ofCategory (category id : String) : String :=
  sanitize (lastPiece '/' category ++ "_" ++ lastPiece '-' id)

/-- White space, `-` and `+` do not occur in the names of boards. -/
def boardChar (c : Char) : Char := if Text.isBlank c || c == '-' || c == '+' then '_' else c

def boardName (s : String) : String := String.ofList ((Text.trim s.toList).map boardChar)

/-- The board name of a design without a name and without a board root. -/
def untitled : String := "Untitled_graph"

theorem plain_sanitizeChar (c : Char) : plain (sanitizeChar c) = true := by
  unfold sanitizeChar
  split
  · assumption
  · decide

theorem plain_sanitize (s : String) : ∀ c ∈ (sanitize s).toList, plain c = true := by
  intro c hc
  simp only [sanitize, String.toList_ofList, List.mem_map] at hc
  obtain ⟨d, _, rfl⟩ := hc
  exact plain_sanitizeChar d

end BoardDesign.Graph.Label
