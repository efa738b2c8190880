import BoardDesign.Text.Basic
/-!
Patterns that words are matched with.

In a pattern some characters are quoted; those stand for themselves.
-/

namespace BoardDesign.Shell

inductive Pattern where
  | char (c : Char)
  /-- Any one character. -/
  | one
  /-- Any characters. -/
  | many
  /-- One character within one of some ranges, or outside all of them. -/
  | within (outside : Bool) (ranges : List (Char × Char))
deriving DecidableEq, Repr

namespace Pattern

/-- The ranges that a class of characters lists. -/
def ranges : List Char → List (Char × Char)
  | a :: '-' :: b :: rest => (a, b) :: ranges rest
  | a :: rest => (a, a) :: ranges rest
  | [] => []

/-- The class whose characters stand behind an opening bracket. -/
def ofClass : List Char → Pattern
  | '!' :: cs => .within true (ranges cs)
  | cs => .within false (ranges cs)

/-- The parts of a pattern; with each character comes whether it is quoted. `fuel` is their
number. -/
def ofChars : Nat → List (Char × Bool) → List Pattern
  | 0, _ => []
  | _, [] => []
  | fuel + 1, ('*', false) :: rest => .many :: ofChars fuel rest
  | fuel + 1, ('?', false) :: rest => .one :: ofChars fuel rest
  | fuel + 1, ('[', false) :: first :: rest =>
    let members := first :: rest.takeWhile (· != (']', false))
    match rest.drop (members.length - 1) with
    | _ :: after => ofClass (members.map (·.1)) :: ofChars fuel after
    | [] => .char '[' :: ofChars fuel (first :: rest)
  | fuel + 1, (c, _) :: rest => .char c :: ofChars fuel rest

def acceptsChar : Pattern → Char → Bool
  | .char a, c => a == c
  | .within outside ranges, c => ranges.any (fun r => r.1 ≤ c && c ≤ r.2) != outside
  | _, _ => true

/-- The whole text is as the patterns say, one after the other. -/
def accepts : List Pattern → List Char → Bool
  | [], cs => cs.isEmpty
  | .many :: rest, cs => (List.range (cs.length + 1)).any fun n => accepts rest (cs.drop n)
  | _ :: _, [] => false
  | p :: rest, c :: cs => acceptsChar p c && accepts rest cs

end Pattern

end BoardDesign.Shell
