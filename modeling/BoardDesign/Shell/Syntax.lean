import BoardDesign.Text.Basic
/-!
Shell scripts: words, redirections and commands.
-/

namespace BoardDesign.Shell

/-- What the expansion of a parameter does when the parameter has a value or has none. -/
inductive Otherwise where
  | nothing
  /-- The text in its place; `empty` tells whether an empty value counts as none. -/
  | use (text : String) (empty : Bool)
  /-- The text in the place of a value; `empty` tells whether an empty value counts as none. -/
  | replace (text : String) (empty : Bool)
deriving DecidableEq, Repr

/-- A part of a word. What is quoted is not split into several words. -/
inductive Piece where
  | text (chars : List Char) (quoted : Bool)
  | param (name : String) (otherwise : Otherwise) (quoted : Bool)
  /-- The output of a script. -/
  | output (script : String) (quoted : Bool)
  /-- The value of an arithmetic expression. -/
  | number (expression : String) (quoted : Bool)
deriving DecidableEq, Repr

abbrev Word := List Piece

def Piece.isQuoted : Piece → Bool
  | .text _ quoted => quoted
  | .param _ _ quoted => quoted
  | .output _ quoted => quoted
  | .number _ quoted => quoted

inductive RedirectKind where
  | write
  | append
  | read
  /-- To where another descriptor goes. -/
  | same
deriving DecidableEq, Repr

structure Redirect where
  descriptor : Nat
  kind : RedirectKind
  target : Word
deriving DecidableEq, Repr

structure Assignment where
  name : String
  value : Word
deriving DecidableEq, Repr

inductive Command where
  | nothing
  | simple (assignments : List Assignment) (words : List Word) (redirects : List Redirect)
  | sequence (first second : Command)
  | background (command : Command)
  | both (first second : Command)
  | either (first second : Command)
  | negated (command : Command)
  | pipe (first second : Command)
  | group (body : Command) (redirects : List Redirect)
  | subshell (body : Command) (redirects : List Redirect)
  | branch (condition yes no : Command)
  /-- Repeated while the condition holds, or until it holds. -/
  | loop (untilHolds : Bool) (condition body : Command)
  | each (name : String) (words : List Word) (body : Command)
  /-- The command behind the first pattern that a word matches. -/
  | choose (subject : Word) (choices : List (List Word × Command))
deriving Repr, Inhabited

end BoardDesign.Shell
