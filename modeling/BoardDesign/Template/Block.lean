import BoardDesign.Text.Basic
/-!
Templates: lines of text, and directives on lines of their own that repeat the lines between them.

A directive is a line that begins with `//!` after its indentation. `parse` accepts the texts in
which every loop is closed and nothing else is closed; of several faults the first one counts.
-/

namespace BoardDesign.Template

inductive Error where
  | unknownList (list : String) (line : Nat)
  | unknownVariable (name : String) (line : Nat)
  | invalidExpression (text : String) (line : Nat)
  | invalidDirective (text : String) (line : Nat)
  | unclosedLoop (line : Nat)
  | unexpectedEnd (line : Nat)
deriving DecidableEq, Repr

/-- The name of the kind of error. -/
def Error.kind : Error → String
  | .unknownList .. => "UnknownList"
  | .unknownVariable .. => "UnknownVariable"
  | .invalidExpression .. => "InvalidExpression"
  | .invalidDirective .. => "InvalidDirective"
  | .unclosedLoop .. => "UnclosedLoop"
  | .unexpectedEnd .. => "UnexpectedEndfor"

def Error.message : Error → String
  | .unknownList list line => s!"line {line}: unknown list '{list}'"
  | .unknownVariable name line => s!"line {line}: unknown variable '{name}'"
  | .invalidExpression text line => s!"line {line}: cannot evaluate expression '{text}'"
  | .invalidDirective text line => s!"line {line}: invalid directive '//! {text}'"
  | .unclosedLoop line => s!"line {line}: loop is never closed"
  | .unexpectedEnd line => s!"line {line}: 'endfor' without a matching 'for'"

/-- What a directive says. -/
inductive Directive where
  | repeatFor (var list : String)
  | close
  | other (text : String)
deriving DecidableEq, Repr

def isNameStart (c : Char) : Bool := Text.isLetter c || c == '_'

def isNameChar (c : Char) : Bool := isNameStart c || Text.isDigit c

/-- A name at the start of a text, and the rest. -/
def name? : List Char → Option (List Char × List Char)
  | [] => none
  | c :: rest =>
    if isNameStart c then some (c :: rest.takeWhile isNameChar, rest.dropWhile isNameChar) else none

/-- The text after white space, of which there has to be some. -/
def afterBlanks? (cs : List Char) : Option (List Char) :=
  match cs with
  | c :: rest => if Text.isBlank c then some (Text.trimStart rest) else none
  | [] => none

/-- The variable and the list of the head of a loop. -/
def head? (cs : List Char) : Option (String × String) := do
  let cs ← Text.after ['f', 'o', 'r'] cs
  let cs ← afterBlanks? cs
  let (var, cs) ← name? cs
  let cs ← afterBlanks? cs
  let cs ← Text.after ['i', 'n'] cs
  let cs ← afterBlanks? cs
  let (list, cs) ← name? cs
  if cs.isEmpty then some (String.ofList var, String.ofList list) else none

/-- The directive on a line, if it is not a line of text. -/
def directive? (line : List Char) : Option Directive :=
  match Text.after ['/', '/', '!'] (Text.trimStart line) with
  | none => none
  | some rest =>
    let text := Text.trim rest
    if text = "endfor".toList then some .close
    else
      match head? text with
      | some (var, list) => some (.repeatFor var list)
      | none => some (.other (String.ofList text))

/-- A line with its line end, or lines repeated for each item of a list. Lines count from one; a
loop has the number of its head. -/
inductive Block where
  | line (text : List Char) (number : Nat)
  | loop (var list : String) (number : Nat) (body : List Block)
deriving Repr

/-- A loop that is not closed yet, with the blocks found in it. -/
structure Unclosed where
  var : String
  list : String
  number : Nat
  body : List Block
deriving Repr

/-- A block at the end of the innermost open loop, or of the template. -/
def place (b : Block) (done : List Block) : List Unclosed → List Block × List Unclosed
  | [] => (done ++ [b], [])
  | u :: outer => (done, { u with body := u.body ++ [b] } :: outer)

/-- The blocks of a template of which some lines are read: `done` are its finished blocks and
`unclosed` its open loops, the innermost first. -/
def parseLines (done : List Block) (unclosed : List Unclosed) (number : Nat) :
    List (List Char) → Except Error (List Block)
  | [] =>
    match unclosed with
    | [] => .ok done
    | u :: _ => .error (.unclosedLoop u.number)
  | line :: rest =>
    match directive? line with
    | none =>
      let (done, unclosed) := place (.line line number) done unclosed
      parseLines done unclosed (number + 1) rest
    | some .close =>
      match unclosed with
      | [] => .error (.unexpectedEnd number)
      | u :: outer =>
        let (done, unclosed) := place (.loop u.var u.list u.number u.body) done outer
        parseLines done unclosed (number + 1) rest
    | some (.repeatFor var list) =>
      parseLines done (⟨var, list, number, []⟩ :: unclosed) (number + 1) rest
    | some (.other text) => .error (.invalidDirective text number)

/-- The blocks of a template. -/
def parse (text : List Char) : Except Error (List Block) :=
  parseLines [] [] 1 (Text.keptLines text)

end BoardDesign.Template
