import BoardDesign.Table
import BoardDesign.Template.Block
import BoardDesign.Text.LetterCase
/-!
Templates rendered in a context of lists and variables.

`hasMarkers` tells which texts rendering can change. The variable of an inner loop hides one of
an outer loop, and both hide a variable of the context.
-/

namespace BoardDesign.Template

structure Context where
  lists : Table (List String)
  vars : Table String
deriving DecidableEq, Repr, Inhabited

/-- The text before the first two opening braces, the text from them to the next two closing
braces, and the rest. -/
def placeholder? (cs : List Char) : Option (List Char × List Char × List Char) :=
  match Text.cut ['\x7b', '\x7b'] cs with
  | none => none
  | some (before, rest) =>
    match Text.cut ['\x7d', '\x7d'] rest with
    | none => none
    | some (inner, rest) => some (before, inner, rest)

inductive Filter where
  | plain
  | upper
  | lower
deriving DecidableEq, Repr

/-- The name and the filter of an expression. -/
def expression? (cs : List Char) : Option (String × Filter) := do
  let (name, rest) ← name? (Text.trimStart cs)
  let name := String.ofList name
  match Text.trimEnd rest with
  | [] => some (name, .plain)
  | rest =>
    if rest = ".upper()".toList then some (name, .upper)
    else if rest = ".lower()".toList then some (name, .lower)
    else none

def Filter.apply (f : Filter) (cs : List Char) : List Char :=
  match f with
  | .plain => cs
  | .upper => Text.toUpper cs
  | .lower => Text.toLower cs

/-- The value of an expression; `scope` are the loop variables, the innermost first. -/
def evaluate (ctx : Context) (scope : List (String × String)) (number : Nat) (cs : List Char) :
    Except Error (List Char) :=
  match expression? cs with
  | none => .error (.invalidExpression (String.ofList (Text.trim cs)) number)
  | some (name, filter) =>
    match findEntry name scope <|> ctx.vars.get? name with
    | some value => .ok (filter.apply value.toList)
    | none => .error (.unknownVariable name number)

/-- A line with its placeholders replaced. Each placeholder has four characters at least, so
`fuel` is enough if it is not below the length of the line. -/
def renderLine (ctx : Context) (scope : List (String × String)) (number : Nat) :
    Nat → List Char → Except Error (List Char)
  | 0, cs => .ok cs
  | fuel + 1, cs =>
    match placeholder? cs with
    | none => .ok cs
    | some (before, inner, rest) => do
      let value ← evaluate ctx scope number inner
      let rest ← renderLine ctx scope number fuel rest
      .ok (before ++ value ++ rest)

mutual

def renderBlock (ctx : Context) (scope : List (String × String)) (b : Block) :
    Except Error (List Char) :=
  match b with
  | .line text number => renderLine ctx scope number text.length text
  | .loop var list number body =>
    match ctx.lists.get? list with
    | none => .error (.unknownList list number)
    | some items =>
      (items.mapM fun item => renderBlocks ctx ((var, item) :: scope) body).map List.flatten
termination_by structural b

def renderBlocks (ctx : Context) (scope : List (String × String)) (bs : List Block) :
    Except Error (List Char) :=
  match bs with
  | [] => .ok []
  | b :: rest => do
    let first ← renderBlock ctx scope b
    let rest ← renderBlocks ctx scope rest
    .ok (first ++ rest)
termination_by structural bs

end

def renderChars (ctx : Context) (cs : List Char) : Except Error (List Char) :=
  (parse cs).bind (renderBlocks ctx [])

/-- The text with its loops repeated and its placeholders replaced. -/
def render (ctx : Context) (text : String) : Except Error String :=
  (renderChars ctx text.toList).map String.ofList

/-- The text has a placeholder or a directive. -/
def hasMarkersIn (cs : List Char) : Bool :=
  Text.occurs ['\x7b', '\x7b'] cs ||
    (Text.lines cs).any fun line => Text.startsWith ['/', '/', '!'] (Text.trimStart line)

def hasMarkers (text : String) : Bool := hasMarkersIn text.toList

end BoardDesign.Template
