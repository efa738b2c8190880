import BoardDesign.Shell.Syntax
/-!
Reading shell scripts.

Every function reads something at the start of a text and gives it with the rest. `fuel` is more
than the length of the text.
-/

namespace BoardDesign.Shell

def isSpace (c : Char) : Bool := c == ' ' || c == '\t'

/-- A character that ends a word. -/
def isBreak (c : Char) : Bool := isSpace c || "\n;&|<>()".toList.contains c

def isNameStart (c : Char) : Bool := Text.isLetter c || c == '_'

def isNameChar (c : Char) : Bool := isNameStart c || Text.isDigit c

/-- The rest after blanks, comments and joined lines. -/
def skipBlank : Nat → List Char → List Char
  | 0, cs => cs
  | fuel + 1, cs =>
    match cs with
    | '\\' :: '\n' :: r => skipBlank fuel r
    | '#' :: r => r.dropWhile (· != '\n')
    | c :: r => if isSpace c then skipBlank fuel r else cs
    | [] => []

/-- The rest after blanks and line ends. -/
def skipLines : Nat → List Char → List Char
  | 0, cs => cs
  | fuel + 1, cs =>
    match skipBlank (fuel + 1) cs with
    | '\n' :: r => skipLines fuel r
    | r => r

/-- The text up to the next double quote that has no backslash before it. -/
def quotedText : List Char → List Char
  | [] => []
  | '"' :: _ => []
  | '\\' :: c :: r => '\\' :: c :: quotedText r
  | c :: r => c :: quotedText r

/-- The text up to the character that closes what an opening one began, and the rest. -/
def closing (opens closes : Char) : Nat → Nat → List Char → Option (List Char × List Char)
  | 0, _, _ => none
  | fuel + 1, depth, cs =>
    match cs with
    | [] => none
    | '\'' :: r =>
      let body := r.takeWhile (· != '\'')
      (closing opens closes fuel depth (r.drop (body.length + 1))).map fun b =>
        ('\'' :: (body ++ '\'' :: b.1), b.2)
    | '"' :: r =>
      let body := quotedText r
      (closing opens closes fuel depth (r.drop (body.length + 1))).map fun b =>
        ('"' :: (body ++ '"' :: b.1), b.2)
    | '\\' :: c :: r => (closing opens closes fuel depth r).map fun b => ('\\' :: c :: b.1, b.2)
    | c :: r =>
      if c == closes then
        match depth with
        | 0 => some ([], r)
        | d + 1 => (closing opens closes fuel d r).map fun b => (c :: b.1, b.2)
      else
        let depth := if c == opens then depth + 1 else depth
        (closing opens closes fuel depth r).map fun b => (c :: b.1, b.2)

/-- What follows the name of a parameter between braces. -/
def otherwise? (cs : List Char) : Option Otherwise :=
  match cs with
  | [] => some .nothing
  | ':' :: '-' :: text => some (.use (String.ofList text) true)
  | '-' :: text => some (.use (String.ofList text) false)
  | ':' :: '+' :: text => some (.replace (String.ofList text) true)
  | '+' :: text => some (.replace (String.ofList text) false)
  | _ => none

/-- What is between braces after a dollar sign. -/
def braced (quoted : Bool) (cs : List Char) : Option (Piece × List Char) :=
  (closing '\x7b' '\x7d' (cs.length + 1) 0 cs).bind fun (inner, r) =>
    let isName (c : Char) : Bool := isNameChar c || "@*#?$!".toList.contains c
    let name := String.ofList (inner.takeWhile isName)
    (otherwise? (inner.dropWhile isName)).map fun o => (.param name o quoted, r)

/-- What is between parentheses after a dollar sign: an expression if the parentheses are double,
else a script. -/
def parenthesized (quoted : Bool) (cs : List Char) : Option (Piece × List Char) :=
  (closing '(' ')' (cs.length + 1) 0 cs).map fun (inner, r) =>
    match inner, inner.getLast? with
    | '(' :: expression, some ')' => (.number (String.ofList expression.dropLast) quoted, r)
    | _, _ => (.output (String.ofList inner) quoted, r)

/-- What a dollar sign introduces. -/
def dollar (quoted : Bool) (cs : List Char) : Option (Piece × List Char) :=
  match cs with
  | '(' :: r => parenthesized quoted r
  | '\x7b' :: r => braced quoted r
  | c :: r =>
    if isNameStart c then
      some (.param (String.ofList (c :: r.takeWhile isNameChar)) .nothing quoted,
        r.dropWhile isNameChar)
    else if Text.isDigit c || "@*#?$!".toList.contains c then
      some (.param (String.singleton c) .nothing quoted, r)
    else some (.text ['$'] quoted, cs)
  | [] => some (.text ['$'] quoted, [])

/-- The pieces up to the closing double quote. -/
def doubleQuoted : Nat → List Char → Option (Word × List Char)
  | 0, _ => none
  | fuel + 1, cs =>
    match cs with
    | [] => none
    | '"' :: r => some ([], r)
    | '\\' :: '\n' :: r => doubleQuoted fuel r
    | '\\' :: c :: r =>
      let own := if "$\"\\".toList.contains c || c.toNat = 0x60 then [c] else ['\\', c]
      (doubleQuoted fuel r).map fun b => (.text own true :: b.1, b.2)
    | '$' :: r =>
      match dollar true r with
      | none => none
      | some (p, r) => (doubleQuoted fuel r).map fun b => (p :: b.1, b.2)
    | c :: r => (doubleQuoted fuel r).map fun b => (.text [c] true :: b.1, b.2)

/-- The rest of a word that characters end for which `ends` holds. -/
def wordUntil (ends : Char → Bool) : Nat → List Char → Option (Word × List Char)
  | 0, _ => none
  | fuel + 1, cs =>
    match cs with
    | [] => some ([], [])
    | '\\' :: '\n' :: r => wordUntil ends fuel r
    | '\\' :: c :: r => (wordUntil ends fuel r).map fun b => (.text [c] true :: b.1, b.2)
    | '\'' :: r =>
      let body := r.takeWhile (· != '\'')
      match r.drop body.length with
      | [] => none
      | _ :: r => (wordUntil ends fuel r).map fun b => (.text body true :: b.1, b.2)
    | '"' :: r =>
      match doubleQuoted fuel r with
      | none => none
      | some (w, r) => (wordUntil ends fuel r).map fun b => (.text [] true :: (w ++ b.1), b.2)
    | '$' :: r =>
      match dollar false r with
      | none => none
      | some (p, r) => (wordUntil ends fuel r).map fun b => (p :: b.1, b.2)
    | c :: r =>
      if ends c then some ([], cs)
      else (wordUntil ends fuel r).map fun b => (.text [c] false :: b.1, b.2)

/-- The rest of a word. -/
def wordFrom : Nat → List Char → Option (Word × List Char) := wordUntil isBreak

/-- A whole text as one word. -/
def wholeWord (text : String) : Word :=
  ((wordUntil (fun _ => false) (text.length + 1) text.toList).map (·.1)).getD
    [.text text.toList true]

/-- The text of a word that is written without any quotes. -/
def plainText? : Word → Option (List Char)
  | [] => some []
  | .text cs false :: rest => (plainText? rest).map (cs ++ ·)
  | _ => none

/-- The word at the start of a text if it is this one. -/
def keyword? (fuel : Nat) (name : String) (cs : List Char) : Option (List Char) :=
  match wordFrom fuel (skipBlank fuel cs) with
  | some (w, r) => if plainText? w = some name.toList then some r else none
  | none => none

def redirectKind? : List Char → Option (RedirectKind × List Char)
  | '>' :: '>' :: r => some (.append, r)
  | '>' :: '&' :: r => some (.same, r)
  | '>' :: '|' :: r => some (.write, r)
  | '>' :: r => some (.write, r)
  | '<' :: '<' :: _ => none
  | '<' :: '&' :: r => some (.same, r)
  | '<' :: r => some (.read, r)
  | _ => none

def isRedirect (cs : List Char) : Bool :=
  match cs.dropWhile Text.isDigit with
  | '>' :: _ => true
  | '<' :: _ => true
  | _ => false

/-- A redirection, with the descriptor before it or the usual one. -/
def redirect? (fuel : Nat) (cs : List Char) : Option (Redirect × List Char) :=
  let digits := cs.takeWhile Text.isDigit
  let r := cs.dropWhile Text.isDigit
  let usual := if r.head? = some '<' then 0 else 1
  let descriptor := if digits.isEmpty then usual else Text.decimalValue digits
  match redirectKind? r with
  | none => none
  | some (kind, r) =>
    match wordFrom fuel (skipBlank fuel r) with
    | some ([], _) => none
    | some (w, r) => some (⟨descriptor, kind, w⟩, r)
    | none => none

def redirects : Nat → List Char → Option (List Redirect × List Char)
  | 0, _ => none
  | fuel + 1, cs =>
    let cs := skipBlank (fuel + 1) cs
    if isRedirect cs then
      match redirect? fuel cs with
      | none => none
      | some (d, r) => (redirects fuel r).map fun b => (d :: b.1, b.2)
    else some ([], cs)

/-- A word of the form `name=value`. -/
def assignment? : Word → Option Assignment
  | w =>
    let chars := w.takeWhile fun p =>
      match p with
      | .text [c] false => isNameChar c
      | _ => false
    let name := chars.flatMap fun p =>
      match p with
      | .text cs _ => cs
      | _ => []
    match name, w.drop chars.length with
    | c :: _, .text ['='] false :: value =>
      if isNameStart c then some ⟨String.ofList name, value⟩ else none
    | _, _ => none

/-- The assignments, words and redirections of a simple command. -/
def simpleParts : Nat → List Assignment → List Word → List Redirect → List Char →
    Option (Command × List Char)
  | 0, _, _, _, _ => none
  | fuel + 1, assigned, words, directed, cs =>
    let cs := skipBlank (fuel + 1) cs
    if isRedirect cs then
      match redirect? fuel cs with
      | none => none
      | some (d, r) => simpleParts fuel assigned words (directed ++ [d]) r
    else
      match wordFrom fuel cs with
      | none => none
      | some ([], r) =>
        if assigned.isEmpty && words.isEmpty && directed.isEmpty then none
        else some (.simple assigned words directed, r)
      | some (w, r) =>
        match (if words.isEmpty then assignment? w else none) with
        | some a => simpleParts fuel (assigned ++ [a]) words directed r
        | none => simpleParts fuel assigned (words ++ [w]) directed r

/-- A command with the redirections behind it. -/
def directed (fuel : Nat) (read : Command × List Char) : Option (Command × List Char) :=
  (redirects fuel read.2).map fun b => (.group read.1 b.1, b.2)

/-- Words up to the parenthesis behind them, with bars between them. -/
def readPatterns : Nat → List Char → Option (List Word × List Char)
  | 0, _ => none
  | fuel + 1, cs =>
    match wordFrom fuel (skipBlank fuel cs) with
    | some (w, r) =>
      match skipBlank fuel r with
      | '|' :: r => (readPatterns fuel r).map fun b => (w :: b.1, b.2)
      | ')' :: r => some ([w], r)
      | _ => none
    | none => none

/-- The words that end a list of commands. -/
def closers : List String := ["then", "elif", "else", "fi", "do", "done", "esac", "\x7d"]

/-- Nothing more stands in a list of commands. -/
def atEnd (fuel : Nat) (cs : List Char) : Bool :=
  match cs with
  | [] => true
  | ')' :: _ => true
  | ';' :: ';' :: _ => true
  | _ => closers.any fun k => (keyword? fuel k cs).isSome

mutual

/-- Commands one after the other. -/
def readList : Nat → List Char → Option (Command × List Char)
  | 0, _ => none
  | fuel + 1, cs =>
    let cs := skipLines (fuel + 1) cs
    if atEnd (fuel + 1) cs then some (.nothing, cs)
    else
      match readAndOr fuel cs with
      | none => none
      | some (c, r) =>
        match skipBlank fuel r with
        | ';' :: ';' :: r => some (c, ';' :: ';' :: r)
        | '&' :: r => (readList fuel r).map fun b => (.sequence (.background c) b.1, b.2)
        | ';' :: r => (readList fuel r).map fun b => (.sequence c b.1, b.2)
        | '\n' :: r => (readList fuel r).map fun b => (.sequence c b.1, b.2)
        | r => some (c, r)

/-- Commands joined by `&&` and `||`. -/
def readAndOr : Nat → List Char → Option (Command × List Char)
  | 0, _ => none
  | fuel + 1, cs =>
    match readPipeline fuel cs with
    | none => none
    | some (c, r) => readMore fuel c r

/-- What follows a command in a chain of `&&` and `||`. -/
def readMore : Nat → Command → List Char → Option (Command × List Char)
  | 0, _, _ => none
  | fuel + 1, c, cs =>
    match skipBlank (fuel + 1) cs with
    | '&' :: '&' :: r =>
      match readPipeline fuel (skipLines fuel r) with
      | none => none
      | some (d, r) => readMore fuel (.both c d) r
    | '|' :: '|' :: r =>
      match readPipeline fuel (skipLines fuel r) with
      | none => none
      | some (d, r) => readMore fuel (.either c d) r
    | r => some (c, r)

/-- Commands of which each reads what the one before it writes. -/
def readPipeline : Nat → List Char → Option (Command × List Char)
  | 0, _ => none
  | fuel + 1, cs =>
    match keyword? fuel "!" cs with
    | some r => (readPipeline fuel r).map fun b => (.negated b.1, b.2)
    | none =>
      match readCommand fuel cs with
      | none => none
      | some (c, r) =>
        match skipBlank fuel r with
        | '|' :: '|' :: r => some (c, '|' :: '|' :: r)
        | '|' :: r => (readPipeline fuel (skipLines fuel r)).map fun b => (.pipe c b.1, b.2)
        | r => some (c, r)

def readCommand : Nat → List Char → Option (Command × List Char)
  | 0, _ => none
  | fuel + 1, cs =>
    let cs := skipBlank (fuel + 1) cs
    match cs with
    | '(' :: r =>
      match readList fuel r with
      | some (c, ')' :: r) =>
        (redirects fuel r).map fun b => (.subshell c b.1, b.2)
      | _ => none
    | _ =>
      match keyword? fuel "if" cs with
      | some r => (readBranch fuel r).bind (directed fuel)
      | none =>
        match keyword? fuel "while" cs with
        | some r => (readLoop fuel false r).bind (directed fuel)
        | none =>
          match keyword? fuel "until" cs with
          | some r => (readLoop fuel true r).bind (directed fuel)
          | none =>
            match keyword? fuel "for" cs with
            | some r => (readEach fuel r).bind (directed fuel)
            | none =>
              match keyword? fuel "case" cs with
              | some r => (readChoice fuel r).bind (directed fuel)
              | none =>
                match keyword? fuel "\x7b" cs with
                | some r => (readGroup fuel r).bind (directed fuel)
                | none => simpleParts fuel [] [] [] cs

def readGroup : Nat → List Char → Option (Command × List Char)
  | 0, _ => none
  | fuel + 1, cs =>
    match readList fuel cs with
    | none => none
    | some (c, r) => (keyword? fuel "\x7d" r).map fun r => (c, r)

/-- A condition and what depends on it, up to the end of the branch. -/
def readBranch : Nat → List Char → Option (Command × List Char)
  | 0, _ => none
  | fuel + 1, cs =>
    match readList fuel cs with
    | none => none
    | some (condition, r) =>
      match keyword? fuel "then" r with
      | none => none
      | some r =>
        match readList fuel r with
        | none => none
        | some (yes, r) =>
          match keyword? fuel "elif" r with
          | some r => (readBranch fuel r).map fun b => (.branch condition yes b.1, b.2)
          | none =>
            match keyword? fuel "else" r with
            | some r =>
              match readList fuel r with
              | none => none
              | some (no, r) =>
                (keyword? fuel "fi" r).map fun r => (.branch condition yes no, r)
            | none => (keyword? fuel "fi" r).map fun r => (.branch condition yes .nothing, r)

def readLoop : Nat → Bool → List Char → Option (Command × List Char)
  | 0, _, _ => none
  | fuel + 1, untilHolds, cs =>
    match readList fuel cs with
    | none => none
    | some (condition, r) =>
      match readBody fuel r with
      | none => none
      | some (body, r) => some (.loop untilHolds condition body, r)

/-- The body of a loop between its two words. -/
def readBody : Nat → List Char → Option (Command × List Char)
  | 0, _ => none
  | fuel + 1, cs =>
    match keyword? fuel "do" (skipLines fuel cs) with
    | none => none
    | some r =>
      match readList fuel r with
      | none => none
      | some (body, r) => (keyword? fuel "done" r).map fun r => (body, r)

def readEach : Nat → List Char → Option (Command × List Char)
  | 0, _ => none
  | fuel + 1, cs =>
    match wordFrom fuel (skipBlank fuel cs) with
    | none => none
    | some (w, r) =>
      let semicolon (cs : List Char) : List Char :=
        match skipBlank fuel cs with
        | ';' :: r => r
        | r => r
      match plainText? w, keyword? fuel "in" (skipLines fuel r) with
      | some name, some r =>
        match simpleParts fuel [] [[.text ['i', 'n'] true]] [] r with
        | some (.simple _ words _, r) =>
          (readBody fuel (semicolon r)).map fun b =>
            (.each (String.ofList name) words.tail b.1, b.2)
        | _ => none
      | some name, none =>
        (readBody fuel (semicolon r)).map fun b =>
          (.each (String.ofList name) [[.text [] true, .param "@" .nothing true]] b.1, b.2)
      | none, _ => none

/-- A word, and the choices up to the end of them. -/
def readChoice : Nat → List Char → Option (Command × List Char)
  | 0, _ => none
  | fuel + 1, cs =>
    match wordFrom fuel (skipBlank fuel cs) with
    | none => none
    | some (subject, r) =>
      match keyword? fuel "in" (skipLines fuel r) with
      | none => none
      | some r => (readChoices fuel r).map fun b => (.choose subject b.1, b.2)

def readChoices : Nat → List Char → Option (List (List Word × Command) × List Char)
  | 0, _ => none
  | fuel + 1, cs =>
    let cs := skipLines (fuel + 1) cs
    match keyword? fuel "esac" cs with
    | some r => some ([], r)
    | none =>
      match readPatterns fuel (cs.dropWhile (· == '(')) with
      | none => none
      | some (patterns, r) =>
        match readList fuel r with
        | none => none
        | some (body, r) =>
          match skipBlank fuel r with
          | ';' :: ';' :: r =>
            (readChoices fuel r).map fun b => ((patterns, body) :: b.1, b.2)
          | r => (keyword? fuel "esac" r).map fun r => ([(patterns, body)], r)

end

/-- The commands of a script. -/
def parse (script : String) : Option Command :=
  let cs := script.toList
  match readList (4 * cs.length + 16) cs with
  | some (c, []) => some c
  | _ => none

end BoardDesign.Shell
