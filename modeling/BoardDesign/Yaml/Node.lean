import BoardDesign.Table
import BoardDesign.Yaml.Token
/-!
YAML nodes: scalars, sequences and mappings, with anchors and aliases replaced by what they stand
for.

A text holds at most one document; an empty text holds none.
-/

namespace BoardDesign.Yaml

inductive Node where
  | scalar (tag : Option String) (text : String) (isPlain : Bool)
  | seq (tag : Option String) (items : List Node)
  | map (tag : Option String) (pairs : List (Node × Node))
deriving Repr, Inhabited

namespace Node

/-- What stands where a node is left out. -/
def missing : Node := .scalar none "" true

/-- What is known about an anchor: nothing while its own node is read, then the node and how many
aliases are in it. -/
abbrev Anchors := List (String × Option (Node × Nat))

structure Progress where
  tokens : List Token
  anchors : Anchors
  handles : List (String × String)
  /-- How many aliases have been replaced, those inside of replacements included. -/
  aliases : Nat

namespace Progress

def next (p : Progress) : Progress := { p with tokens := p.tokens.drop 1 }

def head? (p : Progress) : Option Token := p.tokens.head?

def nextIs (p : Progress) (ts : List Token) : Bool := p.head?.any ts.contains

/-- One of some tokens is next, or none at all. -/
def endsWith (p : Progress) (ts : List Token) : Bool := p.head?.all ts.contains

/-- The tag in full; none if its handle is not declared. -/
def fullTag? (p : Progress) (handle suffix : String) : Option String :=
  if handle.isEmpty then some suffix
  else (p.handles.find? fun h => h.1 == handle).map fun h => h.2 ++ suffix

def takeAnchor (p : Progress) : Option String × Progress :=
  match p.tokens with
  | .anchor name :: rest => (some name, { p with tokens := rest })
  | _ => (none, p)

/-- A tag, if one is next; the result is none if its handle is not declared. -/
def takeTag? (p : Progress) : Option (Option String × Progress) :=
  match p.tokens with
  | .tag handle suffix :: rest =>
    (p.fullTag? handle suffix).map fun tag => (some tag, { p with tokens := rest })
  | _ => some (none, p)

/-- The anchor and the tag of a node, in either order. -/
def properties? (p : Progress) : Option (Option String × Option String × Progress) := do
  let (anchor, p) := p.takeAnchor
  let (tag, p) ← p.takeTag?
  match anchor with
  | some _ => some (anchor, tag, p)
  | none =>
    match tag with
    | some _ =>
      let (anchor, p) := p.takeAnchor
      some (anchor, tag, p)
    | none => some (none, none, p)

def setAnchor (p : Progress) (anchor : Option String) (value : Option (Node × Nat)) : Progress :=
  match anchor with
  | some name => { p with anchors := (name, value) :: p.anchors }
  | none => p

end Progress

mutual

/-- A node. In a block, block collections may follow; where entries may stand without further
indentation, a sequence of such entries may follow too. -/
def read : Nat → Bool → Bool → Progress → Option (Node × Progress)
  | 0, _, _, _ => none
  | fuel + 1, inBlock, unindented, p =>
    match p.tokens with
    | .alias name :: rest =>
      match findEntry name p.anchors with
      | some (some (n, count)) =>
        some (n, { p with tokens := rest, aliases := p.aliases + count + 1 })
      | _ => none
    | _ =>
      match p.properties? with
      | none => none
      | some (anchor, tag, p) =>
        let before := p.aliases
        match readContent fuel inBlock unindented (anchor.isSome || tag.isSome) tag
            (p.setAnchor anchor none) with
        | none => none
        | some (n, p) => some (n, p.setAnchor anchor (some (n, p.aliases - before)))

/-- A node behind its anchor and its tag. -/
def readContent : Nat → Bool → Bool → Bool → Option String → Progress →
    Option (Node × Progress)
  | 0, _, _, _, _, _ => none
  | fuel + 1, inBlock, unindented, hasProperties, tag, p =>
    match p.tokens with
    | .scalar text isPlain :: _ =>
      some (.scalar (if tag = some "!" then none else tag) text isPlain, p.next)
    | .flowSequence :: _ => (readFlowItems fuel true p.next).map fun r => (.seq tag r.1, r.2)
    | .flowMapping :: _ => (readFlowPairs fuel true p.next).map fun r => (.map tag r.1, r.2)
    | .blockEntry :: _ =>
      if unindented then (readEntries fuel p).map fun r => (.seq tag r.1, r.2)
      else if hasProperties then some (.scalar tag "" true, p) else none
    | .blockSequence :: _ =>
      if inBlock then (readItems fuel p.next).map fun r => (.seq tag r.1, r.2)
      else if hasProperties then some (.scalar tag "" true, p) else none
    | .blockMapping :: _ =>
      if inBlock then (readPairs fuel p.next).map fun r => (.map tag r.1, r.2)
      else if hasProperties then some (.scalar tag "" true, p) else none
    | _ => if hasProperties then some (.scalar tag "" true, p) else none

/-- The items of a block sequence up to its end. -/
def readItems : Nat → Progress → Option (List Node × Progress)
  | 0, _ => none
  | fuel + 1, p =>
    match p.tokens with
    | .blockEntry :: _ =>
      let p := p.next
      let item :=
        if p.nextIs [.blockEntry, .blockEnd] then some (missing, p) else read fuel true false p
      match item with
      | none => none
      | some (n, p) => (readItems fuel p).map fun r => (n :: r.1, r.2)
    | .blockEnd :: _ => some ([], p.next)
    | _ => none

/-- The items of a sequence without indentation of its own. -/
def readEntries : Nat → Progress → Option (List Node × Progress)
  | 0, _ => none
  | fuel + 1, p =>
    match p.tokens with
    | .blockEntry :: _ =>
      let p := p.next
      let item :=
        if p.nextIs [.blockEntry, .key, .value, .blockEnd] then some (missing, p)
        else read fuel true false p
      match item with
      | none => none
      | some (n, p) => (readEntries fuel p).map fun r => (n :: r.1, r.2)
    | _ => some ([], p)

/-- The keys and values of a block mapping up to its end. -/
def readPairs : Nat → Progress → Option (List (Node × Node) × Progress)
  | 0, _ => none
  | fuel + 1, p =>
    match p.tokens with
    | .key :: _ =>
      let p := p.next
      let key :=
        if p.nextIs [.key, .value, .blockEnd] then some (missing, p) else read fuel true true p
      match key with
      | none => none
      | some (k, p) =>
        match readValue fuel p with
        | none => none
        | some (v, p) => (readPairs fuel p).map fun r => ((k, v) :: r.1, r.2)
    | .blockEnd :: _ => some ([], p.next)
    | _ => none

/-- The value of a key in a block mapping. -/
def readValue : Nat → Progress → Option (Node × Progress)
  | 0, _ => none
  | fuel + 1, p =>
    match p.tokens with
    | .value :: _ =>
      let p := p.next
      if p.nextIs [.key, .value, .blockEnd] then some (missing, p) else read fuel true true p
    | _ => some (missing, p)

/-- The items of a flow sequence up to its end; a key with its value may be an item. -/
def readFlowItems : Nat → Bool → Progress → Option (List Node × Progress)
  | 0, _, _ => none
  | fuel + 1, first, p =>
    if p.nextIs [.flowSequenceEnd] then some ([], p.next)
    else if !first && !p.nextIs [.flowEntry] then none
    else
      let p := if first then p else p.next
      match p.tokens with
      | .flowSequenceEnd :: _ => some ([], p.next)
      | .key :: _ =>
        let p := p.next
        let key :=
          if p.nextIs [.value, .flowEntry, .flowSequenceEnd] then some (missing, p)
          else read fuel false false p
        match key with
        | none => none
        | some (k, p) =>
          match readFlowValue fuel .flowSequenceEnd p with
          | none => none
          | some (v, p) =>
            (readFlowItems fuel false p).map fun r => (.map none [(k, v)] :: r.1, r.2)
      | _ =>
        match read fuel false false p with
        | none => none
        | some (n, p) => (readFlowItems fuel false p).map fun r => (n :: r.1, r.2)

/-- The keys and values of a flow mapping up to its end. -/
def readFlowPairs : Nat → Bool → Progress → Option (List (Node × Node) × Progress)
  | 0, _, _ => none
  | fuel + 1, first, p =>
    if p.nextIs [.flowMappingEnd] then some ([], p.next)
    else if !first && !p.nextIs [.flowEntry] then none
    else
      let p := if first then p else p.next
      match p.tokens with
      | .flowMappingEnd :: _ => some ([], p.next)
      | .key :: _ =>
        let p := p.next
        let key :=
          if p.nextIs [.value, .flowEntry, .flowMappingEnd] then some (missing, p)
          else read fuel false false p
        match key with
        | none => none
        | some (k, p) =>
          match readFlowValue fuel .flowMappingEnd p with
          | none => none
          | some (v, p) => (readFlowPairs fuel false p).map fun r => ((k, v) :: r.1, r.2)
      | _ =>
        match read fuel false false p with
        | none => none
        | some (k, p) => (readFlowPairs fuel false p).map fun r => ((k, missing) :: r.1, r.2)

/-- The value of a key in a flow collection. -/
def readFlowValue : Nat → Token → Progress → Option (Node × Progress)
  | 0, _, _ => none
  | fuel + 1, closing, p =>
    match p.tokens with
    | .value :: _ =>
      let p := p.next
      if p.nextIs [.flowEntry, closing] then some (missing, p) else read fuel false false p
    | _ => some (missing, p)

end

mutual

/-- How deep sequences and mappings are nested. -/
def depth (n : Node) : Nat :=
  match n with
  | .scalar _ _ _ => 0
  | .seq _ items => depthList items + 1
  | .map _ pairs => depthPairs pairs + 1
termination_by structural n

def depthList (items : List Node) : Nat :=
  match items with
  | [] => 0
  | n :: rest => max (depth n) (depthList rest)
termination_by structural items

def depthPairs (pairs : List (Node × Node)) : Nat :=
  match pairs with
  | [] => 0
  | (k, v) :: rest => max (max (depth k) (depth v)) (depthPairs rest)
termination_by structural pairs

end

/-- Directives before a document, and the tag handles that they declare. -/
def directives? (version : Bool) (declared : List (String × String)) :
    List Token → Option (List (String × String) × List Token)
  | .version major minor :: rest =>
    if version || major ≠ 1 || !(minor = 1 || minor = 2) then none
    else directives? true declared rest
  | .tagHandle handle start :: rest =>
    if declared.any fun h => h.1 == handle then none
    else directives? version ((handle, start) :: declared) rest
  | tokens => some (declared, tokens)

def defaultHandles : List (String × String) := [("!", "!"), ("!!", "tag:yaml.org,2002:")]

def isDocumentMark : Token → Bool
  | .version _ _ | .tagHandle _ _ | .documentStart | .documentEnd => true
  | _ => false

def isDirective : Token → Bool
  | .version _ _ | .tagHandle _ _ => true
  | _ => false

/-- How deep a document may be nested. -/
def deepest : Nat := 128

/-- How many aliases a document may replace for each of its tokens. -/
def aliasesPerToken : Nat := 100

/-- The document of some tokens; none inside if there are no tokens. -/
def ofTokens? (tokens : List Token) : Option (Option Node) :=
  match tokens with
  | [] => some none
  | t :: _ =>
    let content (handles : List (String × String)) (rest : List Token) :
        Option (Node × Progress) :=
      read (10 * tokens.length + 10) true false ⟨rest, [], handles ++ defaultHandles, 0⟩
    let body :=
      if isDirective t || t == .documentStart then
        match directives? false [] tokens with
        | some (handles, .documentStart :: rest) =>
          if rest.head?.all isDocumentMark then some (missing, ⟨rest, [], [], 0⟩)
          else content handles rest
        | _ => none
      else content [] tokens
    match body with
    | none => none
    | some (n, p) =>
      if !(p.tokens.all (· == .documentEnd)) then none
      else if aliasesPerToken * tokens.length < p.aliases || deepest < n.depth then none
      else some (some n)

/-- The document that a text holds. -/
def parse (text : String) : Option (Option Node) := (Token.scan text.toList).bind ofTokens?

end Node

end BoardDesign.Yaml
