import BoardDesign.Shell.Arithmetic
import BoardDesign.Shell.Pattern
import BoardDesign.Shell.Programs
import BoardDesign.Shell.Reader
/-!
Running scripts, and starting programs that are scripts or utilities.

All functions of the run have fuel: a script that uses it up is left where it is, as one that
reaches its horizon.
-/

namespace BoardDesign.Shell

open File (Fault)

/-- A part of an expanded word. -/
inductive Atom where
  /-- Characters that stay together. -/
  | kept (chars : List Char)
  /-- Characters that blanks split. -/
  | split (chars : List Char)
  /-- The boundary between two words. -/
  | boundary
deriving DecidableEq, Repr

/-- The words that atoms make up; `current` is the word so far, if one has begun. -/
def fieldsFrom (current : Option (List Char)) : List Atom → List String
  | [] => (current.map String.ofList).toList
  | .kept cs :: rest => fieldsFrom (some (current.getD [] ++ cs)) rest
  | .boundary :: rest => (current.map String.ofList).toList ++ fieldsFrom none rest
  | .split cs :: rest =>
    let (done, current) := cs.foldl
      (fun (st : List String × Option (List Char)) c =>
        if isSpace c || c == '\n' then (st.1 ++ (st.2.map String.ofList).toList, none)
        else (st.1, some (st.2.getD [] ++ [c])))
      ([], current)
    done ++ fieldsFrom current rest

/-- All characters of atoms as one word. -/
def joined (atoms : List Atom) : String :=
  String.ofList (atoms.flatMap fun a =>
    match a with
    | .kept cs => cs
    | .split cs => cs
    | .boundary => [' '])

def withoutLineEnds (cs : List Char) : List Char := (cs.reverse.dropWhile (· == '\n')).reverse

/-- The parameters as words of their own. -/
def paramAtoms (params : List String) : List Atom :=
  (params.map fun p => Atom.kept p.toList).intersperse .boundary

/-- One that has to be exactly `"$@"`. -/
def isAllParams : Word → Bool
  | [.text [] true, .param "@" _ true] => true
  | _ => false

def valueAtom (quoted : Bool) (value : String) : Atom :=
  if quoted then .kept value.toList else .split value.toList

/-- The value counts as one; an empty one may count as none. -/
def isSet (empty : Bool) (value : Option String) : Bool :=
  value.any fun v => !(empty && v.isEmpty)

/-- The value of a variable in an arithmetic expression. -/
def Machine.number (m : Machine) (s : Surroundings) (name : String) : Int :=
  ((m.param? s name).bind int?).getD 0

/-- The file at the end of a redirection made ready. -/
def openFile (w : World) (path : String) (append : Bool) : Except Fault World :=
  if append && w.isFile path then .ok w else w.write path []

/-- Where a descriptor leads after a redirection to a path. -/
def redirectTo (s : Surroundings) (m : Machine) (descriptor : Nat) (kind : RedirectKind)
    (target : String) : Except Fault (Surroundings × Machine) :=
  let lead (sink : Sink) : Surroundings :=
    if descriptor = 2 then { s with err := sink } else { s with out := sink }
  match kind with
  | .read =>
    if target = "/dev/null" then .ok ({ s with input := [] }, m)
    else (m.world.bytesAt target).map fun content => ({ s with input := content }, m)
  | .same =>
    match target with
    | "1" => .ok (lead s.out, m)
    | "2" => .ok (lead s.err, m)
    | _ => .ok (lead .nowhere, m)
  | kind =>
    if target = "/dev/null" then .ok (lead .nowhere, m)
    else
      (openFile m.world target (kind = .append)).map fun w =>
        (lead (.file (Machine.absolute w target)), { m with world := w })

/-- The signals and the processes of a `kill`. -/
def killArgs (args : List String) : Option (Nat × List String) :=
  match args with
  | "-s" :: name :: rest => (signalNumber? name).map (·, rest)
  | a :: rest =>
    match a.toList with
    | '-' :: cs => (signalNumber? (String.ofList cs)).map (·, rest)
    | _ => some (15, args)
  | [] => none

/-- Variables set by words of the form `name=value`. -/
def exportArgs (m : Machine) (args : List String) : Machine :=
  args.foldl
    (fun m a =>
      match Text.cut ['='] a.toList with
      | some (name, value) =>
        let name := String.ofList name
        { m with
          vars := m.vars.insert name (String.ofList value)
          exported := m.exported.insert name () }
      | none => { m with exported := m.exported.insert a () })
    (m.setStatus 0)

/-- Options of the shell and its parameters set. -/
def setArgs (m : Machine) : List String → Machine
  | [] => m
  | "--" :: params => { m with params := params }
  | a :: rest =>
    match a.toList with
    | '-' :: options => setArgs { m with strict := m.strict || options.contains 'e' } rest
    | '+' :: options => setArgs { m with strict := m.strict && !options.contains 'e' } rest
    | _ => { m with params := a :: rest }

/-- A command that has failed ends a strict script. -/
def judged (s : Surroundings) : Flow × Machine → Flow × Machine
  | (.next, m) => (if m.strict && !s.isChecked && m.status != 0 then .exit else .next, m)
  | r => r

def statusOfSignal (signal : Nat) : Nat := 128 + signal

/-- The status that the machine of a program leaves behind, when the program has ended. -/
def childEnd (outer : Machine) : Flow × Machine → Flow × Machine
  | (.cut, inner) => (.cut, outer.back inner)
  | (.died signal, inner) => (.next, (outer.back inner).setStatus (statusOfSignal signal))
  | (_, inner) => (.next, outer.back inner)

/-- How long a background job is followed, in milliseconds. -/
def backgroundTime : Nat := 600000

/-- A command in the surroundings that its redirections make, if they can be made. -/
def within (r : Except Machine (Surroundings × Machine))
    (body : Surroundings → Machine → Flow × Machine) : Flow × Machine :=
  match r with
  | .error m => (.next, m)
  | .ok (s, m) => body s m

mutual

/-- The atoms of a word. -/
def expand : Nat → Surroundings → Machine → Word → List Atom × Machine
  | 0, _, m, _ => ([], m)
  | _, _, m, [] => ([], m)
  | fuel + 1, s, m, p :: rest =>
    let (atoms, m) := match p with
      | .text cs _ => ([.kept cs], m)
      | .param "@" _ true => (paramAtoms m.params, m)
      | .param name otherwise quoted =>
        let value := m.param? s name
        match otherwise with
        | .nothing => ([valueAtom quoted (value.getD "")], m)
        | .use text empty =>
          if isSet empty value then ([valueAtom quoted (value.getD "")], m)
          else
            let (text, m) := expandText fuel s m text
            ([valueAtom quoted text], m)
        | .replace text empty =>
          if isSet empty value then
            let (text, m) := expandText fuel s m text
            ([valueAtom quoted text], m)
          else ([valueAtom quoted ""], m)
      | .output script quoted =>
        let (text, m) := outputOf fuel s m script
        ([valueAtom quoted text], m)
      | .number expression quoted =>
        let (text, m) := expandText fuel s m expression
        match Arithmetic.eval? (m.number s) text with
        | some n => ([valueAtom quoted (Decimal.intText n)], m)
        | none =>
          ([], m.complain s s!"{m.name}: 1: arithmetic expression: expecting primary: \"{text}\"" 2)
    let (more, m) := expand fuel s m rest
    (atoms ++ more, m)

/-- A text with all that it stands for, as one word. -/
def expandText : Nat → Surroundings → Machine → String → String × Machine
  | 0, _, m, _ => ("", m)
  | fuel + 1, s, m, text =>
    let (atoms, m) := expand fuel s m (wholeWord text)
    (joined atoms, m)

/-- What a script writes. -/
def outputOf : Nat → Surroundings → Machine → String → String × Machine
  | 0, _, m, _ => ("", m)
  | fuel + 1, s, m, script =>
    match parse script with
    | none => ("", m.setStatus 2)
    | some c =>
      let (_, inner) := run fuel { s with out := .caught } { m with caught := [] } c
      let text := withoutLineEnds (Text.Utf8.lossy inner.caught).toList
      (String.ofList text, { m.back inner with caught := m.caught })

/-- The words that a list of words expands to. -/
def expandAll : Nat → Surroundings → Machine → List Word → List String × Machine
  | 0, _, m, _ => ([], m)
  | _, _, m, [] => ([], m)
  | fuel + 1, s, m, w :: rest =>
    let (fields, m) :=
      if isAllParams w then (m.params, m)
      else
        let (atoms, m) := expand fuel s m w
        (fieldsFrom none atoms, m)
    let (more, m) := expandAll fuel s m rest
    (fields ++ more, m)

/-- The characters of a pattern, each with whether it is quoted. -/
def expandPattern : Nat → Surroundings → Machine → Word → List (Char × Bool) × Machine
  | 0, _, m, _ => ([], m)
  | _, _, m, [] => ([], m)
  | fuel + 1, s, m, p :: rest =>
    let (atoms, m) := expand fuel s m [p]
    let (more, m) := expandPattern fuel s m rest
    ((joined atoms).toList.map (·, p.isQuoted) ++ more, m)

/-- Whether a text matches one of some patterns. -/
def matchesAny : Nat → Surroundings → Machine → String → List Word → Bool × Machine
  | 0, _, m, _, _ => (false, m)
  | _, _, m, _, [] => (false, m)
  | fuel + 1, s, m, subject, w :: rest =>
    let (chars, m) := expandPattern fuel s m w
    if Pattern.accepts (Pattern.ofChars chars.length chars) subject.toList then (true, m)
    else matchesAny fuel s m subject rest

/-- The surroundings of a command with redirections. -/
def redirected : Nat → Surroundings → Machine → List Redirect →
    Except Machine (Surroundings × Machine)
  | 0, s, m, _ => .ok (s, m)
  | _, s, m, [] => .ok (s, m)
  | fuel + 1, s, m, d :: rest =>
    let (atoms, m) := expand fuel s m d.target
    let target := joined atoms
    match redirectTo s m d.descriptor d.kind target with
    | .ok (s, m) => redirected fuel s m rest
    | .error .notFound =>
      let what := if d.kind = .read then "No such file" else "Directory nonexistent"
      let how := if d.kind = .read then "open" else "create"
      .error (m.complain s s!"{m.name}: 1: cannot {how} {target}: {what}" 2)
    | .error e => .error (m.complain s s!"{m.name}: 1: cannot create {target}: {faultText e}" 2)

/-- What is done about an interrupt that has come. -/
def settle : Nat → Surroundings → Flow × Machine → Flow × Machine
  | 0, _, (_, m) => (.cut, m)
  | fuel + 1, s, (.next, m) =>
    if m.pending s then
      let m := { m with interrupted := true }
      match m.trap with
      | none => (.died Tool.interruptSignal, m)
      | some "" => (.next, m)
      | some script => runScript fuel s m script
    else (.next, m)
  | _, _, r => r

def runScript : Nat → Surroundings → Machine → String → Flow × Machine
  | 0, _, m, _ => (.cut, m)
  | fuel + 1, s, m, script =>
    match parse script with
    | some c => run fuel s m c
    | none => (.exit, m.complain s s!"{m.name}: 1: Syntax error" 2)

/-- A shell as a program of its own. -/
def runShell : Nat → Surroundings → Machine → String → List String → Flow × Machine
  | 0, _, m, _, _ => (.cut, m)
  | fuel + 1, s, m, program, args =>
    match args with
    | "-c" :: script :: name :: params =>
      runScript fuel s { m with name := name, params := params } script
    | ["-c", script] => runScript fuel s { m with name := program, params := [] } script
    | path :: params =>
      match m.world.textAt path with
      | .ok script => runScript fuel s { m with name := path, params := params } script
      | .error _ => (.exit, m.complain s s!"{program}: 0: cannot open {path}: No such file" 2)
    | [] => runScript fuel s { m with name := program, params := [] } (Text.Utf8.lossy s.input)

/-- A program in a process of its own, with the environment of the machine. -/
def runProgram : Nat → Surroundings → Machine → Executable → String → List String → Flow × Machine
  | 0, _, m, _, _, _ => (.cut, m)
  | fuel + 1, s, m, e, path, args =>
    let m := { m with
      vars := m.environment
      strict := false
      trap := if m.trap = some "" then m.trap else none }
    match e with
    | .script interpreter argument =>
      match findProgram m.world "" interpreter with
      | .error _ => (.next, m.setStatus 127)
      | .ok found =>
        match executableAt m.world found with
        | .ok inner => runProgram fuel s m inner found (argument.toList ++ path :: args)
        | .error _ => (.next, m.setStatus 126)
    | .utility "sleep" =>
      match args.map milliseconds? with
      | [some time] => settle fuel s (m.sleep s time)
      | _ => (.next, m.complain s "sleep: invalid time interval" 1)
    | .utility "env" =>
      let sets := args.takeWhile fun a => a.toList.contains '='
      let m := exportArgs m sets
      match args.drop sets.length with
      | [] => (.next, m)
      | program :: args =>
        match findProgram m.world ((m.vars.get? "PATH").getD usualPath) program with
        | .ok found =>
          match executableAt m.world found with
          | .ok inner => runProgram fuel s m inner found args
          | .error _ => (.next, m.setStatus 126)
        | .error _ => (.next, m.complain s s!"env: '{program}': No such file or directory" 127)
    | .utility name =>
      if name = "sh" || name = "dash" || name = "bash" then runShell fuel s m name args
      else (.next, runUtility s m name args)

/-- A program called by a script. -/
def call : Nat → Surroundings → Machine → String → List String → Flow × Machine
  | 0, _, m, _, _ => (.cut, m)
  | fuel + 1, s, m, program, args =>
    match findProgram m.world ((m.vars.get? "PATH").getD usualPath) program with
    | .error .permissionDenied =>
      (.next, m.complain s s!"{m.name}: 1: {program}: Permission denied" 126)
    | .error _ => (.next, m.complain s s!"{m.name}: 1: {program}: not found" 127)
    | .ok path =>
      match executableAt m.world path with
      | .error _ => (.next, m.complain s s!"{m.name}: 1: {program}: Exec format error" 126)
      | .ok e => childEnd m (runProgram fuel s m e path args)

/-- A simple command whose words are expanded. -/
def runWords : Nat → Surroundings → Machine → String → List String → Flow × Machine
  | 0, _, m, _, _ => (.cut, m)
  | fuel + 1, s, m, name, args =>
    let number (d : Nat) : Nat := (((args.head?.bind int?).map Int.toNat).getD d)
    match name with
    | ":" => (.next, m.setStatus 0)
    | "exit" => (.exit, m.setStatus (number m.status % 256))
    | "return" => (.exit, m.setStatus (number m.status % 256))
    | "break" => (.leave (number 1) false, m.setStatus 0)
    | "continue" => (.leave (number 1) true, m.setStatus 0)
    | "shift" => (.next, { m.setStatus 0 with params := m.params.drop (number 1) })
    | "set" => (.next, setArgs (m.setStatus 0) args)
    | "export" => (.next, exportArgs m args)
    | "unset" => (.next, { m.setStatus 0 with vars := args.foldl Table.erase m.vars })
    | "cd" =>
      let path := (args.head? <|> m.vars.get? "HOME").getD "/"
      match Machine.changeDir m.world path with
      | .ok w => (.next, { m.setStatus 0 with world := w })
      | .error _ => (.next, m.complain s s!"{m.name}: 1: cd: can't cd to {path}" 2)
    | "trap" =>
      match args with
      | action :: signals =>
        if signals.any fun n => signalNumber? n = some Tool.interruptSignal then
          (.next, { m.setStatus 0 with trap := if action = "-" then none else some action })
        else (.next, m.setStatus 0)
      | [] => (.next, m.setStatus 0)
    | "kill" =>
      match killArgs args with
      | none => (.next, m.setStatus 2)
      | some (signal, targets) =>
        if targets.any fun t => t = Decimal.natText s.pid || t = "0" then
          if signal = 0 then (.next, m.setStatus 0)
          else if signal = Tool.interruptSignal then
            match m.trap with
            | none => (.died signal, m)
            | some "" => (.next, m.setStatus 0)
            | some script => runScript fuel s (m.setStatus 0) script
          else (.died signal, m)
        else (.next, { m.setStatus 0 with jobs := [] })
    | "wait" =>
      let (flow, m) := m.sleepUntil s (m.jobs.foldl max m.time)
      settle fuel s (flow, { m with jobs := [] })
    | "eval" => runScript fuel s m (Text.joinWith " " args)
    | "." => runScript fuel s m (((args.head?.map m.world.textAt).bind (·.toOption)).getD "")
    | "exec" =>
      match args with
      | [] => (.next, m.setStatus 0)
      | program :: args =>
        match findProgram m.world ((m.vars.get? "PATH").getD usualPath) program with
        | .error _ => (.exit, m.complain s s!"{m.name}: 1: exec: {program}: not found" 127)
        | .ok path =>
          match executableAt m.world path with
          | .error _ => (.exit, m.setStatus 126)
          | .ok e =>
            match runProgram fuel s m e path args with
            | (.next, m) => (.exit, m)
            | r => r
    | "command" =>
      match args with
      | program :: args => call fuel s m program args
      | [] => (.next, m.setStatus 0)
    | "echo" => (.next, runUtility s m name args)
    | "printf" => (.next, runUtility s m name args)
    | "pwd" => (.next, runUtility s m name args)
    | "test" => (.next, runUtility s m name args)
    | "[" => (.next, runUtility s m name args)
    | "true" => (.next, m.setStatus 0)
    | "false" => (.next, m.setStatus 1)
    | name => call fuel s m name args

/-- Variables set for good, or for one program. -/
def assign : Nat → Surroundings → Machine → Bool → List Assignment → Machine
  | 0, _, m, _, _ => m
  | _, _, m, _, [] => m
  | fuel + 1, s, m, exports, a :: rest =>
    let (atoms, m) := expand fuel s m a.value
    let m := { m with
      vars := m.vars.insert a.name (joined atoms)
      exported := if exports then m.exported.insert a.name () else m.exported }
    assign fuel s m exports rest

/-- A command, and the interrupt that came while it ran. -/
def run : Nat → Surroundings → Machine → Command → Flow × Machine
  | 0, _, m, _ => (.cut, m)
  | fuel + 1, s, m, c =>
    match c with
    | .nothing => (.next, m)
    | .simple assigned words directed =>
      match settle fuel s (m.spend s 1) with
      | (.next, m) =>
        let (fields, m) := expandAll fuel s m words
        settle fuel s (judged s (within (redirected fuel s m directed) fun s m =>
          match fields with
          | [] => (.next, assign fuel s (m.setStatus 0) false assigned)
          | name :: args =>
            let inner := assign fuel s m true assigned
            let (flow, after) := runWords fuel s inner name args
            if assigned.isEmpty then (flow, after)
            else (flow, { after with vars := m.vars, exported := m.exported })))
      | r => r
    | .sequence a b =>
      match run fuel s m a with
      | (.next, m) => run fuel s m b
      | r => r
    | .background c =>
      let quiet := { m with trap := some "" }
      let (flow, inner) := run fuel { s with input := [], horizon := s.horizon + backgroundTime }
        quiet c
      let ended := if flow = .cut then s.horizon + backgroundTime else inner.time
      (.next, { m.back inner with
        time := m.time, status := 0, jobs := ended :: m.jobs })
    | .both a b =>
      match run fuel { s with isChecked := true } m a with
      | (.next, m) => if m.status = 0 then run fuel s m b else (.next, m)
      | r => r
    | .either a b =>
      match run fuel { s with isChecked := true } m a with
      | (.next, m) => if m.status = 0 then (.next, m) else run fuel s m b
      | r => r
    | .negated a =>
      match run fuel { s with isChecked := true } m a with
      | (.next, m) => (.next, m.ofBool (m.status ≠ 0))
      | r => r
    | .pipe a b =>
      match run fuel { s with out := .caught } { m with caught := [] } a with
      | (.cut, inner) => (.cut, m.back inner)
      | (_, inner) =>
        let through := inner.caught
        let m := { m.back inner with caught := m.caught }
        match run fuel { s with input := through } m b with
        | (.cut, inner) => (.cut, m.back inner)
        | (.died signal, inner) =>
          judged s (.next, (m.back inner).setStatus (statusOfSignal signal))
        | (_, inner) => settle fuel s (judged s (.next, m.back inner))
    | .group body directed =>
      within (redirected fuel s m directed) fun s m => run fuel s m body
    | .subshell body directed =>
      within (redirected fuel s m directed) fun s m =>
        settle fuel s (judged s (childEnd m (run fuel s m body)))
    | .branch condition yes no =>
      match run fuel { s with isChecked := true } m condition with
      | (.next, m) =>
        if m.status = 0 then run fuel s m yes else run fuel s (m.setStatus 0) no
      | r => r
    | .loop untilHolds condition body =>
      match run fuel { s with isChecked := true } m condition with
      | (.next, m) =>
        if (m.status = 0) = untilHolds then (.next, m.setStatus 0)
        else
          match run fuel s m body with
          | (.next, m) => run fuel s m c
          | (.leave 1 true, m) => run fuel s m c
          | (.leave 1 false, m) => (.next, m)
          | (.leave n again, m) => (.leave (n - 1) again, m)
          | r => r
      | r => r
    | .each name words body =>
      let (fields, m) := expandAll fuel s m words
      runEach fuel s m name body fields
    | .choose subject choices =>
      let (atoms, m) := expand fuel s m subject
      runChoice fuel s (m.setStatus 0) (joined atoms) choices

/-- The first of some choices that a text matches. -/
def runChoice : Nat → Surroundings → Machine → String → List (List Word × Command) → Flow × Machine
  | 0, _, m, _, _ => (.cut, m)
  | _, _, m, _, [] => (.next, m)
  | fuel + 1, s, m, subject, (patterns, body) :: rest =>
    match matchesAny fuel s m subject patterns with
    | (true, m) => run fuel s m body
    | (false, m) => runChoice fuel s m subject rest

/-- The body of a loop for each of some words. -/
def runEach : Nat → Surroundings → Machine → String → Command → List String → Flow × Machine
  | 0, _, m, _, _, _ => (.cut, m)
  | _, _, m, _, _, [] => (.next, m)
  | fuel + 1, s, m, name, body, field :: rest =>
    match run fuel s { m with vars := m.vars.insert name field } body with
    | (.next, m) => runEach fuel s m name body rest
    | (.leave 1 true, m) => runEach fuel s m name body rest
    | (.leave 1 false, m) => (.next, m)
    | (.leave n again, m) => (.leave (n - 1) again, m)
    | r => r

end

end BoardDesign.Shell
