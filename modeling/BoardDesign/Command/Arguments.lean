import BoardDesign.Command.Basic
import BoardDesign.Text.Basic
/-!
The arguments of the program.

Arguments are read from the left, and the first one that is wrong, or that asks for help or the
version, decides. What is missing or does not go together is found at the end.
-/

namespace BoardDesign.Arguments

/-- What an argument has to be. -/
inductive Kind where
  | path
  | text
  /-- A number of 64 bits without a sign. -/
  | count
  /-- A number of 16 bits without a sign. -/
  | port
deriving DecidableEq, Repr

/-- The number that digits behind an optional plus sign write. -/
def plusNumber? (cs : List Char) : Option Nat :=
  let ds := match cs with
    | '+' :: rest => rest
    | cs => cs
  if !ds.isEmpty && ds.all Text.isDigit then some (Text.decimalValue ds) else none

def count? (s : String) : Option Nat :=
  (plusNumber? s.toList).bind fun n => if n < Nat.pow 2 64 then some n else none

/-- A port; a zero may have a minus sign. -/
def port? (s : String) : Option Nat :=
  match s.toList with
  | '-' :: rest =>
    if !rest.isEmpty && rest.all fun c => c == '0' then some 0 else none
  | cs => (plusNumber? cs).bind fun n => if n < Nat.pow 2 16 then some n else none

def Kind.accepts : Kind → String → Bool
  | .path, s => !s.isEmpty
  | .text, _ => true
  | .count, s => (count? s).isSome
  | .port, s => (port? s).isSome

structure Flag where
  name : String
  /-- A letter that may stand for the name. -/
  letter : Option Char
  /-- The value that follows, if one does. -/
  value : Option Kind
  isRepeated : Bool
deriving DecidableEq, Repr

namespace Flag

def taking (name : String) (kind : Kind) : Flag := ⟨name, none, some kind, false⟩

def switch (name : String) : Flag := ⟨name, none, none, false⟩

def modifications : Flag := ⟨"spec-mod", none, some .path, true⟩

end Flag

/-- The flags that may stand before and behind the name of a command. -/
def sharedFlags : List Flag := [.taking "workspace" .path, .taking "verbosity" .text]

/-- What a command takes. -/
structure Form where
  name : String
  places : List (String × Kind)
  flags : List Flag
deriving DecidableEq, Repr

def forms : List Form :=
  [⟨"prepare-zephyr-board", [("graph", .path)], [.modifications]⟩,
    ⟨"build-zephyr", [("board", .text)], [.taking "app-path" .path]⟩,
    ⟨"prepare-renode-files", [("board", .text)], [.taking "templates-dir" .path]⟩,
    ⟨"simulate", [("board", .text)], [.taking "timeout" .count]⟩,
    ⟨"prepare-zephyr-app", [("graph", .path), ("source_dir", .path)],
      [.taking "from-template" .path, .switch "force", .modifications]⟩,
    ⟨"run", [], [.taking "app" .path, .taking "app-template" .path, .taking "host" .text,
      .taking "port" .port, .taking "backend-host" .text, .taking "backend-port" .port,
      .modifications]⟩,
    ⟨"validate", [("graph", .path)], [.modifications]⟩,
    ⟨"modify-spec", [], [⟨"spec", some 's', some .path, false⟩, .modifications]⟩,
    ⟨"info", [], []⟩,
    ⟨"clean", [("board", .text)], []⟩]

/-- Why arguments are not taken. -/
inductive Misuse where
  | unexpected (argument : String)
  | invalidValue (value flag : String)
  | valueMissing (flag : String)
  | valueForSwitch (flag : String)
  | givenTwice (flag : String)
  | missing (what : String)
  | conflict (flag other : String)
  | unknownCommand (name : String)
  | noCommand
deriving DecidableEq, Repr

/-- The end of the reading. -/
inductive Stop where
  | help
  | version
  | misuse (reason : Misuse)
deriving DecidableEq, Repr

/-- What was given so far, in order. -/
structure Given where
  values : List (String × String)
  switches : List String
  places : List String
deriving DecidableEq, Repr

namespace Given

def empty : Given := ⟨[], [], []⟩

def value? (g : Given) (flag : String) : Option String :=
  (g.values.find? fun v => v.1 == flag).map (·.2)

def allValues (g : Given) (flag : String) : List String :=
  (g.values.filter fun v => v.1 == flag).map (·.2)

def addValue (g : Given) (flag : Flag) (kind : Kind) (value : String) : Except Stop Given :=
  if !flag.isRepeated && (g.value? flag.name).isSome then
    .error (.misuse (.givenTwice flag.name))
  else if !kind.accepts value then .error (.misuse (.invalidValue value flag.name))
  else .ok { g with values := g.values ++ [(flag.name, value)] }

def addSwitch (g : Given) (flag : Flag) : Except Stop Given :=
  if g.switches.contains flag.name then .error (.misuse (.givenTwice flag.name))
  else .ok { g with switches := g.switches ++ [flag.name] }

def addPlace (g : Given) (places : List (String × Kind)) (value : String) : Except Stop Given :=
  match places[g.places.length]? with
  | none => .error (.misuse (.unexpected value))
  | some (name, kind) =>
    if kind.accepts value then .ok { g with places := g.places ++ [value] }
    else .error (.misuse (.invalidValue value name))

end Given

/-- How an argument looks. -/
inductive Look where
  | plain
  /-- The end of the flags. -/
  | divider
  | long (name : String) (value : Option String)
  /-- A letter and what is written behind it. -/
  | short (letter : Char) (rest : String)
deriving DecidableEq, Repr

def look (argument : String) : Look :=
  match argument.toList with
  | ['-', '-'] => .divider
  | '-' :: '-' :: rest =>
    let value := match rest.dropWhile (· != '=') with
      | _ :: value => some (String.ofList value)
      | [] => none
    .long (String.ofList (rest.takeWhile (· != '='))) value
  | '-' :: letter :: rest => .short letter (String.ofList rest)
  | _ => .plain

/-- The value that is written behind a letter, if any is. -/
def attached (rest : String) : Option String :=
  match rest.toList with
  | [] => none
  | '=' :: value => some (String.ofList value)
  | value => some (String.ofList value)

/-- A flag met, with the value that is attached to it. -/
structure Met where
  flag : Flag
  value : Option String

/-- The flag that an argument begins, if it begins one. -/
def met? (flags : List Flag) (isTop : Bool) (argument : String) : Except Stop (Option Met) :=
  match look argument with
  | .long "help" none => .error .help
  | .long "version" none => if isTop then .error .version else
      .error (.misuse (.unexpected argument))
  | .long name value =>
    match flags.find? fun f => f.name == name with
    | some f => .ok (some ⟨f, value⟩)
    | none => .error (.misuse (.unexpected argument))
  | .short 'h' _ => .error .help
  | .short letter rest =>
    if isTop && letter == 'V' then .error .version
    else
      match flags.find? fun f => f.letter == some letter with
      | some f => .ok (some ⟨f, attached rest⟩)
      | none => .error (.misuse (.unexpected argument))
  | _ => .ok none

/-- A flag with the arguments behind it: what was given then, and the arguments that are left. -/
def takeFlag (g : Given) (m : Met) (rest : List String) : Except Stop (Given × List String) :=
  match m.flag.value, m.value, rest with
  | none, none, rest => (g.addSwitch m.flag).map (·, rest)
  | none, some _, _ => .error (.misuse (.valueForSwitch m.flag.name))
  | some kind, some value, rest => (g.addValue m.flag kind value).map (·, rest)
  | some _, none, [] => .error (.misuse (.valueMissing m.flag.name))
  | some kind, none, value :: rest =>
    if look value = .plain then (g.addValue m.flag kind value).map (·, rest)
    else .error (.misuse (.valueMissing m.flag.name))

/-- The arguments behind the name of a command. `fuel` is their number. -/
def readBehind (form : Form) : Nat → Bool → Given → List String → Except Stop Given
  | 0, _, g, _ => .ok g
  | _, _, g, [] => .ok g
  | fuel + 1, literal, g, argument :: rest =>
    if literal then do
      readBehind form fuel true (← g.addPlace form.places argument) rest
    else if look argument = .divider then readBehind form fuel true g rest
    else do
      match ← met? (sharedFlags ++ form.flags) false argument with
      | some m =>
        let (g, rest) ← takeFlag g m rest
        readBehind form fuel false g rest
      | none => readBehind form fuel false (← g.addPlace form.places argument) rest

/-- A command's name behind the one that asks for help. -/
def readHelp (names : List String) : Stop :=
  match names with
  | [] => .help
  | [name] =>
    if name = "help" || forms.any fun f => f.name == name then .help
    else .misuse (.unknownCommand name)
  | _ :: name :: _ => .misuse (.unknownCommand name)

/-- All arguments: what was given before the name of the command and behind it. `fuel` is the number
of arguments. -/
def readAll : Nat → Given → List String → Except Stop (Given × Form × Given)
  | 0, _, _ => .error (.misuse .noCommand)
  | _, _, [] => .error (.misuse .noCommand)
  | fuel + 1, g, argument :: rest =>
    if look argument = .divider then
      .error (.misuse ((rest.head?.map Misuse.unexpected).getD .noCommand))
    else do
      match ← met? sharedFlags true argument with
      | some m =>
        let (g, rest) ← takeFlag g m rest
        readAll fuel g rest
      | none =>
        if argument = "help" then .error (readHelp rest)
        else
          match forms.find? fun f => f.name == argument with
          | none => .error (.misuse (.unknownCommand argument))
          | some form => do
            let behind ← readBehind form rest.length false .empty rest
            .ok (g, form, behind)

def place (form : Form) (g : Given) (index : Nat) : Except Stop String :=
  match g.places[index]? with
  | some value => .ok value
  | none => .error (.misuse (.missing ((form.places[index]?.map (·.1)).getD "")))

def editorOptions (g : Given) : Except Stop EditorOptions := do
  let app := g.value? "app"
  let template := g.value? "app-template"
  if app.isSome && template.isSome then .error (.misuse (.conflict "app" "app-template"))
  .ok
    { app := app
      template := template
      host := (g.value? "host").getD "127.0.0.1"
      port := ((g.value? "port").bind port?).getD 9000
      backendHost := (g.value? "backend-host").getD "127.0.0.1"
      backendPort := ((g.value? "backend-port").bind port?).getD 5000
      modifications := g.allValues "spec-mod" }

/-- The command that was given. -/
def command (form : Form) (g : Given) : Except Stop Command := do
  let place := place form g
  let modifications := g.allValues "spec-mod"
  match form.name with
  | "prepare-zephyr-board" => .ok (.prepareBoard (← place 0) modifications)
  | "build-zephyr" => .ok (.build (← place 0) (g.value? "app-path"))
  | "prepare-renode-files" => .ok (.prepareSimulatorFiles (← place 0) (g.value? "templates-dir"))
  | "simulate" => .ok (.simulate (← place 0) ((g.value? "timeout").bind count?))
  | "prepare-zephyr-app" =>
    .ok (.prepareApplication (← place 0) (← place 1) (g.value? "from-template")
      (g.switches.contains "force") modifications)
  | "run" => .ok (.edit (← editorOptions g))
  | "validate" => .ok (.validate (← place 0) modifications)
  | "modify-spec" =>
    if modifications.isEmpty then .error (.misuse (.missing "spec-mod"))
    else .ok (.modifyCatalog (g.value? "spec") modifications)
  | "info" => .ok .info
  | "clean" => .ok (.clean (← place 0))
  | name => .error (.misuse (.unknownCommand name))

/-- What the arguments ask for. A flag behind the name of the command goes before the same flag in
front of it. -/
def read (arguments : List String) : Except Misuse Invocation :=
  let result := do
    let (front, form, behind) ← readAll arguments.length .empty arguments
    let c ← command form behind
    return Invocation.command (behind.value? "workspace" <|> front.value? "workspace") c
  match result with
  | .ok i => .ok i
  | .error .help => .ok .help
  | .error .version => .ok .version
  | .error (.misuse reason) => .error reason

def Misuse.message : Misuse → String
  | .unexpected argument => s!"unexpected argument '{argument}' found"
  | .invalidValue value flag => s!"invalid value '{value}' for '{flag}'"
  | .valueMissing flag => s!"a value is required for '--{flag}' but none was supplied"
  | .valueForSwitch flag => s!"unexpected value for '--{flag}'"
  | .givenTwice flag => s!"the argument '--{flag}' cannot be used multiple times"
  | .missing what => s!"the required argument '{what}' was not provided"
  | .conflict flag other => s!"the argument '--{flag}' cannot be used with '--{other}'"
  | .unknownCommand name => s!"unrecognized subcommand '{name}'"
  | .noCommand => "a subcommand is required"

/-- How the program is called. -/
def usage : String :=
  "Usage: vsd [--workspace <WORKSPACE>] [--verbosity <VERBOSITY>] <COMMAND>\n\nCommands:\n" ++
    String.join (forms.map fun f => "  " ++ f.name ++ "\n") ++ "  help\n"

end BoardDesign.Arguments
