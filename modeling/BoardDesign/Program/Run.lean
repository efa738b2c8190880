import BoardDesign.Command.Arguments
import BoardDesign.Program.Edit
import BoardDesign.Program.Info
/-!
The program: what its arguments ask for, done, and its exit code.
-/

namespace BoardDesign.Program

/-- A command done in a workspace. -/
def run (host : Host) (workspace : Option String) (c : Command) : Action Failure Unit := do
  let env := Table.ofList (host.env.toList.filter fun e => !e.2.isEmpty)
  let s ← (Settings.resolve workspace env).mapError .settings
  match c with
  | .prepareBoard graph modifications => prepareBoard s host graph modifications
  | .build board app => build s host board app
  | .prepareSimulatorFiles board templatesDir => prepareSimulatorFiles s host board templatesDir
  | .simulate board seconds => simulate s host board seconds
  | .prepareApplication graph source template force modifications =>
    prepareApplication s host graph source template force modifications
  | .edit options => edit s host options
  | .validate graph modifications => validate s graph modifications
  | .modifyCatalog path modifications => modifyCatalog (path.getD s.catalogPath) modifications
  | .info => info s host
  | .clean board => clean s host board

/-- The exit code for arguments that are not taken. -/
def misuseCode : Nat := 2

/-- The program called with arguments, and its exit code. -/
def main (host : Host) (arguments : List String) : StateM World Nat := fun w =>
  let printed (s : Stream) (text : String) : World := w.print [(s, Text.Utf8.bytes text)]
  match Arguments.read arguments with
  | .error reason => (misuseCode, printed .err s!"error: {reason.message}\n\n{Arguments.usage}")
  | .ok .help => (0, printed .out Arguments.usage)
  | .ok .version => (0, printed .out s!"vsd {programVersion}\n")
  | .ok (.command workspace c) =>
    match run host workspace c w with
    | (.ok (), w) => (0, w)
    | (.error f, w) => (f.code, w.print [(.err, Text.Utf8.bytes s!"error: {f.message}\n")])

end BoardDesign.Program
