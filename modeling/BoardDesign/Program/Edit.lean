import BoardDesign.Program.Stages
import BoardDesign.Editor.Session
/-!
The diagram editor started, and served over its connection.
-/

namespace BoardDesign.Program

open File.Path (join)
open Editor (Application Frame.write? Message.payload)

/-- The application of those who name none. -/
def usualTemplate : String := "demo/templates/blinky-temperature"

def applicationPath (o : EditorOptions) : String :=
  (o.app <|> o.template).getD usualTemplate

def application (o : EditorOptions) (path : String) : Application :=
  if o.app.isSome then .sources path else .template path

/-- The values for the names in the arguments of the editor. -/
def editorValues (s : Settings) (o : EditorOptions) (application : String) :
    List (String × String) :=
  let dir := join s.workspace.root ".pipeline_manager"
  [("application", application), ("frontend_dir", join dir "frontend"),
    ("editor_workspace", join dir "workspace"), ("host", o.host),
    ("port", Decimal.natText o.port), ("backend_host", o.backendHost),
    ("backend_port", Decimal.natText o.backendPort)]

/-- What comes over the connection answered. -/
def serve (b : Editor.Backend) (stream : List UInt8) : Action Failure Unit := fun w =>
  let (state, w) := Editor.serve b stream w
  let frames := state.sent.filterMap fun m => Frame.write? (Message.payload m)
  (.ok (), w.print (frames.map fun f => (.editor, f)))

/-- What the end of the editor means. -/
def editorOutcome : Tool.Ending → Except Failure Unit
  | .exited status => judge status
  | .interrupted status => judge status
  | .killed => .error .editorKilled
where
  judge (status : Tool.ExitStatus) : Except Failure Unit :=
    if status.isSuccess || status.isInterrupt then .ok () else .error (.editorEnded status)

def edit (s : Settings) (host : Host) (o : EditorOptions) : Action Failure Unit := do
  let given := applicationPath o
  let path ← (Action.canonical given).mapError (.noApplication given)
  let catalog ← loadCatalog s o.modifications
  let setup ← setup s host false true
  let call : Tool.Call :=
    { launch := host.launch
      name := .editor
      tool := s.tools.editor
      vars := Table.ofList (editorValues s o path)
      cwd := s.workspace.root
      env := setup.env
      stage := none }
  match host.editor with
  | some stream => serve ⟨s, host, catalog, application o path⟩ stream
  | none => pure ()
  let ending ← (call.shown ⟨none, Tool.defaultGrace, none⟩).mapError .stage
  Action.ofExcept (editorOutcome ending)

end BoardDesign.Program
