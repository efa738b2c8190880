import BoardDesign.File.Fault
import BoardDesign.Template.Block
/-!
What can go wrong while boards, applications and simulator files are generated.
-/

namespace BoardDesign.Generation

/-- What is wrong with a file of settings. -/
inductive SettingsDefect where
  | unreadable
  | noSocs
deriving DecidableEq, Repr

def SettingsDefect.message : SettingsDefect → String
  | .unreadable => Text.unreadable
  | .noSocs => "board_socs is empty"

/-- Why there is no platform description. -/
inductive PlatformDefect where
  | missingDevicetree (path : String)
  | emptyDescription
  /-- The translator's own account of its failure. -/
  | failed (detail : String)
deriving DecidableEq, Repr

def PlatformDefect.message : PlatformDefect → String
  | .missingDevicetree path => s!"devicetree {path} not found"
  | .emptyDescription => "translator produced an empty platform description"
  | .failed detail => detail

inductive Error where
  | file (path : String) (fault : File.Fault)
  | missingBoardRoot
  | missingSocResources (soc path : String)
  | invalidSocConfig (path : String) (defect : SettingsDefect)
  | invalidTemplateConfig (path : String)
  | template (path : String) (error : Template.Error)
  | outputExists (path : String)
  | missingTemplate (path : String)
  | platform (defect : PlatformDefect)
deriving DecidableEq, Repr

/-- The name of the kind of error. -/
def Error.kind : Error → String
  | .file .. => "Io"
  | .missingBoardRoot => "MissingBoardRoot"
  | .missingSocResources .. => "MissingSocResources"
  | .invalidSocConfig .. => "InvalidSocConfig"
  | .invalidTemplateConfig _ => "InvalidTemplateConfig"
  | .template .. => "Template"
  | .outputExists _ => "OutputExists"
  | .missingTemplate _ => "MissingTemplate"
  | .platform _ => "PlatformDescription"

def Error.message : Error → String
  | .file path fault => s!"I/O error on {path}: {fault.message}"
  | .missingBoardRoot => "graph has no board root (SoC) node"
  | .missingSocResources soc path => s!"no resources for SoC '{soc}' in {path}"
  | .invalidSocConfig path defect => s!"invalid SoC configuration {path}: {defect.message}"
  | .invalidTemplateConfig path =>
    s!"invalid template configuration {path}: " ++ Text.unreadable
  | .template path error => s!"template {path}: {error.message}"
  | .outputExists path =>
    s!"output directory {path} already exists (use force to replace it)"
  | .missingTemplate path => s!"template directory {path} does not exist"
  | .platform defect => s!"platform description: {defect.message}"

end BoardDesign.Generation
