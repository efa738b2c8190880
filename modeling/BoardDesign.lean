import BoardDesign.App.Files
import BoardDesign.App.LabelMap
import BoardDesign.App.ListRules
import BoardDesign.Board.Devicetree
import BoardDesign.Board.Files
import BoardDesign.Board.Platform
import BoardDesign.Board.Rule
import BoardDesign.Board.SocConfig
import BoardDesign.Catalog.Basic
import BoardDesign.Catalog.Composition
import BoardDesign.Catalog.Error
import BoardDesign.Catalog.Interface
import BoardDesign.Catalog.Modification
import BoardDesign.Catalog.NodeType
import BoardDesign.Catalog.Property
import BoardDesign.Command.Arguments
import BoardDesign.Command.Basic
import BoardDesign.Decimal.Binary
import BoardDesign.Decimal.Shortest
import BoardDesign.Digest.ContentHash
import BoardDesign.Digest.Sha256
import BoardDesign.Editor.Frame
import BoardDesign.Editor.Message
import BoardDesign.Editor.Session
import BoardDesign.Failure
import BoardDesign.File.Fault
import BoardDesign.File.Listing
import BoardDesign.File.Path
import BoardDesign.File.Tree
import BoardDesign.File.Work
import BoardDesign.File.World
import BoardDesign.Generation.Artifacts
import BoardDesign.Generation.Error
import BoardDesign.Generation.Output
import BoardDesign.Graph.Address
import BoardDesign.Graph.Design
import BoardDesign.Graph.Document
import BoardDesign.Graph.Issue
import BoardDesign.Graph.Label
import BoardDesign.Graph.Validation
import BoardDesign.Json.Fields
import BoardDesign.Json.Number
import BoardDesign.Json.Reader
import BoardDesign.Json.Value
import BoardDesign.Json.Writer
import BoardDesign.Main
import BoardDesign.Program.Design
import BoardDesign.Program.Edit
import BoardDesign.Program.Info
import BoardDesign.Program.Run
import BoardDesign.Program.Stages
import BoardDesign.Proofs.App.Application
import BoardDesign.Proofs.App.Labels
import BoardDesign.Proofs.App.Outcome
import BoardDesign.Proofs.App.Rendering
import BoardDesign.Proofs.Board.Content
import BoardDesign.Proofs.Board.Definitions
import BoardDesign.Proofs.Board.Directory
import BoardDesign.Proofs.Board.Gist
import BoardDesign.Proofs.Board.Labels
import BoardDesign.Proofs.Board.Landing
import BoardDesign.Proofs.Board.Making
import BoardDesign.Proofs.Board.Platform
import BoardDesign.Proofs.Catalog.Absorption
import BoardDesign.Proofs.Catalog.Additions
import BoardDesign.Proofs.Catalog.Declarations
import BoardDesign.Proofs.Catalog.Extension
import BoardDesign.Proofs.Catalog.Flattening
import BoardDesign.Proofs.Catalog.Gist
import BoardDesign.Proofs.Catalog.Growth
import BoardDesign.Proofs.Catalog.Inheritance
import BoardDesign.Proofs.Catalog.Proper
import BoardDesign.Proofs.Catalog.Rewrite
import BoardDesign.Proofs.Catalog.Steps
import BoardDesign.Proofs.Catalog.Targets
import BoardDesign.Proofs.Editor.Answers
import BoardDesign.Proofs.Editor.Cut
import BoardDesign.Proofs.Editor.Steps
import BoardDesign.Proofs.Editor.Stops
import BoardDesign.Proofs.Editor.Wire
import BoardDesign.Proofs.File.Careful
import BoardDesign.Proofs.File.Contents
import BoardDesign.Proofs.File.Descent
import BoardDesign.Proofs.File.Entries
import BoardDesign.Proofs.File.Guards
import BoardDesign.Proofs.File.Indifferent
import BoardDesign.Proofs.File.Name
import BoardDesign.Proofs.File.Passing
import BoardDesign.Proofs.File.Place
import BoardDesign.Proofs.File.Reading
import BoardDesign.Proofs.File.Resolution
import BoardDesign.Proofs.File.Steady
import BoardDesign.Proofs.File.Tree
import BoardDesign.Proofs.File.Way
import BoardDesign.Proofs.Generation.AllOrNothing
import BoardDesign.Proofs.Generation.Aside
import BoardDesign.Proofs.Generation.Content
import BoardDesign.Proofs.Generation.Copy
import BoardDesign.Proofs.Generation.Course
import BoardDesign.Proofs.Generation.Output
import BoardDesign.Proofs.Generation.Replacement
import BoardDesign.Proofs.Generation.Together
import BoardDesign.Proofs.Graph.Address
import BoardDesign.Proofs.Graph.Arena
import BoardDesign.Proofs.Graph.Canonical
import BoardDesign.Proofs.Graph.Construction
import BoardDesign.Proofs.Graph.Gist
import BoardDesign.Proofs.Graph.Neighbours
import BoardDesign.Proofs.Graph.Orientation
import BoardDesign.Proofs.Graph.Proper
import BoardDesign.Proofs.Graph.Reports
import BoardDesign.Proofs.Graph.Rows
import BoardDesign.Proofs.Graph.Rules
import BoardDesign.Proofs.Graph.Views
import BoardDesign.Proofs.Json.Compact
import BoardDesign.Proofs.Json.Form
import BoardDesign.Proofs.Json.Nesting
import BoardDesign.Proofs.Json.Normal
import BoardDesign.Proofs.Json.ReadBack
import BoardDesign.Proofs.Json.Record
import BoardDesign.Proofs.Json.Reordering
import BoardDesign.Proofs.Json.Token
import BoardDesign.Proofs.Program.Cleaning
import BoardDesign.Proofs.Run.Board
import BoardDesign.Proofs.Run.Ending
import BoardDesign.Proofs.Run.History
import BoardDesign.Proofs.Run.Holding
import BoardDesign.Proofs.Run.Inputs
import BoardDesign.Proofs.Run.Journal
import BoardDesign.Proofs.Run.LockPlace
import BoardDesign.Proofs.Run.Passing
import BoardDesign.Proofs.Run.Records
import BoardDesign.Proofs.Run.Reuse
import BoardDesign.Proofs.Run.Simulator
import BoardDesign.Proofs.Run.Spared
import BoardDesign.Proofs.Run.Supervision
import BoardDesign.Proofs.Stage.Cache
import BoardDesign.Proofs.Stage.Inputs
import BoardDesign.Proofs.Table
import BoardDesign.Proofs.Template.Composition
import BoardDesign.Proofs.Template.Directives
import BoardDesign.Proofs.Template.Nesting
import BoardDesign.Proofs.Template.Verdict
import BoardDesign.Proofs.Text.Basic
import BoardDesign.Proofs.Text.Hex
import BoardDesign.Proofs.Text.Utf8
import BoardDesign.Proofs.Workspace.Alone
import BoardDesign.Proofs.Workspace.Calls
import BoardDesign.Proofs.Workspace.Conduct
import BoardDesign.Proofs.Workspace.Contest
import BoardDesign.Proofs.Workspace.Exclusion
import BoardDesign.Proofs.Workspace.LockFile
import BoardDesign.Proofs.Workspace.Steps
import BoardDesign.Proofs.Workspace.Theft
import BoardDesign.Run.Basic
import BoardDesign.Run.Report
import BoardDesign.Settings.Basic
import BoardDesign.Settings.File
import BoardDesign.Settings.Version
import BoardDesign.Shell.Arithmetic
import BoardDesign.Shell.Launch
import BoardDesign.Shell.Machine
import BoardDesign.Shell.Pattern
import BoardDesign.Shell.Programs
import BoardDesign.Shell.Reader
import BoardDesign.Shell.Run
import BoardDesign.Shell.Syntax
import BoardDesign.Shell.Utility
import BoardDesign.Stage.Basic
import BoardDesign.Stage.Cache
import BoardDesign.Stage.Error
import BoardDesign.Stage.Inputs
import BoardDesign.Table
import BoardDesign.Template.Block
import BoardDesign.Template.Render
import BoardDesign.Text.Basic
import BoardDesign.Text.Blank
import BoardDesign.Text.CaseTable
import BoardDesign.Text.Hex
import BoardDesign.Text.LetterCase
import BoardDesign.Text.Quoted
import BoardDesign.Text.Utf8
import BoardDesign.Text.Visible
import BoardDesign.Toml.Document
import BoardDesign.Toml.Text
import BoardDesign.Tool.Command
import BoardDesign.Tool.Logged
import BoardDesign.Tool.Process
import BoardDesign.Tool.Supervision
import BoardDesign.Workspace.Layout
import BoardDesign.Workspace.Lock
import BoardDesign.Yaml.Cursor
import BoardDesign.Yaml.Fields
import BoardDesign.Yaml.Node
import BoardDesign.Yaml.ScalarText
import BoardDesign.Yaml.Token
import BoardDesign.Yaml.Value
import BoardDesign.Yaml.Writer
