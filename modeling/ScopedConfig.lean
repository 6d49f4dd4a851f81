import ScopedConfig.Address.Segment
import ScopedConfig.Address.Shorthand
import ScopedConfig.Address.Step
import ScopedConfig.Arena.Basic
import ScopedConfig.Arena.Describe
import ScopedConfig.Arena.Table
import ScopedConfig.Arena.Walk
import ScopedConfig.Command
import ScopedConfig.Cursor
import ScopedConfig.Diagnostic
import ScopedConfig.Document.Run
import ScopedConfig.Document.Statement
import ScopedConfig.Fault
import ScopedConfig.FileTree
import ScopedConfig.Json.Datum
import ScopedConfig.Json.Number
import ScopedConfig.Json.Policy
import ScopedConfig.Json.Quoted
import ScopedConfig.Json.Reader
import ScopedConfig.Main
import ScopedConfig.Number.Binary64
import ScopedConfig.Number.Digits
import ScopedConfig.Number.Form
import ScopedConfig.Number.Power
import ScopedConfig.Number.Reading
import ScopedConfig.Number.Shortest
import ScopedConfig.Policy
import ScopedConfig.Proofs.Address.Absolute
import ScopedConfig.Proofs.Address.Brackets
import ScopedConfig.Proofs.Address.Faults
import ScopedConfig.Proofs.Address.Grammar
import ScopedConfig.Proofs.Address.Indexed
import ScopedConfig.Proofs.Address.Joining
import ScopedConfig.Proofs.Address.Listing
import ScopedConfig.Proofs.Address.Local
import ScopedConfig.Proofs.Address.Pieces
import ScopedConfig.Proofs.Address.Plain
import ScopedConfig.Proofs.Address.Reading
import ScopedConfig.Proofs.Address.Rendering
import ScopedConfig.Proofs.Address.Returning
import ScopedConfig.Proofs.Address.Spelling
import ScopedConfig.Proofs.Address.Splicing
import ScopedConfig.Proofs.Address.Stretch
import ScopedConfig.Proofs.Address.Substitution
import ScopedConfig.Proofs.Arena.Describing
import ScopedConfig.Proofs.Arena.Finding
import ScopedConfig.Proofs.Arena.Holding
import ScopedConfig.Proofs.Arena.Keys
import ScopedConfig.Proofs.Arena.Linking
import ScopedConfig.Proofs.Arena.Peeking
import ScopedConfig.Proofs.Arena.Planting
import ScopedConfig.Proofs.Arena.Recording
import ScopedConfig.Proofs.Arena.Refusing
import ScopedConfig.Proofs.Arena.Walking
import ScopedConfig.Proofs.Arena.Writing
import ScopedConfig.Proofs.Cursor
import ScopedConfig.Proofs.Document.Answering
import ScopedConfig.Proofs.Document.Assignment
import ScopedConfig.Proofs.Document.Batch
import ScopedConfig.Proofs.Document.Layout
import ScopedConfig.Proofs.Document.RoundTrip
import ScopedConfig.Proofs.Document.Running
import ScopedConfig.Proofs.Document.Statement
import ScopedConfig.Proofs.FileTree.Documents
import ScopedConfig.Proofs.FileTree.Walk
import ScopedConfig.Proofs.Json.Quoted
import ScopedConfig.Proofs.Number.Reading
import ScopedConfig.Proofs.Raw.Atomic
import ScopedConfig.Proofs.Raw.Basic
import ScopedConfig.Proofs.Raw.Climbing
import ScopedConfig.Proofs.Table
import ScopedConfig.Proofs.Text.Blank
import ScopedConfig.Proofs.Text.Bytes
import ScopedConfig.Proofs.Text.Escape
import ScopedConfig.Proofs.Text.Guarded
import ScopedConfig.Proofs.Text.Line
import ScopedConfig.Proofs.Text.Mark
import ScopedConfig.Proofs.Text.Nesting
import ScopedConfig.Proofs.Text.Quote
import ScopedConfig.Proofs.Text.Unicode
import ScopedConfig.Proofs.Tree.Basic
import ScopedConfig.Proofs.Tree.Commuting
import ScopedConfig.Proofs.Tree.Keys
import ScopedConfig.Proofs.Tree.Listing
import ScopedConfig.Proofs.Tree.Ordering
import ScopedConfig.Proofs.Tree.Outline
import ScopedConfig.Proofs.Tree.Refinement
import ScopedConfig.Proofs.Tree.Unfold
import ScopedConfig.Proofs.Tree.Visiting
import ScopedConfig.Proofs.Value.Display
import ScopedConfig.Proofs.Value.Items
import ScopedConfig.Proofs.Value.Json
import ScopedConfig.Proofs.Value.Literal
import ScopedConfig.Proofs.Workspace.Change
import ScopedConfig.Proofs.Workspace.Commuting
import ScopedConfig.Proofs.Workspace.Constancy
import ScopedConfig.Proofs.Workspace.Describing
import ScopedConfig.Proofs.Workspace.Detached
import ScopedConfig.Proofs.Workspace.Entries
import ScopedConfig.Proofs.Workspace.Footprint
import ScopedConfig.Proofs.Workspace.Invariants
import ScopedConfig.Proofs.Workspace.Leaving
import ScopedConfig.Proofs.Workspace.Local
import ScopedConfig.Proofs.Workspace.Loss
import ScopedConfig.Proofs.Workspace.Operation
import ScopedConfig.Proofs.Workspace.Permanence
import ScopedConfig.Proofs.Workspace.Reading
import ScopedConfig.Proofs.Workspace.Records
import ScopedConfig.Proofs.Workspace.Refusal
import ScopedConfig.Proofs.Workspace.Remembering
import ScopedConfig.Proofs.Workspace.Returning
import ScopedConfig.Proofs.Workspace.Setting
import ScopedConfig.Proofs.Workspace.Spelling
import ScopedConfig.Text.Blank
import ScopedConfig.Text.Escape
import ScopedConfig.Text.Hex
import ScopedConfig.Text.Line
import ScopedConfig.Text.Nesting
import ScopedConfig.Text.Pieces
import ScopedConfig.Text.Quote
import ScopedConfig.Text.Shown
import ScopedConfig.Text.Unseen
import ScopedConfig.Value.Basic
import ScopedConfig.Value.Display
import ScopedConfig.Value.Json
import ScopedConfig.Value.Literal
import ScopedConfig.Workspace.Assign
import ScopedConfig.Workspace.Basic
import ScopedConfig.Workspace.Create
import ScopedConfig.Workspace.LookUp
import ScopedConfig.Workspace.Operation
