import EntitySchema.Command.Arguments
import EntitySchema.Command.Directory
import EntitySchema.Command.Help
import EntitySchema.Command.Options
import EntitySchema.Command.Run
import EntitySchema.Configuration.Basic
import EntitySchema.Configuration.KeyPath
import EntitySchema.Configuration.Load
import EntitySchema.Configuration.Setting
import EntitySchema.CreateInput.Affected
import EntitySchema.CreateInput.Error
import EntitySchema.CreateInput.Generator
import EntitySchema.CreateInput.Preparation
import EntitySchema.CreateInput.Prepare
import EntitySchema.CreateInput.Reachable
import EntitySchema.CreateInput.Relations
import EntitySchema.CreateInput.Shape
import EntitySchema.Entries
import EntitySchema.Instant
import EntitySchema.Json.Decode
import EntitySchema.Json.Numeral
import EntitySchema.Json.Outline
import EntitySchema.Json.Printer
import EntitySchema.Json.Value
import EntitySchema.Main
import EntitySchema.Model.Basic
import EntitySchema.Model.Declaration
import EntitySchema.Model.DeclarationJson
import EntitySchema.Model.Resolve
import EntitySchema.Names
import EntitySchema.Number.Binary64
import EntitySchema.Number.Extended
import EntitySchema.Number.Shortest
import EntitySchema.Proofs.CreateInput.Inputs
import EntitySchema.Proofs.CreateInput.Prepared
import EntitySchema.Proofs.CreateInput.Supplied
import EntitySchema.Proofs.CreateInput.Unreported
import EntitySchema.Proofs.Entries
import EntitySchema.Proofs.Model.Resolved
import EntitySchema.Proofs.Names
import EntitySchema.Proofs.Results
import EntitySchema.Proofs.Sdl.Accepted
import EntitySchema.Proofs.Sdl.Constants
import EntitySchema.Proofs.Sdl.Definitions
import EntitySchema.Proofs.Sdl.Directives
import EntitySchema.Proofs.Sdl.Members
import EntitySchema.Proofs.Sdl.RoundTrip
import EntitySchema.Proofs.Sdl.Tokens
import EntitySchema.Proofs.Sdl.Values
import EntitySchema.Proofs.Sdl.WellFormed
import EntitySchema.Proofs.Search.Applying
import EntitySchema.Proofs.Search.Collections
import EntitySchema.Proofs.Search.Links
import EntitySchema.Proofs.Search.Outcome
import EntitySchema.Proofs.Search.Planning
import EntitySchema.Proofs.Search.Remaining
import EntitySchema.Proofs.Text.Scanner
import EntitySchema.Proofs.UpdateInput.References
import EntitySchema.Proofs.UpdateInput.Synthesized
import EntitySchema.Sdl.Document
import EntitySchema.Sdl.Grammar
import EntitySchema.Sdl.Rule
import EntitySchema.Sdl.Token
import EntitySchema.Sdl.Value
import EntitySchema.Search.Link
import EntitySchema.Search.Migration
import EntitySchema.Search.Plan
import EntitySchema.Search.Properties
import EntitySchema.Search.RequiredView
import EntitySchema.Search.Settings
import EntitySchema.Search.Store
import EntitySchema.Text.CaseMapping
import EntitySchema.Text.Columns
import EntitySchema.Text.Columns.Tables
import EntitySchema.Text.Columns.Ligature
import EntitySchema.Text.Scanner
import EntitySchema.Text.Escapes
import EntitySchema.Text.Table
import EntitySchema.Toml.Document
import EntitySchema.Toml.Scalar
import EntitySchema.Toml.Table
import EntitySchema.UpdateInput.Synthesis
import EntitySchema.Proofs.CreateInput.Deeper
import EntitySchema.Proofs.CreateInput.Endless
import EntitySchema.Proofs.CreateInput.RelationKeys
import EntitySchema.Proofs.CreateInput.Building
import EntitySchema.Proofs.CreateInput.Generation
import EntitySchema.Proofs.Search.Probing
import EntitySchema.Proofs.Search.Settling
import EntitySchema.Proofs.CreateInput.Rearranged
import EntitySchema.Proofs.CreateInput.Rejected
import EntitySchema.Proofs.Model.Violations
import EntitySchema.Proofs.CreateInput.Contents
import EntitySchema.Proofs.CreateInput.FaultyDefaults
import EntitySchema.Proofs.CreateInput.WalkOrder
import EntitySchema.Proofs.UpdateInput.InputNames
import EntitySchema.Proofs.UpdateInput.FieldNames
import EntitySchema.Proofs.Search.Routes
import EntitySchema.Proofs.UpdateInput.Faults
import EntitySchema.Proofs.UpdateInput.Layout
import EntitySchema.Proofs.UpdateInput.InputTypes
import EntitySchema.Proofs.UpdateInput.RootLinks
import EntitySchema.Proofs.Model.LinkTargets
import EntitySchema.Proofs.Search.Levels
import EntitySchema.Proofs.Search.Analyzers
import EntitySchema.Proofs.CreateInput.Lists
import EntitySchema.Proofs.CreateInput.ReachableInputs
import EntitySchema.Proofs.Json.Reading
import EntitySchema.Proofs.Search.JsonForms
import EntitySchema.Proofs.Json.Unordered
import EntitySchema.Proofs.Search.MigrationForms
import EntitySchema.Proofs.Model.DeclarationForms
import EntitySchema.Proofs.Json.Printing
import EntitySchema.Proofs.Search.Reloading
import EntitySchema.Proofs.UpdateInput.Repeated
import EntitySchema.Proofs.Search.Depth
import EntitySchema.Proofs.Search.KeyOrder
import EntitySchema.Proofs.CreateInput.Collected
import EntitySchema.Proofs.Instant.Calendar
import EntitySchema.Proofs.Instant.TextOrder
import EntitySchema.Proofs.CreateInput.Timestamps
import EntitySchema.Proofs.Model.Arrangement
import EntitySchema.Proofs.Model.Positions
