import StaticSite.Calendar
import StaticSite.Command.Argument
import StaticSite.Command.Markup
import StaticSite.Command.Message
import StaticSite.Command.Run
import StaticSite.Config.Files
import StaticSite.Config.Layer
import StaticSite.Config.Options
import StaticSite.Data.Binding
import StaticSite.Data.Source
import StaticSite.Distinct
import StaticSite.Expansion.Entries
import StaticSite.Expansion.Partial
import StaticSite.FileTree.Basic
import StaticSite.FileTree.Change
import StaticSite.FileTree.Difference
import StaticSite.Glob.Braces
import StaticSite.Glob.Files
import StaticSite.Glob.Ignore
import StaticSite.Glob.Pattern
import StaticSite.Hook.Basic
import StaticSite.Hook.Import
import StaticSite.Json.Fault
import StaticSite.Json.File
import StaticSite.Json.Reader
import StaticSite.Main
import StaticSite.Number.Binary64
import StaticSite.Number.Decimal
import StaticSite.Number.Reading
import StaticSite.Page
import StaticSite.Path.Basic
import StaticSite.Path.Drive
import StaticSite.Path.Output
import StaticSite.Path.Resolve
import StaticSite.Site.Assets
import StaticSite.Site.Basic
import StaticSite.Site.Build
import StaticSite.Site.Render
import StaticSite.Site.Schedule
import StaticSite.Sitemap
import StaticSite.Template.Document
import StaticSite.Template.Evaluation
import StaticSite.Template.Expr
import StaticSite.Template.Fault
import StaticSite.Template.Field
import StaticSite.Template.Filter
import StaticSite.Template.Folding
import StaticSite.Template.Item
import StaticSite.Template.Names
import StaticSite.Template.Operation
import StaticSite.Template.Reader.Basic
import StaticSite.Template.Reader.Expr
import StaticSite.Template.Reader.Statement
import StaticSite.Template.Rendering
import StaticSite.Template.Settings
import StaticSite.Template.Token
import StaticSite.Text.Base64
import StaticSite.Text.Case
import StaticSite.Text.CaseTable
import StaticSite.Text.CodeSet
import StaticSite.Text.Digit
import StaticSite.Text.Half
import StaticSite.Text.Hex
import StaticSite.Text.NameTable
import StaticSite.Text.Position
import StaticSite.Text.PrintableTable
import StaticSite.Text.Quoted
import StaticSite.Text.Split
import StaticSite.Text.Utf8
import StaticSite.Url.Basic
import StaticSite.Url.Escape
import StaticSite.Url.Host
import StaticSite.Value.Basic
import StaticSite.Value.Knot
import StaticSite.Value.Text
import StaticSite.Watch.Event
import StaticSite.Watch.Polling
import StaticSite.Watch.Queue
import StaticSite.Watch.Session
import StaticSite.Watch.Update
import StaticSite.Yaml.Cursor
import StaticSite.Yaml.Fault
import StaticSite.Yaml.Node
import StaticSite.Yaml.Reader
import StaticSite.Yaml.Scalar
import StaticSite.Yaml.ScalarValue
import StaticSite.Yaml.Tag
import StaticSite.Yaml.Token
import StaticSite.Watch.Live
import StaticSite.Proofs.Watch.Order
import StaticSite.Proofs.Site.Draft
import StaticSite.Proofs.Site.Finish
import StaticSite.Proofs.FileTree.Trail
import StaticSite.Proofs.FileTree.MakeDirs
import StaticSite.Proofs.FileTree.Area
import StaticSite.Proofs.Site.Alike
import StaticSite.Proofs.Site.Deposit
import StaticSite.Proofs.Site.Writing
import StaticSite.Proofs.Site.Reading
import StaticSite.Proofs.Site.Working
import StaticSite.Proofs.Path.Sorted
import StaticSite.Proofs.Glob.View
import StaticSite.Proofs.Site.Scheduling
import StaticSite.Proofs.Site.AnyOrder
import StaticSite.Proofs.Site.Deleting
import StaticSite.Proofs.Watch.Updating
import StaticSite.Proofs.Watch.Interleaving
import StaticSite.Proofs.Glob.Names
import StaticSite.Proofs.Expansion.Elements
import StaticSite.Proofs.Expansion.Places
import StaticSite.Proofs.Site.Confined
import StaticSite.Proofs.Site.Targets
import StaticSite.Proofs.Site.Accounts
import StaticSite.Proofs.Watch.Confined
import StaticSite.Proofs.FileTree.Growing
import StaticSite.Proofs.Glob.Growing
import StaticSite.Proofs.Site.Lasting
import StaticSite.Proofs.Expansion.Again
import StaticSite.Proofs.Site.Again
import StaticSite.Proofs.Site.Idle
import StaticSite.Proofs.Watch.Rebuilding
import StaticSite.Proofs.Watch.Incremental
import StaticSite.Proofs.Config.Escaping
import StaticSite.Proofs.Config.Precedence
import StaticSite.Proofs.Path.Text
import StaticSite.Proofs.Site.AnyProcess
import StaticSite.Proofs.Expansion.Roots
import StaticSite.Proofs.Expansion.Matches
import StaticSite.Proofs.Expansion.Composition
import StaticSite.Proofs.Site.Standing
import StaticSite.Proofs.Site.Manifest
import StaticSite.Proofs.Site.Inputs
import StaticSite.Proofs.Site.Delivering
import StaticSite.Proofs.Site.Unwritten
import StaticSite.Proofs.Command.Status
import StaticSite.Watch.Lifecycle
import StaticSite.Proofs.Watch.Lifecycle
import StaticSite.Proofs.Path.Output
import StaticSite.Proofs.Glob.AnyGroup
import StaticSite.Proofs.Glob.BraceTree
import StaticSite.Proofs.Glob.LiteralGroup
import StaticSite.Proofs.Url.Decoding
import StaticSite.Proofs.Url.Text
import StaticSite.Proofs.Url.Tokens
import StaticSite.Proofs.Site.Addresses
import StaticSite.Proofs.Path.Ascent
import StaticSite.Proofs.Url.Escaping
import StaticSite.Proofs.Site.Atomic
import StaticSite.Proofs.Expansion.Naming
import StaticSite.Proofs.Watch.Removal
import StaticSite.Proofs.Watch.Publishing
import StaticSite.Proofs.Value.Union
import StaticSite.Proofs.Config.Algebra
import StaticSite.Proofs.Text.File
import StaticSite.Proofs.Data.Accessors
import StaticSite.Proofs.Value.Text
import StaticSite.Proofs.Config.RoundTrip
import StaticSite.Proofs.Site.ReadBack
import StaticSite.Proofs.Data.Spelling
import StaticSite.Proofs.Expansion.Extension
import StaticSite.Proofs.FileTree.Abreast
import StaticSite.Proofs.Glob.Union
import StaticSite.Proofs.Site.Reserved
import StaticSite.Proofs.Text.LowerCase
import StaticSite.Proofs.Template.Variables
import StaticSite.Proofs.Expansion.FanOut
