import Prerender.Files.Path
import Prerender.Files.System
import Prerender.Files.Tree
import Prerender.Html.Attribute
import Prerender.Html.Document
import Prerender.Html.Escape
import Prerender.Html.Renderer
import Prerender.Json.Basic
import Prerender.Json.Printer
import Prerender.Json.Quoted
import Prerender.Json.Reader
import Prerender.Number.Double
import Prerender.Number.Layout
import Prerender.Number.Power
import Prerender.Number.Reading
import Prerender.Number.Shortest
import Prerender.OrderedMap
import Prerender.Payload.Basic
import Prerender.Payload.Script
import Prerender.Proofs.Files.Alike
import Prerender.Proofs.Files.Directories
import Prerender.Proofs.Files.Frame
import Prerender.Proofs.Files.Path
import Prerender.Proofs.Files.Tree
import Prerender.Proofs.Files.Way
import Prerender.Proofs.Html.Events
import Prerender.Proofs.Html.Reader
import Prerender.Proofs.Html.Safety
import Prerender.Proofs.Html.Shown
import Prerender.Proofs.Json.Compact
import Prerender.Proofs.Json.Overlay
import Prerender.Proofs.Json.Path
import Prerender.Proofs.Json.Quoted
import Prerender.Proofs.Number.Digits
import Prerender.Proofs.Number.Reading
import Prerender.Proofs.Number.Rounding
import Prerender.Proofs.Number.Shortest
import Prerender.Proofs.Payload.Code
import Prerender.Proofs.Payload.Entries
import Prerender.Proofs.Payload.Fields
import Prerender.Proofs.Payload.Groups
import Prerender.Proofs.Payload.Labels
import Prerender.Proofs.Payload.Minified
import Prerender.Proofs.Payload.Pieces
import Prerender.Proofs.Payload.References
import Prerender.Proofs.Reactive.Session
import Prerender.Proofs.Resolve.Classified
import Prerender.Proofs.Resolve.Content
import Prerender.Proofs.Resolve.Continued
import Prerender.Proofs.Resolve.Effect
import Prerender.Proofs.Resolve.Failure
import Prerender.Proofs.Resolve.FirstOffence
import Prerender.Proofs.Resolve.FirstPaint
import Prerender.Proofs.Resolve.KeyCourse
import Prerender.Proofs.Resolve.Numbering
import Prerender.Proofs.Resolve.Outcome
import Prerender.Proofs.Resolve.Replaced
import Prerender.Proofs.Resolve.Settled
import Prerender.Proofs.Resolve.Step
import Prerender.Proofs.Resolve.Straighten
import Prerender.Proofs.Resolve.Success
import Prerender.Proofs.Resolve.Walk
import Prerender.Proofs.Resolve.WrittenKeys
import Prerender.Proofs.Script.Minify
import Prerender.Proofs.Script.Runs
import Prerender.Proofs.Settings.Field
import Prerender.Proofs.Settings.Loading
import Prerender.Proofs.Settings.Precedence
import Prerender.Proofs.Settings.Variables
import Prerender.Proofs.Site.Addresses
import Prerender.Proofs.Site.Build
import Prerender.Proofs.Site.Confined
import Prerender.Proofs.Site.Discovery
import Prerender.Proofs.Site.Footprint
import Prerender.Proofs.Site.Isolation
import Prerender.Proofs.Site.Modes
import Prerender.Proofs.Site.PagePath
import Prerender.Proofs.Site.Remains
import Prerender.Proofs.Site.ShownKeys
import Prerender.Proofs.Steps
import Prerender.Proofs.Text.Bytes
import Prerender.Proofs.Text.Case
import Prerender.Proofs.Text.OsText
import Prerender.Proofs.Text.Told
import Prerender.Proofs.Toml.Ordered
import Prerender.Proofs.Tree.OptionName
import Prerender.Proofs.Tree.Parts
import Prerender.Reactive.Cell
import Prerender.Reactive.Group
import Prerender.Reactive.Scope
import Prerender.Reactive.Value
import Prerender.Resolve.Host
import Prerender.Resolve.Pass
import Prerender.Resolve.Tree
import Prerender.Script.Minify
import Prerender.Script.Options
import Prerender.Settings.Basic
import Prerender.Settings.Decode
import Prerender.Settings.Layers
import Prerender.Settings.Source
import Prerender.Site.Builder
import Prerender.Site.Discovery
import Prerender.Site.Error
import Prerender.Site.PagePath
import Prerender.Site.Registry
import Prerender.Sorted
import Prerender.Text.Blank
import Prerender.Text.Case
import Prerender.Text.Debug
import Prerender.Text.Digits
import Prerender.Text.Letters
import Prerender.Text.OsText
import Prerender.Text.Unseen
import Prerender.Toml.Moment
import Prerender.Toml.Quoted
import Prerender.Toml.Reader
import Prerender.Toml.Scalar
import Prerender.Toml.Table
import Prerender.Toml.Value
import Prerender.Tree.Node
import Prerender.Tree.OptionName
import Prerender.Tree.Tag
