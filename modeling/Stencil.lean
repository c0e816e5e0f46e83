import Stencil.CommandLine.Arguments
import Stencil.CommandLine.Log
import Stencil.CommandLine.Report
import Stencil.CommandLine.Run
import Stencil.Data.Builtin
import Stencil.Data.Context
import Stencil.Data.Display
import Stencil.Data.Moment
import Stencil.Data.Record
import Stencil.Data.Resolve
import Stencil.Data.Value
import Stencil.Decimal.Binary
import Stencil.Decimal.Notation
import Stencil.Decimal.Shortest
import Stencil.Engine
import Stencil.Loader
import Stencil.Localization.Catalog
import Stencil.Localization.Directory
import Stencil.Localization.Skeleton
import Stencil.Main
import Stencil.Render.Diagnostic
import Stencil.Render.Run
import Stencil.Settings
import Stencil.Storage.Disk
import Stencil.Storage.Path
import Stencil.Storage.Text
import Stencil.Template.Compile
import Stencil.Template.Cursor
import Stencil.Template.Directive
import Stencil.Template.Display
import Stencil.Template.Equality
import Stencil.Template.Escape
import Stencil.Template.Fault
import Stencil.Template.Nesting
import Stencil.Template.Occurrence
import Stencil.Template.Syntax
import Stencil.Template.Token
import Stencil.Template.Window
import Stencil.Text.Blank
import Stencil.Text.Charset
import Stencil.Text.Json
import Stencil.Text.Mark
import Stencil.Text.Newline
import Stencil.Text.Quoted
import Stencil.Text.Unseen
import Stencil.Text.Utf8
import Stencil.Traced
import Stencil.Yaml.Builtin
import Stencil.Yaml.Document
import Stencil.Yaml.Fault
import Stencil.Yaml.Folding
import Stencil.Yaml.Key
import Stencil.Yaml.Library
import Stencil.Yaml.Node
import Stencil.Yaml.Scalar
import Stencil.Yaml.Spot
import Stencil.Yaml.Timestamp
import Stencil.Yaml.Token
import Stencil.Proofs.CommandLine.Finish
import Stencil.Proofs.CommandLine.Reasons
import Stencil.Proofs.CommandLine.Wording
import Stencil.Proofs.Data.Holding
import Stencil.Proofs.Data.Pairing
import Stencil.Proofs.Data.Paths
import Stencil.Proofs.Data.Scopes
import Stencil.Proofs.Failing
import Stencil.Proofs.Loader.Chain
import Stencil.Proofs.Loader.Compilation
import Stencil.Proofs.Loader.Confinement
import Stencil.Proofs.Loader.Directory
import Stencil.Proofs.Loader.Protocol
import Stencil.Proofs.Localization.Atomicity
import Stencil.Proofs.Localization.Enumeration
import Stencil.Proofs.Localization.Filling
import Stencil.Proofs.Localization.Grouping
import Stencil.Proofs.Localization.History
import Stencil.Proofs.Localization.Regions
import Stencil.Proofs.Render.Agreement
import Stencil.Proofs.Render.Answer
import Stencil.Proofs.Render.Attribution
import Stencil.Proofs.Render.Bookkeeping
import Stencil.Proofs.Render.Comparison
import Stencil.Proofs.Render.Concatenation
import Stencil.Proofs.Render.Cycle
import Stencil.Proofs.Render.Dependence
import Stencil.Proofs.Render.Disclosure
import Stencil.Proofs.Render.Elements
import Stencil.Proofs.Render.Extraction
import Stencil.Proofs.Render.Inclusion
import Stencil.Proofs.Render.Levels
import Stencil.Proofs.Render.Nesting
import Stencil.Proofs.Render.Origin
import Stencil.Proofs.Render.Quiet
import Stencil.Proofs.Render.Records
import Stencil.Proofs.Render.Stack
import Stencil.Proofs.Render.Verbatim
import Stencil.Proofs.Render.Yield
import Stencil.Proofs.Storage.Faults
import Stencil.Proofs.Storage.Listing
import Stencil.Proofs.Storage.Normalization
import Stencil.Proofs.Storage.Text
import Stencil.Proofs.Storage.Writing
import Stencil.Proofs.Template.Abreast
import Stencil.Proofs.Template.Backslashes
import Stencil.Proofs.Template.Builds
import Stencil.Proofs.Template.Crossing
import Stencil.Proofs.Template.Cutout
import Stencil.Proofs.Template.Descent
import Stencil.Proofs.Template.Enclosure
import Stencil.Proofs.Template.Grammar
import Stencil.Proofs.Template.Heads
import Stencil.Proofs.Template.Inplace
import Stencil.Proofs.Template.Items
import Stencil.Proofs.Template.Likeness
import Stencil.Proofs.Template.Matching
import Stencil.Proofs.Template.Names
import Stencil.Proofs.Template.Occurrences
import Stencil.Proofs.Template.Operations
import Stencil.Proofs.Template.Place
import Stencil.Proofs.Template.Positions
import Stencil.Proofs.Template.Preorder
import Stencil.Proofs.Template.Printer
import Stencil.Proofs.Template.Progress
import Stencil.Proofs.Template.Proper
import Stencil.Proofs.Template.Readback
import Stencil.Proofs.Template.Reading
import Stencil.Proofs.Template.Rescanning
import Stencil.Proofs.Template.Respacing
import Stencil.Proofs.Template.Roles
import Stencil.Proofs.Template.RoundTrip
import Stencil.Proofs.Template.Seam
import Stencil.Proofs.Template.Separation
import Stencil.Proofs.Template.Spelling
import Stencil.Proofs.Template.Stretch
import Stencil.Proofs.Template.Tiling
import Stencil.Proofs.Template.Window
import Stencil.Proofs.Template.Written
import Stencil.Proofs.Text.Json
import Stencil.Proofs.Text.Utf8
import Stencil.Proofs.Traced
