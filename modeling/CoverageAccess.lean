import CoverageAccess.Box.Basic
import CoverageAccess.Box.Envelope
import CoverageAccess.Box.Query
import CoverageAccess.Box.Relation
import CoverageAccess.Cache.Basic
import CoverageAccess.Cache.Lookups
import CoverageAccess.Cache.Metadata
import CoverageAccess.Catalog.Basic
import CoverageAccess.Catalog.Edition
import CoverageAccess.Catalog.Fixed
import CoverageAccess.Catalog.Listed
import CoverageAccess.Catalog.Refusal
import CoverageAccess.Catalog.Remote
import CoverageAccess.CommandLine.Environment
import CoverageAccess.CommandLine.Options
import CoverageAccess.CommandLine.Outline
import CoverageAccess.CommandLine.Run
import CoverageAccess.Constraint
import CoverageAccess.Coverage
import CoverageAccess.Dataset.Basic
import CoverageAccess.Dataset.Derived
import CoverageAccess.Dataset.Extent
import CoverageAccess.Dataset.Grid
import CoverageAccess.Digest
import CoverageAccess.Fault
import CoverageAccess.Files
import CoverageAccess.Format
import CoverageAccess.Gateway
import CoverageAccess.Main
import CoverageAccess.Markup.Document
import CoverageAccess.Markup.Element
import CoverageAccess.Markup.Escape
import CoverageAccess.Markup.Node
import CoverageAccess.Markup.Token
import CoverageAccess.Number.Integer
import CoverageAccess.Number.Real
import CoverageAccess.Number.Shortest
import CoverageAccess.Proofs.Box.Constructed
import CoverageAccess.Proofs.Box.Envelope
import CoverageAccess.Proofs.Box.Pairing
import CoverageAccess.Proofs.Box.Query
import CoverageAccess.Proofs.Box.Union
import CoverageAccess.Proofs.Cache.Exclusion
import CoverageAccess.Proofs.Cache.Fetching
import CoverageAccess.Proofs.Cache.Healing
import CoverageAccess.Proofs.Cache.Lookups
import CoverageAccess.Proofs.Cache.Registry
import CoverageAccess.Proofs.Cache.Transparency
import CoverageAccess.Proofs.Cache.Truncation
import CoverageAccess.Proofs.Cache.Visits
import CoverageAccess.Proofs.Catalog.Agreement
import CoverageAccess.Proofs.Catalog.Edition
import CoverageAccess.Proofs.Catalog.Listed
import CoverageAccess.Proofs.Catalog.Listing
import CoverageAccess.Proofs.Catalog.Remote
import CoverageAccess.Proofs.Catalog.Versions
import CoverageAccess.Proofs.Constraint.Clause
import CoverageAccess.Proofs.Constraint.Comparison
import CoverageAccess.Proofs.Constraint.Expression
import CoverageAccess.Proofs.Constraint.Failure
import CoverageAccess.Proofs.Constraint.Hyperslab
import CoverageAccess.Proofs.Constraint.Nesting
import CoverageAccess.Proofs.Constraint.Reading
import CoverageAccess.Proofs.Dataset.Container
import CoverageAccess.Proofs.Dataset.Declared
import CoverageAccess.Proofs.Dataset.Derived
import CoverageAccess.Proofs.Dataset.Extent
import CoverageAccess.Proofs.Dataset.Grid
import CoverageAccess.Proofs.Dataset.Range
import CoverageAccess.Proofs.Dataset.Storage
import CoverageAccess.Proofs.Gateway
import CoverageAccess.Proofs.Markup.Escape
import CoverageAccess.Proofs.Markup.Lookup
import CoverageAccess.Proofs.Markup.Tag
import CoverageAccess.Proofs.Markup.Truncation
import CoverageAccess.Proofs.Markup.Written
import CoverageAccess.Proofs.Number.Integer
import CoverageAccess.Proofs.Number.Order
import CoverageAccess.Proofs.Number.Packed
import CoverageAccess.Proofs.Number.Plain
import CoverageAccess.Proofs.Number.Rounding
import CoverageAccess.Proofs.Number.Scientific
import CoverageAccess.Proofs.Number.Shortest
import CoverageAccess.Proofs.Number.Signed
import CoverageAccess.Proofs.Number.Whole
import CoverageAccess.Proofs.Outcome
import CoverageAccess.Proofs.Picking
import CoverageAccess.Proofs.Query
import CoverageAccess.Proofs.Report
import CoverageAccess.Proofs.Request.Document
import CoverageAccess.Proofs.Request.Entering
import CoverageAccess.Proofs.Request.Order
import CoverageAccess.Proofs.Request.Parts
import CoverageAccess.Proofs.Request.Query
import CoverageAccess.Proofs.Request.Reread
import CoverageAccess.Proofs.Request.Unsupported
import CoverageAccess.Proofs.Scaling.AxisList
import CoverageAccess.Proofs.Scaling.Heeded
import CoverageAccess.Proofs.Scaling.Markup
import CoverageAccess.Proofs.Scaling.Query
import CoverageAccess.Proofs.Series
import CoverageAccess.Proofs.Subset.Bounds
import CoverageAccess.Proofs.Subset.Clause
import CoverageAccess.Proofs.Subset.Confined
import CoverageAccess.Proofs.Subset.Markup
import CoverageAccess.Proofs.Subset.Text
import CoverageAccess.Proofs.Text.Percent
import CoverageAccess.Proofs.Text.Split
import CoverageAccess.Proofs.Text.Trim
import CoverageAccess.Proofs.Text.Utf8
import CoverageAccess.Proofs.Time.Calendar
import CoverageAccess.Proofs.Time.Epoch
import CoverageAccess.Proofs.Time.Instant
import CoverageAccess.Proofs.Time.Position
import CoverageAccess.Proofs.Time.Units
import CoverageAccess.Proofs.Time.Zone
import CoverageAccess.Query
import CoverageAccess.Request.Basic
import CoverageAccess.Request.Markup
import CoverageAccess.Request.Query
import CoverageAccess.Routes
import CoverageAccess.Scaling.Basic
import CoverageAccess.Scaling.Markup
import CoverageAccess.Scaling.Query
import CoverageAccess.Series
import CoverageAccess.Service
import CoverageAccess.Settings.Description
import CoverageAccess.Settings.Document
import CoverageAccess.Settings.Gateway
import CoverageAccess.Settings.Listing
import CoverageAccess.Settings.Placed
import CoverageAccess.Settings.Scalar
import CoverageAccess.Settings.Token
import CoverageAccess.Settings.Value
import CoverageAccess.Subset.Basic
import CoverageAccess.Subset.Clause
import CoverageAccess.Subset.Markup
import CoverageAccess.Subset.Text
import CoverageAccess.Table
import CoverageAccess.Text.Alphanumeric
import CoverageAccess.Text.Blank
import CoverageAccess.Text.Class
import CoverageAccess.Text.Hex
import CoverageAccess.Text.Percent
import CoverageAccess.Text.Quoted
import CoverageAccess.Text.Shown
import CoverageAccess.Text.Split
import CoverageAccess.Text.Utf8
import CoverageAccess.Time.Calendar
import CoverageAccess.Time.Instant
import CoverageAccess.Time.Position
import CoverageAccess.Time.Units
