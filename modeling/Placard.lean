import Placard.CommandLine.Arguments
import Placard.CommandLine.Run
import Placard.Debounce
import Placard.Decimal.Layout
import Placard.Decimal.Reader
import Placard.Decimal.Rounding
import Placard.Decimal.Shortest
import Placard.Digest.Base64
import Placard.Digest.Sha256
import Placard.Family.Edit
import Placard.Family.Library
import Placard.Family.Overrides
import Placard.Field.Binding
import Placard.Field.Catalog
import Placard.Field.Preview
import Placard.Field.Variable
import Placard.Json.Decode
import Placard.Json.Printer
import Placard.Json.Reader
import Placard.Json.Source
import Placard.Json.Value
import Placard.Main
import Placard.Overlay
import Placard.Proofs.Debounce
import Placard.Proofs.Decimal.Digits
import Placard.Proofs.Decimal.Magnitude
import Placard.Proofs.Decimal.Naturals
import Placard.Proofs.Decimal.Rounded
import Placard.Proofs.Decimal.Whole
import Placard.Proofs.Digest.Base64
import Placard.Proofs.Family.Badges
import Placard.Proofs.Family.Commuting
import Placard.Proofs.Family.Confinement
import Placard.Proofs.Family.FlagSets
import Placard.Proofs.Family.Flags
import Placard.Proofs.Family.Layerwise
import Placard.Proofs.Family.Lifetime
import Placard.Proofs.Family.Links
import Placard.Proofs.Family.Loops
import Placard.Proofs.Family.Mirror
import Placard.Proofs.Family.Operations
import Placard.Proofs.Family.Ownership
import Placard.Proofs.Family.Pairs
import Placard.Proofs.Family.Pruned
import Placard.Proofs.Family.Resetting
import Placard.Proofs.Family.Resyncing
import Placard.Proofs.Family.Stacking
import Placard.Proofs.Family.Tracking
import Placard.Proofs.Family.Validity
import Placard.Proofs.Family.WellFormed
import Placard.Proofs.Field.History
import Placard.Proofs.Field.Naming
import Placard.Proofs.Field.Numbering
import Placard.Proofs.Field.Seeds
import Placard.Proofs.Field.UpToDate
import Placard.Proofs.Json.Canonical
import Placard.Proofs.Json.Decoding
import Placard.Proofs.Json.Finite
import Placard.Proofs.Json.Holding
import Placard.Proofs.Json.Normal
import Placard.Proofs.Json.ReadBack
import Placard.Proofs.Json.Refusing
import Placard.Proofs.Json.Scalars
import Placard.Proofs.Json.Yielding
import Placard.Proofs.Overlay.Boxes
import Placard.Proofs.Overlay.Pictures
import Placard.Proofs.Session.Background
import Placard.Proofs.Session.FieldEdits
import Placard.Proofs.Session.Following
import Placard.Proofs.Session.Layerwise
import Placard.Proofs.Session.Rebinding
import Placard.Proofs.Session.Refusing
import Placard.Proofs.Session.Rendering
import Placard.Proofs.Session.Requests
import Placard.Proofs.Session.Restoring
import Placard.Proofs.Session.Runs
import Placard.Proofs.Session.Tokens
import Placard.Proofs.Steps
import Placard.Proofs.Template.Changes
import Placard.Proofs.Template.Copying
import Placard.Proofs.Template.Defects
import Placard.Proofs.Template.Drawing
import Placard.Proofs.Template.Edits
import Placard.Proofs.Template.Export
import Placard.Proofs.Template.Formulas
import Placard.Proofs.Template.Imported
import Placard.Proofs.Template.Keys
import Placard.Proofs.Template.Layerwise
import Placard.Proofs.Template.Lens
import Placard.Proofs.Template.Measures
import Placard.Proofs.Template.Others
import Placard.Proofs.Template.Overwriting
import Placard.Proofs.Template.Parts
import Placard.Proofs.Template.RoundTrip
import Placard.Proofs.Template.Taking
import Placard.Proofs.Template.Validity
import Placard.Proofs.Template.Writing
import Placard.Proofs.Text.ByteOrder
import Placard.Proofs.Text.Escape
import Placard.Proofs.Text.Occurrence
import Placard.Proofs.Text.Search
import Placard.Proofs.Text.Split
import Placard.Proofs.Version
import Placard.Proofs.Wire.Address
import Placard.Proofs.Wire.Arrangement
import Placard.Proofs.Wire.Blocks
import Placard.Proofs.Wire.Chains
import Placard.Proofs.Wire.Contents
import Placard.Proofs.Wire.Credit
import Placard.Proofs.Wire.Derivations
import Placard.Proofs.Wire.Discipline
import Placard.Proofs.Wire.Encoders
import Placard.Proofs.Wire.Forms
import Placard.Proofs.Wire.Kinds
import Placard.Proofs.Wire.Likeness
import Placard.Proofs.Wire.Literals
import Placard.Proofs.Wire.LookUps
import Placard.Proofs.Wire.Looks
import Placard.Proofs.Wire.Machine
import Placard.Proofs.Wire.Matching
import Placard.Proofs.Wire.Meaning
import Placard.Proofs.Wire.Nonempty
import Placard.Proofs.Wire.Order
import Placard.Proofs.Wire.Preview
import Placard.Proofs.Wire.ReadBack
import Placard.Proofs.Wire.RenderKey
import Placard.Proofs.Wire.Resolution
import Placard.Proofs.Wire.Seeding
import Placard.Proofs.Wire.Separators
import Placard.Proofs.Wire.Settling
import Placard.Proofs.Wire.Tokens
import Placard.Proofs.Wire.Walk
import Placard.Render
import Placard.Session.Basic
import Placard.Session.Snapshot
import Placard.Settings
import Placard.Table
import Placard.Template.Basic
import Placard.Template.Check
import Placard.Template.Codec
import Placard.Template.Formula
import Placard.Template.Import
import Placard.Template.Layer
import Placard.Template.Property
import Placard.Template.Scalars
import Placard.Template.Size
import Placard.Template.Value
import Placard.Text.Blank
import Placard.Text.Reserved
import Placard.Text.Split
import Placard.Version
import Placard.Wire.Command
import Placard.Wire.Derivation
import Placard.Wire.Fragment
import Placard.Wire.Placement
import Placard.Wire.Plan
import Placard.Wire.Provenance
