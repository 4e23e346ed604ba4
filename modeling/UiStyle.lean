import UiStyle.Text.Basic
import UiStyle.Decimal
import UiStyle.Value.Keywords
import UiStyle.Value.Measure
import UiStyle.Value.Color
import UiStyle.Value.Basic
import UiStyle.Declaration
import UiStyle.Journal
import UiStyle.Builder
import UiStyle.Sheet
import UiStyle.Json.Number
import UiStyle.Json.Reader
import UiStyle.Json.Record
import UiStyle.Manifest.Load
import UiStyle.Disk
import UiStyle.Export
import UiStyle.Workspace
import UiStyle.CommandLine.Run
import UiStyle.Main
import UiStyle.Proofs.Selector.RuleMap
import UiStyle.Proofs.Selector.WellFormed
import UiStyle.Proofs.Manifest.Numbering
import UiStyle.Proofs.Sheet.WellFormed
import UiStyle.Proofs.Workspace.WellFormed
import UiStyle.Proofs.Rule.Text
import UiStyle.Proofs.Sheet.Decoding
import UiStyle.Proofs.Text.Words
import UiStyle.Proofs.Value.Text
import UiStyle.Proofs.Declaration.Text
import UiStyle.Proofs.Lists
import UiStyle.Proofs.Json.Yields
import UiStyle.Proofs.Manifest.Contents
import UiStyle.Proofs.Manifest.Order
import UiStyle.Proofs.Disk.Following
import UiStyle.Proofs.Disk.Growth
import UiStyle.Proofs.Export.Outcome
import UiStyle.Proofs.Export.Overwrite
import UiStyle.Proofs.Export.Containment
import UiStyle.Proofs.Declaration.Reports
import UiStyle.Proofs.Manifest.Offences
import UiStyle.Proofs.Rule.Settled
import UiStyle.Proofs.Manifest.Settled
import UiStyle.Proofs.Manifest.Reload
import UiStyle.Proofs.Text.Quoted
import UiStyle.Proofs.Value.Color
import UiStyle.Proofs.Declaration.Color
import UiStyle.Proofs.Sheet.Ledger
import UiStyle.Proofs.Workspace.Identity
import UiStyle.Proofs.CommandLine.Modes
import UiStyle.Proofs.Manifest.Reports
import UiStyle.Proofs.Sheet.Spacing
import UiStyle.Proofs.Workspace.Editing
import UiStyle.Proofs.CommandLine.Warnings
import UiStyle.Proofs.Selector.Revisions
import UiStyle.Proofs.Selector.History
import UiStyle.Proofs.Sheet.Verdicts
import UiStyle.Proofs.Export.Aftermath
import UiStyle.Proofs.Binary.Nearest
import UiStyle.Proofs.Binary.Equality
import UiStyle.Proofs.Decimal.ReadBack
import UiStyle.Proofs.Decimal.Plain
import UiStyle.Proofs.Value.Equality
import UiStyle.Proofs.Value.Measure
import UiStyle.Proofs.Value.Opacity
import UiStyle.Proofs.Declaration.Legality
import UiStyle.Proofs.Declaration.Asset
import UiStyle.Proofs.Rule.Origin
import UiStyle.Proofs.Rule.Nameless
import UiStyle.Proofs.Manifest.Written
import UiStyle.Proofs.Binary.Product
import UiStyle.Proofs.Value.Channel
import UiStyle.Proofs.Value.Spelling
import UiStyle.Proofs.Declaration.Wording
import UiStyle.Proofs.Workspace.Visits
