import LootFilter.Main
import LootFilter.Proofs.CommandLine.Exit
import LootFilter.Proofs.Document.BaseMessage
import LootFilter.Proofs.Document.BaseVerdict
import LootFilter.Proofs.Document.Exchange
import LootFilter.Proofs.Document.Extent
import LootFilter.Proofs.Document.Failure
import LootFilter.Proofs.Document.Leniency
import LootFilter.Proofs.Document.LineEnds
import LootFilter.Proofs.Document.Locality
import LootFilter.Proofs.Document.Placement
import LootFilter.Proofs.Document.Stepping
import LootFilter.Proofs.Document.Unread
import LootFilter.Proofs.Document.Whitelists
import LootFilter.Proofs.Document.Widening
import LootFilter.Proofs.Editor.Agreement
import LootFilter.Proofs.Editor.Coherence
import LootFilter.Proofs.Editor.Completion
import LootFilter.Proofs.Editor.EditRange
import LootFilter.Proofs.Editor.Position
import LootFilter.Proofs.Editor.Quoting
import LootFilter.Proofs.Editor.Segmentation
import LootFilter.Proofs.Editor.SuggestionRange
import LootFilter.Proofs.Editor.Verdict
import LootFilter.Proofs.Line.Annotation
import LootFilter.Proofs.Line.Comment
import LootFilter.Proofs.Line.Dispatch
import LootFilter.Proofs.Line.Head
import LootFilter.Proofs.Line.Motion
import LootFilter.Proofs.Line.Padding
import LootFilter.Proofs.Line.Repainting
import LootFilter.Proofs.Line.Saturation
import LootFilter.Proofs.Line.ValueVerdicts
import LootFilter.Proofs.Reference.BaseNames
import LootFilter.Proofs.Reference.CheckedIndex
import LootFilter.Proofs.Reference.ComputedIndex
import LootFilter.Proofs.Reference.IndexedSearch
import LootFilter.Proofs.Report.Underline
import LootFilter.Proofs.Rule.Acceptance
import LootFilter.Proofs.Rule.Effect
import LootFilter.Proofs.Rule.Motion
import LootFilter.Proofs.Rule.Severity
import LootFilter.Proofs.Scanner.Fields
import LootFilter.Proofs.Scanner.Requests
import LootFilter.Proofs.Settings.Overlay
import LootFilter.Proofs.Text.Lines
