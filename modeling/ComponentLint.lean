import ComponentLint.Main
import ComponentLint.Proofs.Fix.Idempotence
import ComponentLint.Proofs.Fix.Source
import ComponentLint.Proofs.Lookup
import ComponentLint.Proofs.Renumbered
import ComponentLint.Proofs.Resolution
import ComponentLint.Proofs.Document.Encoding
import ComponentLint.Proofs.Document.RoundTrip
import ComponentLint.Proofs.Agreement
import ComponentLint.Proofs.Dependencies
import ComponentLint.Proofs.PropsPosition
import ComponentLint.Proofs.SkippedSections
import ComponentLint.Proofs.Fix.ExpectedPositions
import ComponentLint.Proofs.Fix.Nested
import ComponentLint.Proofs.Positions
import ComponentLint.Proofs.Fix.Outcome
import ComponentLint.Proofs.Graph.Components
import ComponentLint.Proofs.CycleReports
import ComponentLint.Proofs.Command.CheckFrame
import ComponentLint.Proofs.Json.Strings
import ComponentLint.Proofs.Json.RoundTrip
import ComponentLint.Proofs.Json.WrittenData
import ComponentLint.Proofs.CyclesAndOrder
import ComponentLint.Proofs.Fix.InPlace
import ComponentLint.Proofs.Arrangement.Followers
import ComponentLint.Proofs.SectionOrderReports
import ComponentLint.Proofs.PropsTail
import ComponentLint.Proofs.NamingSwitch
import ComponentLint.Proofs.MarkerLines
import ComponentLint.Proofs.ConfiguredOrder
import ComponentLint.Proofs.ReportTotals
import ComponentLint.Proofs.Document.SpanCheck
