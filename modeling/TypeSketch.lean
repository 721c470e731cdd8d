import TypeSketch.Main
import TypeSketch.Server
import TypeSketch.Store
import TypeSketch.Proofs.Session.Child
import TypeSketch.Proofs.Session.Override
import TypeSketch.Proofs.Document.Outcome
import TypeSketch.Proofs.Document.Nesting
import TypeSketch.Proofs.Schema.Locality
import TypeSketch.Proofs.Schema.Conformance
import TypeSketch.Proofs.Path.Reading
import TypeSketch.Proofs.Schema.Identity
import TypeSketch.Proofs.Schema.Form
import TypeSketch.Proofs.Schema.Shape
import TypeSketch.Proofs.Emit.Unfolding
import TypeSketch.Proofs.Emit.Agreement
import TypeSketch.Proofs.Emit.Default
import TypeSketch.Proofs.Session.Artifacts
import TypeSketch.Proofs.Store.Atomicity
import TypeSketch.Proofs.Store.Interleaving
import TypeSketch.Proofs.Schema.Grouping
import TypeSketch.Proofs.Schema.Order
import TypeSketch.Proofs.Overlay.Composition
import TypeSketch.Proofs.CommandLine.Modifying
import TypeSketch.Proofs.Overlay.Locality
import TypeSketch.Proofs.Session.Toggle
import TypeSketch.Proofs.Document.Lens
import TypeSketch.Proofs.Document.Undo
import TypeSketch.Proofs.Emit.Operator
import TypeSketch.Proofs.Emit.Overridden
import TypeSketch.Proofs.Emit.Flag
import TypeSketch.Proofs.Emit.MemberName
import TypeSketch.Proofs.Emit.LiteralUnion
import TypeSketch.Proofs.Document.FreshKey
import TypeSketch.Proofs.Document.Target
import TypeSketch.Proofs.Schema.Record
import TypeSketch.Proofs.Emit.CamelForm
