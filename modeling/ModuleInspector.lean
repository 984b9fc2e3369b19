import ModuleInspector.Binary64.Basic
import ModuleInspector.Binary64.Shortest
import ModuleInspector.Catalog.Entry
import ModuleInspector.Catalog.Hierarchy
import ModuleInspector.Catalog.Lookup
import ModuleInspector.Catalog.Members
import ModuleInspector.Export
import ModuleInspector.Json.Number
import ModuleInspector.Json.Printer
import ModuleInspector.Json.Reader
import ModuleInspector.Json.Value
import ModuleInspector.Main
import ModuleInspector.Metadata.Accessibility
import ModuleInspector.Metadata.Flags
import ModuleInspector.Metadata.Literal
import ModuleInspector.Metadata.Member
import ModuleInspector.Metadata.Module
import ModuleInspector.Metadata.Selection
import ModuleInspector.Metadata.Signature
import ModuleInspector.Metadata.TypeDef
import ModuleInspector.Metadata.TypeRef
import ModuleInspector.Options
import ModuleInspector.Path
import ModuleInspector.Proofs.Binary64.Finite
import ModuleInspector.Proofs.Catalog.Assignability
import ModuleInspector.Proofs.Catalog.BaseWalk
import ModuleInspector.Proofs.Catalog.Hiding
import ModuleInspector.Proofs.Catalog.Identifier
import ModuleInspector.Proofs.Catalog.ImplementedInterfaces
import ModuleInspector.Proofs.Catalog.Inheritance
import ModuleInspector.Proofs.Catalog.InterfaceClosure
import ModuleInspector.Proofs.Catalog.InterfaceDefinitions
import ModuleInspector.Proofs.Catalog.InterfaceOrder
import ModuleInspector.Proofs.Catalog.MemberInheritance
import ModuleInspector.Proofs.Catalog.MemberSelection
import ModuleInspector.Proofs.Catalog.NameIndex
import ModuleInspector.Proofs.Catalog.Renumbering
import ModuleInspector.Proofs.Catalog.Resolution
import ModuleInspector.Proofs.Json.DepthLimit
import ModuleInspector.Proofs.Json.FiniteNumber
import ModuleInspector.Proofs.Json.Nesting
import ModuleInspector.Proofs.Json.Numbers
import ModuleInspector.Proofs.Json.ReadCompact
import ModuleInspector.Proofs.Json.Reading
import ModuleInspector.Proofs.Json.Steps
import ModuleInspector.Proofs.Json.Strings
import ModuleInspector.Proofs.Metadata.CanonicalText
import ModuleInspector.Proofs.Metadata.ClosedReferences
import ModuleInspector.Proofs.Options.Adjacency
import ModuleInspector.Proofs.Options.Switches
import ModuleInspector.Proofs.Query.Implementers
import ModuleInspector.Proofs.Query.KindTokens
import ModuleInspector.Proofs.Query.MemberViews
import ModuleInspector.Proofs.Query.MemberVisibility
import ModuleInspector.Proofs.Query.OrderIndependence
import ModuleInspector.Proofs.Query.ParameterFilter
import ModuleInspector.Proofs.Query.StartMethod
import ModuleInspector.Proofs.Query.TypeListing
import ModuleInspector.Proofs.Session.AllOrNothing
import ModuleInspector.Proofs.Session.DamagedSnapshots
import ModuleInspector.Proofs.Session.Lending
import ModuleInspector.Proofs.Snapshot.Canonical
import ModuleInspector.Proofs.Snapshot.DamagedEntries
import ModuleInspector.Proofs.Snapshot.Decoded
import ModuleInspector.Proofs.Snapshot.DecodedTypes
import ModuleInspector.Proofs.Snapshot.Postconditions
import ModuleInspector.Proofs.Snapshot.Printing
import ModuleInspector.Proofs.Snapshot.ReadBack
import ModuleInspector.Proofs.Snapshot.Recorded
import ModuleInspector.Proofs.Snapshot.RoundTrip
import ModuleInspector.Proofs.StrongName.KeyTexts
import ModuleInspector.Proofs.StrongName.KeyTokens
import ModuleInspector.Proofs.Text.Brackets
import ModuleInspector.Proofs.Text.Bytes
import ModuleInspector.Proofs.Text.FoldedComparison
import ModuleInspector.Proofs.Text.Folding
import ModuleInspector.Proofs.Text.HexDigits
import ModuleInspector.Proofs.Text.Separated
import ModuleInspector.Proofs.Text.Sorting
import ModuleInspector.Proofs.Text.UpperCase
import ModuleInspector.Query.Command
import ModuleInspector.Query.MemberQueries
import ModuleInspector.Query.Overview
import ModuleInspector.Query.PatternSearch
import ModuleInspector.Query.Run
import ModuleInspector.Query.Selection
import ModuleInspector.Query.TypeQueries
import ModuleInspector.Session.Application
import ModuleInspector.Session.Execution
import ModuleInspector.Session.Log
import ModuleInspector.Session.Provider
import ModuleInspector.Session.Sink
import ModuleInspector.Session.SnapshotFile
import ModuleInspector.Session.Store
import ModuleInspector.Snapshot.Decoding
import ModuleInspector.Snapshot.Document
import ModuleInspector.Snapshot.Encoding
import ModuleInspector.Snapshot.Record
import ModuleInspector.StrongName.Digest
import ModuleInspector.StrongName.Identity
import ModuleInspector.Text.Blank
import ModuleInspector.Text.CaseRuns
import ModuleInspector.Text.Fold
import ModuleInspector.Text.Hex
import ModuleInspector.Text.LowerCase
import ModuleInspector.Text.Pieces
import ModuleInspector.Text.WordCase
