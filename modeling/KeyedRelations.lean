import KeyedRelations.SampleMovies
import KeyedRelations.Store.Derive
import KeyedRelations.Store.Snapshots
import KeyedRelations.Trace.Format
import KeyedRelations.Trace.Setup
import KeyedRelations.Proofs.Index.Balance
import KeyedRelations.Proofs.Index.Ordered
import KeyedRelations.Proofs.Index.Searching
import KeyedRelations.Proofs.Index.FiniteMap
import KeyedRelations.Proofs.Text.Decimal
import KeyedRelations.Proofs.Schema.Definition
import KeyedRelations.Proofs.Schema.FreshNames
import KeyedRelations.Proofs.Schema.Derived
import KeyedRelations.Proofs.Schema.Rows
import KeyedRelations.Proofs.Store.Actions
import KeyedRelations.Proofs.Table.Keys
import KeyedRelations.Proofs.Store.Offers
import KeyedRelations.Proofs.Relation.Rows
import KeyedRelations.Proofs.Relation.Schemas
import KeyedRelations.Proofs.Key.Cuts
import KeyedRelations.Proofs.Key.Operators
import KeyedRelations.Proofs.Index.Height
import KeyedRelations.Proofs.Index.Ranges
import KeyedRelations.Proofs.Index.Refusals
import KeyedRelations.Proofs.Index.Defined
import KeyedRelations.Proofs.Table.Loading
import KeyedRelations.Proofs.Table.Entries
import KeyedRelations.Proofs.Table.Reloading
import KeyedRelations.Proofs.MsgPack.Heads
import KeyedRelations.Proofs.MsgPack.Documents
import KeyedRelations.Proofs.MsgPack.Snapshots
import KeyedRelations.Proofs.MsgPack.Records
import KeyedRelations.Proofs.Files.Contents
import KeyedRelations.Proofs.Store.Changes
import KeyedRelations.Proofs.Store.History
import KeyedRelations.Proofs.Store.WellTyped
import KeyedRelations.Proofs.Store.Snapshots
import KeyedRelations.Proofs.MsgPack.Refusals
import KeyedRelations.Proofs.Store.Loading
import KeyedRelations.Proofs.Store.Damage
import KeyedRelations.Proofs.Files.Effects
import KeyedRelations.Proofs.Store.Saving
import KeyedRelations.Proofs.Store.SavedNames
import KeyedRelations.Proofs.Store.Results
import KeyedRelations.Proofs.Store.Growth
import KeyedRelations.Proofs.Store.DerivedNames
import KeyedRelations.Proofs.Store.Numbers
import KeyedRelations.Proofs.Store.Isolation
import KeyedRelations.Proofs.Relation.Checks
import KeyedRelations.Proofs.Relation.TwoRuns
import KeyedRelations.Proofs.Store.Inquiries
import KeyedRelations.Proofs.Store.KeySelection
import KeyedRelations.Proofs.Relation.ExactForms
import KeyedRelations.Proofs.Relation.Merging
import KeyedRelations.Proofs.Relation.Combinations
import KeyedRelations.Proofs.Relation.CombinationLaws
import KeyedRelations.Proofs.Relation.Selections
import KeyedRelations.Proofs.Store.Repetitions
import KeyedRelations.Proofs.Relation.Joins
import KeyedRelations.Proofs.Relation.JoinedSelections
import KeyedRelations.Proofs.Relation.EquiJoins
import KeyedRelations.Proofs.Relation.MirroredJoins
import KeyedRelations.Proofs.Relation.NaturalJoins
import KeyedRelations.Proofs.Text.Splitting
import KeyedRelations.Proofs.Text.Numerals
import KeyedRelations.Proofs.Condition.Grammar
import KeyedRelations.Proofs.Condition.CanonicalText
import KeyedRelations.Proofs.Relation.Projections
import KeyedRelations.Proofs.Number.Exact
import KeyedRelations.Proofs.Relation.ExactComparisons
import KeyedRelations.Proofs.Table.BulkLoading
import KeyedRelations.Proofs.Store.BulkLoading
import KeyedRelations.Proofs.Frame.Rows
import KeyedRelations.Proofs.Schema.Encodings
import KeyedRelations.Proofs.Store.Frames
import KeyedRelations.Proofs.Store.Registrations
import KeyedRelations.Proofs.Key.Lexicographic
import KeyedRelations.Proofs.Trace.Handlers
