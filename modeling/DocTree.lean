import DocTree.Cursor
import DocTree.Event.Read
import DocTree.Event.Write
import DocTree.Object.Operation
import DocTree.Sequence.Operation
import DocTree.Value.Convert
import DocTree.Value.Debug
import DocTree.Value.Operation
import DocTree.Value.Path
import DocTree.Proofs.Keys
import DocTree.Proofs.FirstOfKey
import DocTree.Proofs.Index
import DocTree.Proofs.Lockstep
import DocTree.Proofs.PlainList
import DocTree.Proofs.InsertionRuns
import DocTree.Proofs.Adoption
import DocTree.Proofs.Accounts
import DocTree.Proofs.Copies
import DocTree.Proofs.Operations
import DocTree.Proofs.KeyedMap
import DocTree.Proofs.Ordered
import DocTree.Proofs.SortedRuns
import DocTree.Proofs.Failing
import DocTree.Proofs.Equality
import DocTree.Proofs.Readings
import DocTree.Proofs.Backends
import DocTree.Proofs.ExactValues
import DocTree.Proofs.NumberOrder
import DocTree.Proofs.TotalOrder
import DocTree.Proofs.References
import DocTree.Proofs.Keeping
import DocTree.Proofs.RoundTrip
import DocTree.Proofs.KeptSequences
import DocTree.Proofs.KeptObjects
import DocTree.Proofs.KeptValues
import DocTree.Proofs.WellFormed
import DocTree.Proofs.Built
import DocTree.Proofs.Lodged
import DocTree.Proofs.Grown
import DocTree.Proofs.Accounting
import DocTree.Proofs.Refusals
import DocTree.Proofs.EmptyObjects
import DocTree.Proofs.PromotedContainers
import DocTree.Proofs.Promotion
import DocTree.Proofs.Hints
import DocTree.Proofs.PathWrites
import DocTree.Proofs.BulkInsertion
import DocTree.Proofs.MapEquality
import DocTree.Proofs.Endings
import DocTree.Proofs.Split
import DocTree.Proofs.SplitMerge
import DocTree.Proofs.SortedUnique
import DocTree.Proofs.MergeAlgebra
import DocTree.Proofs.MapReaders
import DocTree.Proofs.Rounding
import DocTree.Proofs.FloatEquality
import DocTree.Proofs.AllOrNothing
import DocTree.Proofs.Intake
import DocTree.Proofs.ReadOnlyViews
import DocTree.Proofs.CursorMoves
import DocTree.Proofs.RangeErasure
import DocTree.Proofs.Shrinking
import DocTree.Proofs.RepeatedAdoption
