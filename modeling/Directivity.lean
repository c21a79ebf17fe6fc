import Directivity.Collector
import Directivity.Json.Forms
import Directivity.Sample.Train
import Directivity.Proofs.Order
import Directivity.Store.Run
import Directivity.Proofs.Arranging
import Directivity.Proofs.Search
import Directivity.Proofs.Store.Entries
import Directivity.Proofs.Store.Arranged
import Directivity.Proofs.Store.Distinct
import Directivity.Proofs.Circle
import Directivity.Proofs.Store.Neighbours
import Directivity.Proofs.Store.Grid
import Directivity.Proofs.Store.Likeness
import Directivity.Proofs.Store.Batches
import Directivity.Proofs.Store.Dictionary
import Directivity.Proofs.Rounding
import Directivity.Proofs.Arithmetic
import Directivity.Proofs.Store.Weights
import Directivity.Proofs.Store.Measured
import Directivity.Proofs.Store.Bare
import Directivity.Proofs.Store.Sizes
import Directivity.Proofs.Store.Safety
import Directivity.Proofs.Collector.Conservation
import Directivity.Proofs.Collector.Interleaving
import Directivity.Proofs.Store.Queries
import Directivity.Proofs.Store.Blend
import Directivity.Proofs.Difference
import Directivity.Proofs.BandAxis.Ascending
import Directivity.Proofs.BandAxis.Nearest
import Directivity.Proofs.Store.Recall
import Directivity.Proofs.BandAxis.Shortcut
import Directivity.Proofs.Collector.Durations
import Directivity.Proofs.Store.Closest
import Directivity.Proofs.Store.InPlace
import Directivity.Proofs.Store.Outcome
import Directivity.Proofs.Store.Places
import Directivity.Proofs.BandAxis.Refusal
import Directivity.Proofs.BandAxis.Agreement
import Directivity.Proofs.Decimal.ReadBack
import Directivity.Proofs.Decimal.Numerals
import Directivity.Proofs.Json.Quoted
import Directivity.Proofs.Json.Reading
import Directivity.Proofs.Json.Forms
import Directivity.Proofs.Identity
