import Directivity.Event
import Directivity.Receiver

/-!
A collector of the results and statistics of a propagation computation.

Every operation is one step on the whole state. Results wait in the order in which they came until
they are taken. Counters wrap around. Times are words of nanoseconds: a single time is cut off below
the greatest word, which marks a shortest time that nobody reported, and the sum stops at it.
-/

set_option autoImplicit false
set_option relaxedAutoImplicit false

namespace Directivity

inductive Tally
  | sources
  | freeFieldTests
  | imageReceivers
  | reflections
  | diffractions
  | cells
  deriving DecidableEq

structure Counters where
  sources : UInt64 := 0
  freeFieldTests : UInt64 := 0
  imageReceivers : UInt64 := 0
  reflections : UInt64 := 0
  diffractions : UInt64 := 0
  cells : UInt64 := 0
  deriving DecidableEq

namespace Counters

def get (counters : Counters) : Tally → UInt64
  | .sources => counters.sources
  | .freeFieldTests => counters.freeFieldTests
  | .imageReceivers => counters.imageReceivers
  | .reflections => counters.reflections
  | .diffractions => counters.diffractions
  | .cells => counters.cells

def add (counters : Counters) (amount : UInt64) : Tally → Counters
  | .sources => { counters with sources := counters.sources + amount }
  | .freeFieldTests => { counters with freeFieldTests := counters.freeFieldTests + amount }
  | .imageReceivers => { counters with imageReceivers := counters.imageReceivers + amount }
  | .reflections => { counters with reflections := counters.reflections + amount }
  | .diffractions => { counters with diffractions := counters.diffractions + amount }
  | .cells => { counters with cells := counters.cells + amount }

end Counters

/-- The greatest word, which stands for a shortest time that nobody reported. -/
def unreported : UInt64 := 0xFFFFFFFFFFFFFFFF

/-- A time in nanoseconds as a word other than `unreported`: a longer one is cut off. -/
def timeWord (nanoseconds : Nat) : UInt64 :=
  UInt64.ofNat (min nanoseconds (unreported.toNat - 1))

/-- The computation times of the receivers, in nanoseconds. -/
structure Times where
  total : UInt64 := 0
  least : UInt64 := unreported
  greatest : UInt64 := 0
  deriving DecidableEq

namespace Times

def addTotal (times : Times) (nanoseconds : Nat) : Times :=
  let sum := times.total.toNat + (timeWord nanoseconds).toNat
  { times with total := UInt64.ofNat (min sum unreported.toNat) }

def lowerLeast (times : Times) (nanoseconds : Nat) : Times :=
  { times with least := min times.least (timeWord nanoseconds) }

def raiseGreatest (times : Times) (nanoseconds : Nat) : Times :=
  { times with greatest := max times.greatest (timeWord nanoseconds) }

def shortest? (times : Times) : Option UInt64 :=
  if times.least = unreported then none else some times.least

end Times

structure Collector where
  points : Array PointResult := #[]
  triangles : Array TriangleResult := #[]
  counters : Counters := {}
  times : Times := {}
  deriving DecidableEq

namespace Collector

inductive Operation
  | recordPoint (result : PointResult)
  | recordTriangle (result : TriangleResult)
  | takePoints
  | takeTriangles
  | message (text : String)
  | count (tally : Tally) (amount : UInt64)
  | addTime (nanoseconds : Nat)
  | reportShortest (nanoseconds : Nat)
  | reportLongest (nanoseconds : Nat)

inductive Outcome
  | nothing
  | points (results : List PointResult)
  | triangles (results : List TriangleResult)

def takePoints (collector : Collector) : Logged (List PointResult × Collector) := do
  Logged.report (.pointsTaken collector.points.size)
  return (collector.points.toList, { collector with points := #[] })

def takeTriangles (collector : Collector) : Logged (List TriangleResult × Collector) := do
  Logged.report (.trianglesTaken collector.triangles.size)
  return (collector.triangles.toList, { collector with triangles := #[] })

def apply (collector : Collector) : Operation → Logged (Outcome × Collector)
  | .recordPoint result =>
    return (.nothing, { collector with points := collector.points.push result })
  | .recordTriangle result =>
    return (.nothing, { collector with triangles := collector.triangles.push result })
  | .takePoints => do
    let (results, rest) ← collector.takePoints
    return (.points results, rest)
  | .takeTriangles => do
    let (results, rest) ← collector.takeTriangles
    return (.triangles results, rest)
  | .message text => do
    Logged.report (.message text)
    return (.nothing, collector)
  | .count tally amount =>
    return (.nothing, { collector with counters := collector.counters.add amount tally })
  | .addTime nanoseconds =>
    return (.nothing, { collector with times := collector.times.addTotal nanoseconds })
  | .reportShortest nanoseconds =>
    return (.nothing, { collector with times := collector.times.lowerLeast nanoseconds })
  | .reportLongest nanoseconds =>
    return (.nothing, { collector with times := collector.times.raiseGreatest nanoseconds })

def run (collector : Collector) : List Operation → Logged (List Outcome × Collector)
  | [] => return ([], collector)
  | operation :: operations => do
    let (outcome, next) ← collector.apply operation
    let (outcomes, final) ← run next operations
    return (outcome :: outcomes, final)

end Collector

end Directivity
