/-!
# Latency histograms

A histogram counts durations in thirteen buckets.  Twelve have a fixed upper bound in microseconds,
which belongs to the bucket, and the last takes everything longer.  Beside the buckets it keeps the
number of durations, their sum modulo `2 ^ 64` and the longest one.

A percentile is read off the buckets: it is the upper bound of the bucket in which the duration of
that rank lies, or the longest duration when that is the last bucket.  Only the step from a
percentage to a rank computes with floating-point numbers.
-/

namespace ReplicaChain.Latency

/-! ## Durations -/

structure Duration where
  nanoseconds : Nat
  deriving DecidableEq, Repr

namespace Duration

def ofParts (seconds nanoseconds : Nat) : Duration :=
  ⟨seconds * 1000000000 + nanoseconds⟩

def ofMicroseconds (n : Nat) : Duration :=
  ⟨n * 1000⟩

/-- The whole microseconds of a span, or the greatest 64-bit number for a longer one. -/
def microseconds (d : Duration) : UInt64 :=
  .ofNat (min (d.nanoseconds / 1000) 0xFFFFFFFFFFFFFFFF)

end Duration

/-! ## Buckets -/

/-- The upper bounds of all buckets but the last, in microseconds. -/
def bounds : List UInt64 :=
  [50, 100, 250, 500, 1000, 2500, 5000, 10000, 50000, 100000, 1000000, 5000000]

abbrev bucketCount : Nat :=
  13

/-- The bucket of a duration in microseconds: the first whose bound it does not exceed. -/
def bucketOf (us : UInt64) : Fin bucketCount :=
  ⟨bounds.findIdx (us ≤ ·), Nat.lt_succ_of_le List.findIdx_le_length⟩

structure Histogram where
  buckets : Vector UInt64 bucketCount
  count : UInt64
  sum : UInt64
  longest : UInt64
  deriving DecidableEq

namespace Histogram

def empty : Histogram :=
  ⟨.replicate bucketCount 0, 0, 0, 0⟩

instance : Inhabited Histogram :=
  ⟨empty⟩

def record (d : Duration) (h : Histogram) : Histogram :=
  let us := d.microseconds
  let i := bucketOf us
  { buckets := h.buckets.set i (h.buckets[i] + 1)
    count := h.count + 1
    sum := h.sum + us
    longest := max h.longest us }

def ofList (ds : List Duration) : Histogram :=
  ds.foldl (fun h d ↦ h.record d) empty

/-- The mean duration in microseconds, zero when there is none. -/
def average (h : Histogram) : Float :=
  if h.count = 0 then 0.0 else h.sum.toFloat / h.count.toFloat

/-! ## Percentiles -/

/-- Walks the buckets from one of the given index on, of which `seen` durations lie before, to the
bucket of the duration with the given rank. -/
def bucketWithRank (rank : UInt64) : (index : Nat) → (seen : UInt64) → List UInt64 → Option Nat
  | _, _, [] => none
  | index, seen, n :: rest =>
    if rank ≤ seen + n then some index else bucketWithRank rank (index + 1) (seen + n) rest

/-- The upper bound of the bucket that holds the duration with the given rank, counted from one. -/
def boundOfRank (rank : UInt64) (h : Histogram) : UInt64 :=
  match bucketWithRank rank 0 0 h.buckets.toList with
  | some i => bounds[i]?.getD h.longest
  | none => h.longest

def rankOf (p : Float) (count : UInt64) : UInt64 :=
  let rank := (p / 100.0 * count.toFloat).ceil
  (if rank < 1.0 then 1.0 else rank).toUInt64

/-- The `p`-th percentile, zero when there are no durations or no such percentile. -/
def percentile (p : Float) (h : Histogram) : UInt64 :=
  if h.count = 0 then 0
  else if 0.0 ≤ p && p ≤ 100.0 then h.boundOfRank (rankOf p h.count)
  else 0

def percentile99 (h : Histogram) : UInt64 :=
  h.percentile 99.0

end Histogram

end ReplicaChain.Latency
