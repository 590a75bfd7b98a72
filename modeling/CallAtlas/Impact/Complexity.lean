/-!
# Complexity

How many entities an entity calls, in five buckets, and how many entities fall
into each.
-/

namespace CallAtlas

/-- The bucket of an out-degree. -/
inductive Complexity where
  /-- None. -/
  | zero
  /-- One to three. -/
  | low
  /-- Four to nine. -/
  | medium
  /-- Ten to nineteen. -/
  | high
  /-- Twenty and more. -/
  | veryHigh
deriving DecidableEq, Repr, Inhabited

namespace Complexity

/-- The bucket of an out-degree. -/
def ofOutDegree (n : Nat) : Complexity :=
  if n = 0 then zero
  else if n ≤ 3 then low
  else if n ≤ 9 then medium
  else if n ≤ 19 then high
  else veryHigh

/-- The bucket's name in reports. -/
def name : Complexity → String
  | zero => "zero"
  | low => "low"
  | medium => "medium"
  | high => "high"
  | veryHigh => "very_high"

end Complexity

/-- How many entities fall into each bucket. -/
structure ComplexityHistogram where
  zero : Nat := 0
  low : Nat := 0
  medium : Nat := 0
  high : Nat := 0
  veryHigh : Nat := 0
deriving DecidableEq, Repr, Inhabited

namespace ComplexityHistogram

/-- Counts one entity. -/
def record (h : ComplexityHistogram) (outDegree : Nat) : ComplexityHistogram :=
  match Complexity.ofOutDegree outDegree with
  | .zero => { h with zero := h.zero + 1 }
  | .low => { h with low := h.low + 1 }
  | .medium => { h with medium := h.medium + 1 }
  | .high => { h with high := h.high + 1 }
  | .veryHigh => { h with veryHigh := h.veryHigh + 1 }

/-- The count of one bucket. -/
def count (h : ComplexityHistogram) : Complexity → Nat
  | .zero => h.zero
  | .low => h.low
  | .medium => h.medium
  | .high => h.high
  | .veryHigh => h.veryHigh

/-- The number of entities counted. -/
def total (h : ComplexityHistogram) : Nat := h.zero + h.low + h.medium + h.high + h.veryHigh

/-- The histogram of some out-degrees. -/
def ofOutDegrees (ns : List Nat) : ComplexityHistogram := ns.foldl record {}

theorem total_record (h : ComplexityHistogram) (n : Nat) : (h.record n).total = h.total + 1 := by
  unfold record
  split <;> simp only [total] <;> omega

end ComplexityHistogram

end CallAtlas
