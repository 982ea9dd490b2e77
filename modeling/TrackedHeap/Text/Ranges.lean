/-!
# Sets of code points given by ranges

* `Ranges` : inclusive ranges of code points in increasing order;
* `Ranges.contains` : membership, which stops at the first range above the code point.
-/

namespace TrackedHeap.Text

/-- Inclusive ranges of code points, disjoint and in increasing order. -/
abbrev Ranges := List (Nat × Nat)

namespace Ranges

/-- A code point is in a set of ranges when one of them holds it. -/
def contains : Ranges → Nat → Bool
  | [], _ => false
  | (low, high) :: rest, n => if n < low then false else n ≤ high || contains rest n

theorem contains_cons_of_lt {low high n : Nat} (rest : Ranges) (h : n < low) :
    contains ((low, high) :: rest) n = false := by
  simp [contains, h]

theorem contains_cons_of_mem {low high n : Nat} (rest : Ranges) (h : low ≤ n) (h' : n ≤ high) :
    contains ((low, high) :: rest) n = true := by
  simp [contains, Nat.not_lt.2 h, h']

end Ranges

end TrackedHeap.Text
