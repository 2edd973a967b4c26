/-!
# Ascending lists

A set of numbers is kept as a strictly ascending list.  `union` merges two of them in one walk; a
number in both is kept once.
-/

namespace Recurrence.Ascending

/-- The numbers of either list, in ascending order. -/
def union : List Nat → List Nat → List Nat
  | [], t => t
  | s, [] => s
  | a :: s, b :: t =>
    if a < b then a :: union s (b :: t)
    else if b < a then b :: union (a :: s) t
    else a :: union s t
termination_by s t => s.length + t.length

end Recurrence.Ascending
