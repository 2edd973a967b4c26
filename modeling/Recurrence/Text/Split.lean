/-!
# Cutting at a separator

Besides `List.splitOn`, which cuts at every occurrence of one character, two cuts are needed: at
the first occurrence only (`cutAt`), and at a pair of dots (`splitDots`).  Pairs are taken from the
left and do not overlap, so three dots in a row are a pair followed by a dot.
-/

namespace Recurrence.Text

/-- What stands before and after the first `sep`, if there is one. -/
def cutAt (sep : Char) : List Char → Option (List Char × List Char)
  | [] => none
  | c :: s =>
    if c = sep then some ([], s)
    else (cutAt sep s).map fun (before, after) => (c :: before, after)

/-- The pieces between the pairs of dots; there is always at least one. -/
def splitDots : List Char → List (List Char)
  | [] => [[]]
  | '.' :: '.' :: s => [] :: splitDots s
  | c :: s => (splitDots s).modifyHead (c :: ·)

/-- Whether two dots stand side by side. -/
def hasDots : List Char → Bool
  | '.' :: '.' :: _ => true
  | _ :: s => hasDots s
  | [] => false

end Recurrence.Text
