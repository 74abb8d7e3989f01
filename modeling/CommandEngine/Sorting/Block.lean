import CommandEngine.Sorting.Basic

/-!
# Sorting a short block

A block is cut in two, each half is sorted by insertion, and the halves are merged from both ends at once:
half of the members are taken from the front and as many from the back.  In a linear order the two ends
meet in the middle.  Where they do not, a member would be taken twice, and `sortBlock?` gives no
result.
-/

namespace CommandEngine
namespace Sorting

variable {α : Type}

/-- Sorts four members with five comparisons: both pairs, then the lesser and the greater ones of the pairs,
then the two that remain. -/
def sortFour (less : α → α → Bool) (a b c d : α) : List α :=
  let low := less b a
  let high := less d c
  let (a, b) := if low then (b, a) else (a, b)
  let (c, d) := if high then (d, c) else (c, d)
  let crossLeast := less c a
  let crossGreatest := less d b
  let least := if crossLeast then c else a
  let greatest := if crossGreatest then b else d
  let left := if crossLeast then a else if crossGreatest then c else b
  let right := if crossGreatest then d else if crossLeast then b else c
  if less right left then [least, right, left, greatest] else [least, left, right, greatest]

/-- Sorts half of a block: the first four members at once if the block is long enough, the others by
insertion. -/
def sortHalf (less : α → α → Bool) (long : Bool) : List α → List α
  | a :: b :: c :: d :: rest =>
    if long then (insertEach less (sortFour less a b c d).reverse rest).reverse
    else insertionSort less (a :: b :: c :: d :: rest)
  | l => insertionSort less l

/-- Merges two sorted lists from both ends, as many members from either end as the left list has.  There is
no result if the ends do not meet, so that some member would be taken from both. -/
def meet? (less : α → α → Bool) (left right : List α) : Option (List α) :=
  let front := take less left.length left right
  let back := takeLast less left.length left right
  let fromLeft := (left.length - front.left.length) + (left.length - back.right.length)
  let fromRight := (right.length - front.right.length) + (right.length - back.left.length)
  if fromLeft ≤ left.length ∧ fromRight ≤ right.length then
    some (front.items ++ front.left.take (left.length - fromLeft)
      ++ front.right.take (right.length - fromRight) ++ back.items.reverse)
  else none

/-- The greatest length of a block. -/
def blockLength : Nat := 32

/-- Sorts a block. -/
def sortBlock? (less : α → α → Bool) (l : List α) : Option (List α) :=
  let half := l.length / 2
  let long := decide (8 ≤ l.length)
  meet? less (sortHalf less long (l.take half)) (sortHalf less long (l.drop half))

end Sorting
end CommandEngine
