import CommandEngine.Sorting.Runs

/-!
# Sorting by pivots, and sorting in general

`sortByPivot?` divides a list into the members less than a pivot and the others, and sorts both parts.
After too many divisions that did not help, it falls back to runs of sorted blocks.

`sort?` chooses by length: insertion for a short list, runs of sorted blocks for a longer one, and runs
filled up by pivots for a long one.
-/

namespace CommandEngine
namespace Sorting

variable {α : Type}

/-- The one of three members that stands in the middle. -/
def median (less : α → α → Bool) (a b c : α) : α :=
  let below := less a b
  if below = less a c then
    if less b c = below then b else c
  else a

/-- A member near the middle of the stretch of `n` members from position `i` on: the first one of a short
stretch, and otherwise the median of three such members at the beginning, in the middle and near the
end. -/
def sample? (less : α → α → Bool) (l : Array α) (i n : Nat) : Option α :=
  if _h : n < 8 then l[i]?
  else do
    let a ← sample? less l i (n / 8)
    let b ← sample? less l (i + n / 8 * 4) (n / 8)
    let c ← sample? less l (i + n / 8 * 7) (n / 8)
    return median less a b c
termination_by n
decreasing_by all_goals omega

/-- Sorts by division, at most `limit` times in a row.  All members are known not to be less than the
pivot `floor` of an earlier division; if the new pivot is not greater than that one, or no member is
less than it, then the members that are not greater than it are in place. -/
def sortByPivot? (less : α → α → Bool) : (limit : Nat) → (floor : Option α) → List α → Option (List α)
  | 0, _, l =>
    if l.length ≤ blockLength then sortBlock? less l else sortByRuns? less .blocks l
  | limit + 1, floor, l =>
    if l.length ≤ blockLength then sortBlock? less l
    else do
      let pivot ← sample? less l.toArray 0 l.length
      let (low, high) := l.partition fun x => less x pivot
      if low.isEmpty || floor.any (fun f => !less f pivot) then
        let (equal, greater) := l.partition fun x => !less pivot x
        return equal ++ (← sortByPivot? less limit none greater)
      else
        let high ← sortByPivot? less limit (some pivot) high
        let low ← sortByPivot? less limit floor low
        return low ++ high

/-- Sorts a list; members of equal rank keep their order.  There is no result if the comparisons that were
made contradict each other in a way that shows, which does not happen in a linear order. -/
def sort? (less : α → α → Bool) (l : List α) : Option (List α) :=
  if l.length ≤ 20 then some (insertionSort less l)
  else if l.length ≤ 2 * blockLength then sortByRuns? less .blocks l
  else sortByRuns? less (.deferred fun part => sortByPivot? less (2 * part.length.log2) none part) l

end Sorting
end CommandEngine
