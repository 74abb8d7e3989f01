import CommandEngine.Sorting.Block

/-!
# Sorting by runs

A list is cut into runs, which are merged.  A stretch that is in order already, or strictly in reverse
order, makes a run if it is long enough; what lies between such stretches is filled up with runs of
another kind, a `Filler`.  Each boundary between two runs has a depth, as if the list were halved again
and again, and the runs on both sides of a deeper boundary are merged before those of a shallower one.
-/

namespace CommandEngine
namespace Sorting

variable {α : Type}

/-- Neighbouring members of a list, sorted or still to be sorted. -/
structure Run (α : Type) where
  items : List α
  sorted : Bool

/-- What becomes of a stretch with no long run in it. -/
inductive Filler (α : Type)
  /-- It is cut into blocks, which are sorted at once. -/
  | blocks
  /-- It is left as it is until it has to be merged with something sorted, and then it is sorted by `sort?`. -/
  | deferred (sort? : List α → Option (List α))

/-! ## Cutting a list into runs -/

/-- How many members continue a run that ends with `last`: they all have to descend, or none of them. -/
def continuation (less : α → α → Bool) (descending : Bool) (last : α) : List α → Nat
  | [] => 0
  | x :: rest => if less x last = descending then continuation less descending x rest + 1 else 0

/-- The run at the front of a list, turned round if it descends. -/
def frontRun (less : α → α → Bool) : List α → List α
  | x :: y :: rest =>
    let descending := less y x
    let run := (x :: y :: rest).take (continuation less descending y rest + 2)
    if descending then run.reverse else run
  | l => l

/-- The least length of a run that is kept, for a list of length `n`: about half of a short list and about
the square root of a long one. -/
def keptLength (n : Nat) : Nat :=
  if n ≤ 4096 then min (n - n / 2) 64
  else
    let shift := (1 + n.log2) / 2
    ((1 <<< shift) + (n >>> shift)) / 2

/-- The next run of what is left of a list. -/
def nextRun? (less : α → α → Bool) (filler : Filler α) (kept : Nat) (l : List α) : Option (Run α) :=
  let run := frontRun less l
  if kept ≤ run.length then some ⟨run, true⟩
  else match filler with
    | .blocks => (sortBlock? less (l.take blockLength)).map (⟨·, true⟩)
    | .deferred _ => some ⟨l.take kept, false⟩

/-- Cuts a list into at most `fuel` runs. -/
def cut? (less : α → α → Bool) (filler : Filler α) (kept : Nat) :
    (fuel : Nat) → List α → Option (List (Run α))
  | 0, _ => some []
  | _, [] => some []
  | fuel + 1, l => do
    let run ← nextRun? less filler kept l
    let rest ← cut? less filler kept fuel (l.drop run.items.length)
    return run :: rest

/-! ## Merging the runs -/

/-- The members of a run, sorted. -/
def Run.settle? (filler : Filler α) (r : Run α) : Option (List α) :=
  match r.sorted, filler with
  | false, .deferred sort? => sort? r.items
  | _, _ => some r.items

/-- Two neighbouring runs as one.  They are merged if one of them is sorted, and otherwise still to be
sorted. -/
def Run.join? (less : α → α → Bool) (filler : Filler α) (l r : Run α) : Option (Run α) :=
  if l.sorted || r.sorted then do
    let left ← l.settle? filler
    let right ← r.settle? filler
    return ⟨merge less left right, true⟩
  else some ⟨l.items ++ r.items, false⟩

/-- The number of leading zeros of a word of 64 bits. -/
def leadingZeros (n : Nat) : Nat := if n = 0 then 64 else 63 - n.log2

/-- How deep the boundary lies between the runs `[start, middle)` and `[middle, stop)` of a list of length
`n`: the number of halvings of the list after which the centres of the two runs still stand in one part.
Positions are scaled so that the whole list has length `2 ^ 62`, rounded up. -/
def boundaryDepth (n start middle stop : Nat) : Nat :=
  let scale := (4611686018427387904 + n - 1) / n
  leadingZeros ((scale * (start + middle)) ^^^ (scale * (middle + stop)))

/-- A run that waits to be merged with what follows, and the depth of the boundary after it. -/
structure Pending (α : Type) where
  run : Run α
  depth : Nat

/-- Joins a run with those before it, last first, as long as the boundary between them lies at least as
deep as `depth`. -/
def collapse? (less : α → α → Bool) (filler : Filler α) (depth : Nat) :
    List (Pending α) → Run α → Option (List (Pending α) × Run α)
  | [], r => some ([], r)
  | p :: before, r =>
    if depth ≤ p.depth then (p.run.join? less filler r).bind (collapse? less filler depth before)
    else some (p :: before, r)

/-- Merges a run that begins at `start` with those before it and those after it, in a list of length `n`. -/
def mergeRuns? (less : α → α → Bool) (filler : Filler α) (n : Nat) :
    (start : Nat) → List (Pending α) → Run α → List (Run α) → Option (List α)
  | _, before, r, [] => do
    let (_, whole) ← collapse? less filler 0 before r
    whole.settle? filler
  | start, before, r, next :: rest => do
    let middle := start + r.items.length
    let depth := boundaryDepth n start middle (middle + next.items.length)
    let (before, joined) ← collapse? less filler depth before r
    mergeRuns? less filler n middle (⟨joined, depth⟩ :: before) next rest

/-- Sorts a list by its runs. -/
def sortByRuns? (less : α → α → Bool) (filler : Filler α) (l : List α) : Option (List α) := do
  match ← cut? less filler (keptLength l.length) l.length l with
  | [] => return []
  | r :: rest => mergeRuns? less filler l.length 0 [] r rest

end Sorting
end CommandEngine
