/-!
# Insertion and merging

The two steps of which every sort here is made: putting one member into an ordered list, and taking
members from two ordered lists, always the lesser of the two in front.  Both ask for the order of two
members by a test `less`.

The test need not be that of a linear order.  If it is one, the result of a sort does not depend on the
steps taken; if it is not, each pair that is compared matters, and so the steps are part of what these
functions promise.
-/

namespace CommandEngine
namespace Sorting

variable {α : Type}

/-! ## Insertion -/

/-- Puts `x` into a list in descending order, in front of the first member that is not greater. -/
def insertDescending (less : α → α → Bool) (x : α) : List α → List α
  | [] => [x]
  | y :: rest => if less x y then y :: insertDescending less x rest else x :: y :: rest

/-- Puts each member of `l` in turn into a list in descending order. -/
def insertEach (less : α → α → Bool) (descending l : List α) : List α :=
  l.foldl (fun sorted x => insertDescending less x sorted) descending

/-- Sorts by insertion; members of equal rank keep their order. -/
def insertionSort (less : α → α → Bool) (l : List α) : List α :=
  (insertEach less [] l).reverse

theorem perm_insertDescending (less : α → α → Bool) (x : α) (l : List α) :
    (insertDescending less x l).Perm (x :: l) := by
  induction l with
  | nil => exact .refl _
  | cons y rest ih =>
    rw [insertDescending]
    split
    · exact (ih.cons y).trans (.swap x y rest)
    · exact .refl _

theorem perm_insertEach (less : α → α → Bool) (descending l : List α) :
    (insertEach less descending l).Perm (l ++ descending) := by
  induction l generalizing descending with
  | nil => exact .refl _
  | cons x rest ih =>
    exact (ih (insertDescending less x descending)).trans
      (((perm_insertDescending less x descending).append_left rest).trans List.perm_middle)

/-- Sorting by insertion neither loses nor repeats a member. -/
theorem perm_insertionSort (less : α → α → Bool) (l : List α) : (insertionSort less l).Perm l := by
  have h := perm_insertEach less [] l
  rw [List.append_nil] at h
  exact (List.reverse_perm _).trans h

/-! ## Merging -/

/-- Members taken from the front of two lists, and what is left of either. -/
structure Taken (α : Type) where
  items : List α
  left : List α
  right : List α

/-- Takes up to `count` members, each time the front of the right list if it is less than that of the left
one and otherwise the front of the left one, until a list is used up. -/
def take (less : α → α → Bool) : Nat → List α → List α → Taken α
  | count + 1, x :: left, y :: right =>
    if less y x then
      let rest := take less count (x :: left) right
      { rest with items := y :: rest.items }
    else
      let rest := take less count left (y :: right)
      { rest with items := x :: rest.items }
  | _, left, right => ⟨[], left, right⟩

/-- Takes up to `count` members from the ends of two lists, each time the greater of the two last ones.
What was taken comes in descending order, and what is left comes in reverse with the lists exchanged. -/
def takeLast (less : α → α → Bool) (count : Nat) (left right : List α) : Taken α :=
  take (fun a b => less b a) count right.reverse left.reverse

/-- Everything that was taken or is left. -/
def Taken.all (t : Taken α) : List α := t.items ++ t.left ++ t.right

theorem perm_all_take (less : α → α → Bool) (count : Nat) (left right : List α) :
    (take less count left right).all.Perm (left ++ right) := by
  fun_induction take less count left right with
  | case1 count x left y right _ rest ih => exact (ih.cons y).trans List.perm_middle.symm
  | case2 count x left y right _ rest ih => exact ih.cons x
  | case3 => exact .refl _

/-- Merges two sorted lists, from the side on which the shorter one stands. -/
def merge (less : α → α → Bool) (left right : List α) : List α :=
  let total := left.length + right.length
  if left.length ≤ right.length then (take less total left right).all
  else (takeLast less total left right).all.reverse

/-- Merging neither loses nor repeats a member. -/
theorem perm_merge (less : α → α → Bool) (left right : List α) :
    (merge less left right).Perm (left ++ right) := by
  rw [merge]
  split
  · exact perm_all_take less _ left right
  · refine (List.reverse_perm _).trans ((perm_all_take _ _ right.reverse left.reverse).trans ?_)
    rw [← List.reverse_append]
    exact List.reverse_perm _

end Sorting
end CommandEngine
