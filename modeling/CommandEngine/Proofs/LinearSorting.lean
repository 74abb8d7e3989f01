import CommandEngine.Proofs.Sorting

/-!
# Sorting in a linear order

A test that does not contradict itself on the members of a list orders them linearly up to ties
(`Sorting.LinearOn`).  Sorting by insertion then gives an ascending list (`Sorting.ascending_insertionSort`).
Whatever the test, members that tie pairwise keep their order (`Sorting.filter_insertionSort`), and a list that is
ascending already stays as it is (`Sorting.insertionSort_of_ascending`).

Sorting in general may end without a result, where a merge from both ends takes a member twice.  In a linear order
this does not happen: a member of one list that was taken from both ends would have been found both less and not
less than a member of the other list that was taken from neither (`Sorting.isSome_meet?`).  So there a result is
always given, by way of blocks, runs and pivots (`Sorting.isSome_sort?`).
-/

namespace CommandEngine
namespace Sorting

variable {α : Type} {less : α → α → Bool}

/-- The test orders the members of a list linearly, up to ties: of two members at most one is less than the other,
and what is not greater than something not greater is not greater. -/
structure LinearOn (less : α → α → Bool) (l : List α) : Prop where
  asymm : ∀ a ∈ l, ∀ b ∈ l, less a b = true → less b a = false
  trans : ∀ a ∈ l, ∀ b ∈ l, ∀ c ∈ l, less b a = false → less c b = false → less c a = false

lemma LinearOn.mono {l l' : List α} (h : LinearOn less l) (hsub : l' ⊆ l) : LinearOn less l' :=
  ⟨fun a ha b hb => h.asymm a (hsub ha) b (hsub hb),
    fun a ha b hb c hc => h.trans a (hsub ha) b (hsub hb) c (hsub hc)⟩

/-- No member is less than one before it. -/
def Ascending (less : α → α → Bool) (l : List α) : Prop := l.Pairwise fun a b => less b a = false

/-- No member is less than one after it. -/
def Descending (less : α → α → Bool) (l : List α) : Prop := l.Pairwise fun a b => less a b = false

lemma ascending_reverse {l : List α} : Ascending less l.reverse ↔ Descending less l :=
  List.pairwise_reverse

/-! ## Insertion -/

lemma mem_insertDescending {x y : α} {l : List α} : y ∈ insertDescending less x l ↔ y = x ∨ y ∈ l := by
  rw [(perm_insertDescending less x l).mem_iff, List.mem_cons]

lemma Descending.insert {x : α} {l : List α} (hlinear : LinearOn less (x :: l)) (h : Descending less l) :
    Descending less (insertDescending less x l) := by
  induction l with
  | nil => exact List.pairwise_singleton _ _
  | cons y rest ih =>
    obtain ⟨hfirst, hrest⟩ := List.pairwise_cons.1 h
    have hsub : x :: rest ⊆ x :: y :: rest := List.cons_subset_cons x (List.subset_cons_self y rest)
    have hx : x ∈ x :: y :: rest := List.mem_cons_self ..
    have hy : y ∈ x :: y :: rest := List.mem_cons_of_mem _ (List.mem_cons_self ..)
    rw [insertDescending]
    split
    · next hless =>
      refine List.pairwise_cons.2 ⟨fun z hz => ?_, ih (hlinear.mono hsub) hrest⟩
      rcases mem_insertDescending.1 hz with rfl | hz
      · exact hlinear.asymm _ hx _ hy hless
      · exact hfirst z hz
    · next hnot =>
      have hyx : less x y = false := Bool.eq_false_iff.2 hnot
      refine List.pairwise_cons.2 ⟨fun z hz => ?_, h⟩
      rcases List.mem_cons.1 hz with rfl | hz
      · exact hyx
      · exact hlinear.trans z (hsub (List.mem_cons_of_mem _ hz)) y hy x hx (hfirst z hz) hyx

lemma Descending.insertEach {descending l : List α} (hlinear : LinearOn less (l ++ descending))
    (h : Descending less descending) : Descending less (insertEach less descending l) := by
  induction l generalizing descending with
  | nil => exact h
  | cons x rest ih =>
    have hsub : x :: descending ⊆ (x :: rest) ++ descending :=
      List.cons_subset_cons x (List.subset_append_right rest descending)
    refine ih (hlinear.mono ?_) (h.insert (hlinear.mono hsub))
    intro y hy
    rcases List.mem_append.1 hy with hy | hy
    · exact List.mem_append_left _ (List.mem_cons_of_mem _ hy)
    · rcases mem_insertDescending.1 hy with rfl | hy
      · exact List.mem_cons_self ..
      · exact hsub (List.mem_cons_of_mem _ hy)

/-- Insertion gives an ascending list. -/
theorem ascending_insertionSort {l : List α} (hlinear : LinearOn less l) : Ascending less (insertionSort less l) := by
  rw [insertionSort, ascending_reverse]
  refine Descending.insertEach ?_ List.Pairwise.nil
  rwa [List.append_nil]

/-! ## Ties -/

/-- Where members that pass `p` tie pairwise, the one that is put in comes first among them. -/
lemma filter_insertDescending {p : α → Bool} (hties : ∀ a b, p a = true → p b = true → less a b = false) (x : α)
    (l : List α) : (insertDescending less x l).filter p = (x :: l).filter p := by
  induction l with
  | nil => rfl
  | cons y rest ih =>
    rw [insertDescending]
    split
    · next hless =>
      -- the two do not tie, so at most one of them passes
      have hone : p x = false ∨ p y = false := by
        by_contra hboth
        rw [not_or, Bool.not_eq_false, Bool.not_eq_false] at hboth
        exact absurd hless (Bool.eq_false_iff.1 (hties x y hboth.1 hboth.2))
      rw [List.filter_cons, ih]
      rcases hone with hx | hy
      · simp [List.filter_cons, hx]
      · simp [List.filter_cons, hy]
    · rfl

/-- Insertion keeps the order of members that tie. -/
theorem filter_insertionSort {p : α → Bool} (hties : ∀ a b, p a = true → p b = true → less a b = false)
    (l : List α) : (insertionSort less l).filter p = l.filter p := by
  have heach : ∀ descending, (insertEach less descending l).filter p =
      (l.filter p).reverse ++ descending.filter p := by
    induction l with
    | nil => intro descending; rfl
    | cons x rest ih =>
      intro descending
      refine (ih _).trans ?_
      rw [filter_insertDescending hties, List.filter_cons, List.filter_cons]
      split <;> simp
  rw [insertionSort, List.filter_reverse, heach, List.filter_nil, List.append_nil, List.reverse_reverse]

/-- An ascending list stays as it is. -/
theorem insertionSort_of_ascending {l : List α} (h : Ascending less l) : insertionSort less l = l := by
  have heach : ∀ descending, (∀ x ∈ l, ∀ y ∈ descending, less x y = false) →
      insertEach less descending l = l.reverse ++ descending := by
    induction l with
    | nil => intro descending _; rfl
    | cons x rest ih =>
      intro descending hbelow
      obtain ⟨hfirst, hrest⟩ := List.pairwise_cons.1 h
      have hput : insertDescending less x descending = x :: descending := by
        rcases descending with _ | ⟨y, descending⟩
        · rfl
        · rw [insertDescending, hbelow x (List.mem_cons_self ..) y (List.mem_cons_self ..),
            if_neg Bool.false_ne_true]
      have hstep : insertEach less descending (x :: rest) = insertEach less (x :: descending) rest :=
        congrArg (fun d => insertEach less d rest) hput
      rw [hstep, ih hrest, List.reverse_cons, List.append_assoc, List.singleton_append]
      intro z hz y hy
      rcases List.mem_cons.1 hy with rfl | hy
      · exact hfirst z hz
      · exact hbelow z (List.mem_cons_of_mem _ hz) y hy
  rw [insertionSort, heach [] fun _ _ _ hy => absurd hy List.not_mem_nil, List.append_nil, List.reverse_reverse]

/-! ## Blocks -/

lemma LinearOn.swap {l : List α} (h : LinearOn less l) : LinearOn (fun a b => less b a) l :=
  ⟨fun a ha b hb => h.asymm b hb a ha, fun a ha b hb c hc hab hbc => h.trans c hc b hb a ha hbc hab⟩

/-- Of what is taken from two ascending lists and what is left, the order is known: a member taken from the left is
not greater than one left on the right, and one taken from the right is less than one left on the left. -/
lemma take_separates (count : Nat) {left right : List α} (hlinear : LinearOn less (left ++ right))
    (hleft : Ascending less left) (hright : Ascending less right) :
    ∃ i j, i + j ≤ count ∧ i ≤ left.length ∧ j ≤ right.length ∧ (take less count left right).left = left.drop i ∧
      (take less count left right).right = right.drop j ∧
      (∀ x ∈ left.take i, ∀ y ∈ right.drop j, less y x = false) ∧
      ∀ y ∈ right.take j, ∀ x ∈ left.drop i, less y x = true := by
  fun_induction take less count left right with
  | case1 count x left y right hless rest ih =>
    obtain ⟨hbelow, hright⟩ := List.pairwise_cons.1 hright
    have hsub : (x :: left) ++ right ⊆ (x :: left) ++ y :: right :=
      ((List.Sublist.refl (x :: left)).append (List.sublist_cons_self y right)).subset
    obtain ⟨i, j, hcount, hi, hj, hdropLeft, hdropRight, hfirst, hsecond⟩ := ih (hlinear.mono hsub) hleft hright
    refine ⟨i, j + 1, by omega, hi, Nat.succ_le_succ hj, hdropLeft, hdropRight, hfirst, fun z hz w hw => ?_⟩
    rcases List.mem_cons.1 hz with rfl | hz
    · -- the front of the left list is not greater than what is behind it
      have hx : x ∈ (x :: left) ++ z :: right := List.mem_append_left _ (List.mem_cons_self ..)
      have hz : z ∈ (x :: left) ++ z :: right := List.mem_append_right _ (List.mem_cons_self ..)
      have hw' := List.mem_of_mem_drop hw
      by_contra hnot
      rcases List.mem_cons.1 hw' with rfl | hbehind
      · exact hnot hless
      · have hxw := (List.pairwise_cons.1 hleft).1 w hbehind
        have hfalse := hlinear.trans x hx w (List.mem_append_left _ hw') z hz hxw (Bool.eq_false_iff.2 hnot)
        exact absurd hless (Bool.eq_false_iff.1 hfalse)
    · exact hsecond z hz w hw
  | case2 count x left y right hless rest ih =>
    obtain ⟨hbelow, hleft⟩ := List.pairwise_cons.1 hleft
    have hsub : left ++ y :: right ⊆ (x :: left) ++ y :: right := List.subset_cons_self x _
    obtain ⟨i, j, hcount, hi, hj, hdropLeft, hdropRight, hfirst, hsecond⟩ := ih (hlinear.mono hsub) hleft hright
    refine ⟨i + 1, j, by omega, Nat.succ_le_succ hi, hj, hdropLeft, hdropRight, fun z hz w hw => ?_, hsecond⟩
    rcases List.mem_cons.1 hz with rfl | hz
    · have hz : z ∈ (z :: left) ++ y :: right := List.mem_append_left _ (List.mem_cons_self ..)
      have hy : y ∈ (z :: left) ++ y :: right := List.mem_append_right _ (List.mem_cons_self ..)
      have hw' := List.mem_of_mem_drop hw
      have hzy : less y z = false := Bool.eq_false_iff.2 hless
      rcases List.mem_cons.1 hw' with rfl | hbehind
      · exact hzy
      · have hyw := (List.pairwise_cons.1 hright).1 w hbehind
        exact hlinear.trans z hz y hy w (List.mem_append_right _ hw') hzy hyw
    · exact hfirst z hz w hw
  | case3 count left right _ =>
    refine ⟨0, 0, Nat.zero_le _, Nat.zero_le _, Nat.zero_le _, rfl, rfl, fun x hx => ?_, fun y hy => ?_⟩
    · exact absurd hx List.not_mem_nil
    · exact absurd hy List.not_mem_nil

/-- Two ends of a list that together are longer than the list have a member in common. -/
lemma exists_mem_overlap {l : List α} {i j : Nat} (hi : i ≤ l.length) (hj : j ≤ l.length)
    (h : l.length < i + j) : ∃ x, x ∈ l.take i ∧ x ∈ l.reverse.take j := by
  have hindex : i - 1 < l.length := by omega
  refine ⟨l[i - 1], List.mem_take_iff_getElem.2 ⟨i - 1, by omega, rfl⟩, ?_⟩
  rw [List.take_reverse, List.mem_reverse, List.mem_drop_iff_getElem]
  refine ⟨i - 1 - (l.length - j), by omega, ?_⟩
  congr 1
  omega

/-- Between two ends of a list that together are shorter than the list there is a member. -/
lemma exists_mem_gap {l : List α} {i j : Nat} (h : i + j < l.length) : ∃ x, x ∈ l.drop i ∧ x ∈ l.reverse.drop j := by
  have hindex : i < l.length := by omega
  refine ⟨l[i], List.mem_drop_iff_getElem.2 ⟨0, by omega, rfl⟩, ?_⟩
  rw [List.drop_reverse, List.mem_reverse, List.mem_take_iff_getElem]
  exact ⟨i, by omega, rfl⟩

lemma reverse_append_subset (left right : List α) : right.reverse ++ left.reverse ⊆ left ++ right := by
  rw [← List.reverse_append]
  exact fun x hx => List.mem_reverse.1 hx

/-- Two ascending lists, the right one not shorter than the left one, are merged from both ends without a member
being taken twice. -/
lemma isSome_meet? {left right : List α} (hlinear : LinearOn less (left ++ right)) (hleft : Ascending less left)
    (hright : Ascending less right) (hlength : left.length ≤ right.length) : (meet? less left right).isSome := by
  obtain ⟨i, j, hcount, hi, hj, hdropLeft, hdropRight, hfirst, hsecond⟩ :=
    take_separates left.length hlinear hleft hright
  obtain ⟨i', j', hcount', hi', hj', hdropLeft', hdropRight', hfirst', hsecond'⟩ :=
    take_separates left.length (hlinear.mono (reverse_append_subset left right)).swap
      (List.pairwise_reverse.2 hright) (List.pairwise_reverse.2 hleft)
  have hguard : i + j' ≤ left.length ∧ j + i' ≤ right.length := by
    constructor
    · -- a member of the left list taken from both ends would be less than one of the right list taken from neither
      by_contra hover
      have hgap : j + i' < right.length := by omega
      obtain ⟨x, hx, hx'⟩ := exists_mem_overlap hi (List.length_reverse ▸ hj') (Nat.lt_of_not_le hover)
      obtain ⟨y, hy, hy'⟩ := exists_mem_gap hgap
      have hless := hsecond' x hx' y hy'
      exact absurd hless (Bool.eq_false_iff.1 (hfirst x hx y hy))
    · by_contra hover
      have hgap : i + j' < left.length := by omega
      obtain ⟨y, hy, hy'⟩ := exists_mem_overlap hj (List.length_reverse ▸ hi') (Nat.lt_of_not_le hover)
      obtain ⟨x, hx, hx'⟩ := exists_mem_gap hgap
      have hless := hsecond y hy x hx
      exact absurd hless (Bool.eq_false_iff.1 (hfirst' y hy' x hx'))
  rw [meet?_eq hi hj hi' hj' hdropLeft hdropRight hdropLeft' hdropRight', if_pos hguard]
  rfl

lemma ascending_four {a b c d : α} : Ascending less [a, b, c, d] ↔
    (less b a = false ∧ less c a = false ∧ less d a = false) ∧ (less c b = false ∧ less d b = false) ∧
      less d c = false := by
  simp [Ascending]

/-- Five comparisons are enough for four members. -/
lemma ascending_sortFour {a b c d : α} (hlinear : LinearOn less [a, b, c, d]) :
    Ascending less (sortFour less a b c d) := by
  obtain ⟨hasymm, htrans⟩ := hlinear
  simp only [List.mem_cons, List.not_mem_nil, or_false] at hasymm htrans
  unfold sortFour
  -- one case for each outcome of the comparisons
  cases hlow : less b a <;> cases hhigh : less d c <;> simp only [Bool.false_eq_true, if_true, if_false]
  all_goals split <;> split <;> split <;> rw [ascending_four] <;> grind

lemma ascending_sortHalf {l : List α} (hlinear : LinearOn less l) (long : Bool) :
    Ascending less (sortHalf less long l) := by
  unfold sortHalf
  split
  · next a b c d rest =>
    split
    · have hfour : Descending less (sortFour less a b c d).reverse := by
        rw [← ascending_reverse, List.reverse_reverse]
        exact ascending_sortFour (hlinear.mono (List.sublist_append_left [a, b, c, d] rest).subset)
      refine ascending_reverse.2 (hfour.insertEach (hlinear.mono ?_))
      intro x hx
      rcases List.mem_append.1 hx with hx | hx
      · exact List.mem_append_right [a, b, c, d] hx
      · exact List.mem_append_left rest ((perm_sortFour less a b c d).subset (List.mem_reverse.1 hx))
    · exact ascending_insertionSort hlinear
  · exact ascending_insertionSort hlinear

lemma isSome_sortBlock? {l : List α} (hlinear : LinearOn less l) : (sortBlock? less l).isSome := by
  refine isSome_meet? (hlinear.mono (perm_halves less _ _ l).subset)
    (ascending_sortHalf (hlinear.mono (List.take_subset _ _)) _)
    (ascending_sortHalf (hlinear.mono (List.drop_subset _ _)) _) ?_
  rw [length_sortHalf, length_sortHalf, List.length_take, List.length_drop]
  omega

/-! ## Runs -/

/-- The sort that a filler defers to gives a result for members of `m`. -/
def Filler.Serves (m : List α) : Filler α → Prop
  | .blocks => True
  | .deferred sort? => ∀ l, l ⊆ m → (sort? l).isSome

lemma Filler.serves_blocks (m : List α) : (Filler.blocks : Filler α).Serves m := trivial

variable {filler : Filler α} {m : List α}

lemma isSome_nextRun? (hlinear : LinearOn less m) (kept : Nat) {l : List α} (hl : l ⊆ m) :
    (nextRun? less filler kept l).isSome := by
  unfold nextRun?
  simp only
  split
  · rfl
  · split
    · rw [Option.isSome_map]
      exact isSome_sortBlock? (hlinear.mono fun x hx => hl (List.mem_of_mem_take hx))
    · rfl

lemma isSome_cut? (hlinear : LinearOn less m) (kept fuel : Nat) {l : List α} (hl : l ⊆ m) :
    (cut? less filler kept fuel l).isSome := by
  induction fuel generalizing l with
  | zero => rfl
  | succ fuel ih =>
    rcases l with _ | ⟨x, l⟩
    · rfl
    · obtain ⟨r, hr⟩ : ∃ r, nextRun? less filler kept (x :: l) = some r :=
        Option.isSome_iff_exists.1 (isSome_nextRun? hlinear kept hl)
      have hdrop : (x :: l).drop r.items.length ⊆ m := fun y hy => hl (List.mem_of_mem_drop hy)
      obtain ⟨rest, hrest⟩ := Option.isSome_iff_exists.1 (ih hdrop)
      simp [cut?, hr, hrest]

lemma Run.isSome_settle? (hserves : filler.Serves m) {r : Run α} (hr : r.items ⊆ m) : (r.settle? filler).isSome := by
  unfold Run.settle?
  split
  · exact hserves r.items hr
  · rfl

lemma Run.isSome_join? (hserves : filler.Serves m) {l r : Run α} (hl : l.items ⊆ m) (hr : r.items ⊆ m) :
    (l.join? less filler r).isSome := by
  unfold Run.join?
  split
  · obtain ⟨left, hleft⟩ := Option.isSome_iff_exists.1 (Run.isSome_settle? hserves hl)
    obtain ⟨right, hright⟩ := Option.isSome_iff_exists.1 (Run.isSome_settle? hserves hr)
    simp [hleft, hright]
  · rfl

lemma isSome_collapse? (hkeeps : filler.Keeps) (hserves : filler.Serves m) (depth : Nat) {before : List (Pending α)}
    {r : Run α} (hall : r.items ++ waiting before ⊆ m) : (collapse? less filler depth before r).isSome := by
  induction before generalizing r with
  | nil => rfl
  | cons p before ih =>
    rw [collapse?]
    split
    · have hparts := List.append_subset.1 hall
      have hlater := List.append_subset.1 hparts.2
      obtain ⟨joined, hjoined⟩ : ∃ joined, p.run.join? less filler r = some joined :=
        Option.isSome_iff_exists.1 (Run.isSome_join? hserves hlater.1 hparts.1)
      rw [hjoined]
      refine ih (List.append_subset.2 ⟨?_, hlater.2⟩)
      exact List.Subset.trans (Run.perm_join? hkeeps hjoined).subset (List.append_subset.2 ⟨hlater.1, hparts.1⟩)
    · rfl

lemma isSome_mergeRuns? (hkeeps : filler.Keeps) (hserves : filler.Serves m) (n start : Nat)
    {before : List (Pending α)} {r : Run α} {runs : List (Run α)}
    (hall : r.items ++ waiting before ++ runs.flatMap Run.items ⊆ m) :
    (mergeRuns? less filler n start before r runs).isSome := by
  induction runs generalizing start before r with
  | nil =>
    obtain ⟨hfront, -⟩ := List.append_subset.1 hall
    obtain ⟨⟨before', whole⟩, hcollapse⟩ : ∃ result, collapse? less filler 0 before r = some result :=
      Option.isSome_iff_exists.1 (isSome_collapse? hkeeps hserves 0 hfront)
    have hwhole := List.Subset.trans (perm_collapse? hkeeps hcollapse).subset hfront
    rw [mergeRuns?, hcollapse]
    exact Run.isSome_settle? hserves (List.append_subset.1 hwhole).1
  | cons next rest ih =>
    obtain ⟨hfront, hlater⟩ := List.append_subset.1 hall
    obtain ⟨⟨before', joined⟩, hcollapse⟩ : ∃ result, collapse? less filler (boundaryDepth n start
        (start + r.items.length) (start + r.items.length + next.items.length)) before r = some result :=
      Option.isSome_iff_exists.1 (isSome_collapse? hkeeps hserves _ hfront)
    have hjoined := List.Subset.trans (perm_collapse? hkeeps hcollapse).subset hfront
    rw [List.flatMap_cons] at hlater
    obtain ⟨hnext, hrest⟩ := List.append_subset.1 hlater
    rw [mergeRuns?]
    simp only [hcollapse]
    exact ih _ (List.append_subset.2 ⟨List.append_subset.2 ⟨hnext, hjoined⟩, hrest⟩)

lemma isSome_sortByRuns? (hlinear : LinearOn less m) (hkeeps : filler.Keeps) (hserves : filler.Serves m) {l : List α}
    (hl : l ⊆ m) : (sortByRuns? less filler l).isSome := by
  obtain ⟨runs, hruns⟩ : ∃ runs, cut? less filler (keptLength l.length) l.length l = some runs :=
    Option.isSome_iff_exists.1 (isSome_cut? hlinear _ _ hl)
  have hitems : runs.flatMap Run.items ⊆ m := List.Subset.trans (perm_runs hruns).subset hl
  unfold sortByRuns?
  rw [hruns]
  rcases runs with _ | ⟨r, rest⟩
  · rfl
  · refine isSome_mergeRuns? hkeeps hserves l.length 0 ?_
    rwa [waiting, List.flatMap_nil, List.append_nil]

/-! ## Pivots -/

lemma isSome_sample? (less : α → α → Bool) {l : Array α} {i n : Nat} (hn : 0 < n) (hfits : i + n ≤ l.size) :
    (sample? less l i n).isSome := by
  fun_induction sample? less l i n with
  | case1 i n hshort => simp; omega
  | case2 i n hlong iha ihb ihc =>
    obtain ⟨a, ha⟩ := Option.isSome_iff_exists.1 (iha (by omega) (by omega))
    obtain ⟨b, hb⟩ := Option.isSome_iff_exists.1 (ihb (by omega) (by omega))
    obtain ⟨c, hc⟩ := Option.isSome_iff_exists.1 (ihc (by omega) (by omega))
    simp [ha, hb, hc]

lemma isSome_sortByPivot? (hlinear : LinearOn less m) (limit : Nat) (floor : Option α) {l : List α} (hl : l ⊆ m) :
    (sortByPivot? less limit floor l).isSome := by
  induction limit generalizing floor l with
  | zero =>
    rw [sortByPivot?]
    split
    · exact isSome_sortBlock? (hlinear.mono hl)
    · exact isSome_sortByRuns? hlinear Filler.keeps_blocks (Filler.serves_blocks m) hl
  | succ limit ih =>
    rw [sortByPivot?]
    split
    · exact isSome_sortBlock? (hlinear.mono hl)
    · next hlong =>
      have hpart : ∀ p : α → Bool, (l.partition p).1 ⊆ m ∧ (l.partition p).2 ⊆ m := fun p =>
        List.append_subset.1 (List.Subset.trans (perm_partition p l).subset hl)
      obtain ⟨pivot, hpivot⟩ : ∃ pivot, sample? less l.toArray 0 l.length = some pivot :=
        Option.isSome_iff_exists.1 (isSome_sample? less (by omega) (by simp))
      rw [hpivot]
      simp only [Option.bind_eq_bind, Option.bind_some]
      split
      · obtain ⟨greater, hgreater⟩ := Option.isSome_iff_exists.1 (ih none (hpart fun x => !less pivot x).2)
        rw [hgreater]
        rfl
      · obtain ⟨high, hhigh⟩ := Option.isSome_iff_exists.1 (ih (some pivot) (hpart fun x => less x pivot).2)
        obtain ⟨low, hlow⟩ := Option.isSome_iff_exists.1 (ih floor (hpart fun x => less x pivot).1)
        rw [hhigh, hlow]
        rfl

/-- In a linear order, sorting gives a result. -/
theorem isSome_sort? {l : List α} (hlinear : LinearOn less l) : (sort? less l).isSome := by
  unfold sort?
  split
  · rfl
  · split
    · exact isSome_sortByRuns? hlinear Filler.keeps_blocks (Filler.serves_blocks l) (List.Subset.refl l)
    · refine isSome_sortByRuns? hlinear ?_ ?_ (List.Subset.refl l)
      · exact fun _ _ => perm_sortByPivot?
      · exact fun part hpart => isSome_sortByPivot? hlinear _ none hpart

end Sorting
end CommandEngine
