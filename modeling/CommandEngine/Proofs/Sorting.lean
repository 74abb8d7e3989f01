import CommandEngine.Sorting.Pivot
import Mathlib.Data.List.Basic

/-!
# Sorting keeps every member

Whatever test a list is sorted by, the result has the members of the list, each as often as before: a test
that contradicts itself may lead to no result, but not to a wrong one.  The one place where members could be
lost or repeated is `Sorting.meet?`, which takes them from both ends of two lists at once; its guard says
that the two ends do not overlap (`Sorting.perm_meet?`).  All else moves members about, and
`Sorting.perm_sort?` follows the way through blocks, runs and pivots.
-/

namespace CommandEngine
namespace Sorting

variable {α : Type} {less : α → α → Bool}

/-! ## Blocks -/

/-- What is taken from two lists is a front part of each, and the rest is left. -/
lemma take_spec (less : α → α → Bool) (count : Nat) (left right : List α) :
    ∃ i j, i ≤ left.length ∧ j ≤ right.length ∧ (take less count left right).left = left.drop i ∧
      (take less count left right).right = right.drop j ∧
      (take less count left right).items.Perm (left.take i ++ right.take j) := by
  fun_induction take less count left right with
  | case1 count x left y right _ rest ih =>
    obtain ⟨i, j, hi, hj, hleft, hright, hitems⟩ := ih
    refine ⟨i, j + 1, hi, Nat.succ_le_succ hj, hleft, hright, ?_⟩
    rw [List.take_succ_cons]
    exact (hitems.cons y).trans List.perm_middle.symm
  | case2 count x left y right _ rest ih =>
    obtain ⟨i, j, hi, hj, hleft, hright, hitems⟩ := ih
    refine ⟨i + 1, j, Nat.succ_le_succ hi, hj, hleft, hright, ?_⟩
    rw [List.take_succ_cons]
    exact hitems.cons x
  | case3 => exact ⟨0, 0, Nat.zero_le _, Nat.zero_le _, rfl, rfl, .refl _⟩

/-- A list from its two ends and what stands between them. -/
lemma perm_ends {l : List α} {i j : Nat} (h : i + j ≤ l.length) :
    (l.take i ++ ((l.drop i).take (l.length - (i + j)) ++ l.reverse.take j)).Perm l := by
  have hback : (l.reverse.take j).Perm (l.drop (l.length - j)) := by
    rw [List.take_reverse]
    exact List.reverse_perm _
  have hmiddle : (l.drop i).take (l.length - (i + j)) ++ l.drop (l.length - j) = l.drop i := by
    have hdrop : l.drop (l.length - j) = (l.drop i).drop (l.length - (i + j)) := by
      rw [List.drop_drop]
      congr 1
      omega
    rw [hdrop, List.take_append_drop]
  have hall := List.take_append_drop i l
  rw [← hmiddle] at hall
  conv_rhs => rw [← hall]
  exact ((hback.append_left _).append_left _)

/-- Merging from both ends, told by how many members of either list were taken at the front and at the back. -/
lemma meet?_eq {left right : List α} {i j i' j' : Nat} (hi : i ≤ left.length) (hj : j ≤ right.length)
    (hi' : i' ≤ right.reverse.length) (hj' : j' ≤ left.reverse.length)
    (hleft : (take less left.length left right).left = left.drop i)
    (hright : (take less left.length left right).right = right.drop j)
    (hleft' : (takeLast less left.length left right).left = right.reverse.drop i')
    (hright' : (takeLast less left.length left right).right = left.reverse.drop j') :
    meet? less left right =
      if i + j' ≤ left.length ∧ j + i' ≤ right.length then
        some ((take less left.length left right).items ++ (left.drop i).take (left.length - (i + j')) ++
          (right.drop j).take (right.length - (j + i')) ++ (takeLast less left.length left right).items.reverse)
      else none := by
  rw [List.length_reverse] at hi' hj'
  have hfromLeft : (left.length - (left.drop i).length) + (left.length - (left.reverse.drop j').length) =
      i + j' := by
    rw [List.length_drop, List.length_drop, List.length_reverse]
    omega
  have hfromRight : (right.length - (right.drop j).length) +
      (right.length - (right.reverse.drop i').length) = j + i' := by
    rw [List.length_drop, List.length_drop, List.length_reverse]
    omega
  unfold meet?
  simp only [hleft, hright, hleft', hright', hfromLeft, hfromRight]

/-- Merging from both ends neither loses nor repeats a member. -/
lemma perm_meet? {left right l : List α} (h : meet? less left right = some l) : l.Perm (left ++ right) := by
  classical
  obtain ⟨i, j, hi, hj, hleft, hright, hfront⟩ := take_spec less left.length left right
  obtain ⟨i', j', hi', hj', hleft', hright', hback⟩ :=
    take_spec (fun a b => less b a) left.length right.reverse left.reverse
  rw [meet?_eq hi hj hi' hj' hleft hright hleft' hright'] at h
  obtain ⟨hguard, h⟩ := Option.ite_none_right_eq_some.1 h
  obtain rfl := Option.some.inj h
  refine List.Perm.trans ?_ ((perm_ends hguard.1).append (perm_ends hguard.2))
  -- the six parts stand in another order
  rw [List.perm_iff_count]
  intro x
  have hf := hfront.count_eq x
  have hb := hback.count_eq x
  rw [takeLast]
  simp only [List.count_append, List.count_reverse] at hf hb ⊢
  omega

lemma perm_sortFour (less : α → α → Bool) (a b c d : α) : (sortFour less a b c d).Perm [a, b, c, d] := by
  classical
  rw [List.perm_iff_count]
  intro x
  unfold sortFour
  cases less b a <;> cases less d c <;> simp only [Bool.false_eq_true, if_true, if_false]
  all_goals split <;> split <;> split <;> simp only [List.count_cons, List.count_nil] <;> omega

lemma perm_sortHalf (less : α → α → Bool) (long : Bool) (l : List α) : (sortHalf less long l).Perm l := by
  unfold sortHalf
  split
  · next a b c d rest =>
    split
    · have hfour : (sortFour less a b c d).reverse.Perm [a, b, c, d] :=
        (List.reverse_perm _).trans (perm_sortFour less a b c d)
      have hrest := perm_insertEach less (sortFour less a b c d).reverse rest
      exact (List.reverse_perm _).trans (hrest.trans ((hfour.append_left rest).trans List.perm_append_comm))
    · exact perm_insertionSort less _
  · exact perm_insertionSort less _

lemma length_sortHalf (less : α → α → Bool) (long : Bool) (l : List α) : (sortHalf less long l).length = l.length :=
  (perm_sortHalf less long l).length_eq

lemma perm_halves (less : α → α → Bool) (long : Bool) (n : Nat) (l : List α) :
    (sortHalf less long (l.take n) ++ sortHalf less long (l.drop n)).Perm l := by
  have hhalves := (perm_sortHalf less long (l.take n)).append (perm_sortHalf less long (l.drop n))
  rwa [List.take_append_drop] at hhalves

lemma perm_sortBlock? {l l' : List α} (h : sortBlock? less l = some l') : l'.Perm l :=
  (perm_meet? h).trans (perm_halves less _ _ l)

/-! ## Runs -/

/-- The sort that a filler defers to keeps every member. -/
def Filler.Keeps : Filler α → Prop
  | .blocks => True
  | .deferred sort? => ∀ l l', sort? l = some l' → l'.Perm l

lemma Filler.keeps_blocks : (Filler.blocks : Filler α).Keeps := trivial

variable {filler : Filler α}

lemma perm_take_length {l run : List α} {n : Nat} (h : run.Perm (l.take n)) : run.Perm (l.take run.length) := by
  rwa [h.length_eq, List.length_take, ← List.take_eq_take_min]

lemma perm_frontRun (less : α → α → Bool) (l : List α) :
    (frontRun less l).Perm (l.take (frontRun less l).length) := by
  unfold frontRun
  split
  · next x y rest =>
    simp only
    split
    · exact perm_take_length (List.reverse_perm _)
    · exact perm_take_length (.refl _)
  · rw [List.take_length]

/-- The next run has the members at the front of the list, at least one. -/
lemma nextRun?_spec {kept : Nat} (hkept : 0 < kept) {l : List α} {r : Run α}
    (h : nextRun? less filler kept l = some r) :
    r.items.Perm (l.take r.items.length) ∧ (l ≠ [] → 0 < r.items.length) := by
  unfold nextRun? at h
  simp only at h
  split at h
  · next hlong =>
    obtain rfl := Option.some.inj h
    exact ⟨perm_frontRun less l, fun _ => Nat.lt_of_lt_of_le hkept hlong⟩
  · split at h
    · obtain ⟨block, hblock, rfl⟩ := Option.map_eq_some_iff.1 h
      have hperm := perm_sortBlock? hblock
      refine ⟨perm_take_length hperm, fun hne => ?_⟩
      have hpos := List.length_pos_iff.2 hne
      rw [hperm.length_eq, List.length_take, blockLength]
      omega
    · obtain rfl := Option.some.inj h
      refine ⟨perm_take_length (.refl _), fun hne => ?_⟩
      have hpos := List.length_pos_iff.2 hne
      rw [List.length_take]
      omega

/-- The runs that a list is cut into have all its members. -/
lemma perm_cut? {kept : Nat} (hkept : 0 < kept) {fuel : Nat} {l : List α} {runs : List (Run α)}
    (h : cut? less filler kept fuel l = some runs) (hfuel : l.length ≤ fuel) :
    (runs.flatMap Run.items).Perm l := by
  induction fuel generalizing l runs with
  | zero =>
    obtain rfl := Option.some.inj h
    rw [List.length_eq_zero_iff.1 (Nat.le_zero.1 hfuel)]
    exact .refl _
  | succ fuel ih =>
    cases l with
    | nil =>
      obtain rfl := Option.some.inj h
      exact .refl _
    | cons x l =>
      obtain ⟨r, hr, h⟩ := Option.bind_eq_some_iff.1 h
      obtain ⟨rest, hrest, h⟩ := Option.bind_eq_some_iff.1 h
      obtain rfl := Option.some.inj h
      obtain ⟨hperm, hpos⟩ := nextRun?_spec hkept hr
      have hshorter : ((x :: l).drop r.items.length).length ≤ fuel := by
        have hone := hpos (List.cons_ne_nil _ _)
        rw [List.length_drop]
        omega
      have hsplit := hperm.append (ih hrest hshorter)
      rwa [List.take_append_drop] at hsplit

lemma Run.perm_settle? (hfiller : filler.Keeps) {r : Run α} {l : List α} (h : r.settle? filler = some l) :
    l.Perm r.items := by
  unfold Run.settle? at h
  split at h
  · next sort? _ => exact hfiller r.items l h
  · obtain rfl := Option.some.inj h
    exact .refl _

/-- What joining gives: one of the runs is sorted and both are merged, or neither is and they stay as they are. -/
lemma Run.join?_cases {l r joined : Run α} (h : l.join? less filler r = some joined) :
    (∃ left right, l.settle? filler = some left ∧ r.settle? filler = some right ∧
      joined = ⟨merge less left right, true⟩) ∨
    (l.sorted = false ∧ r.sorted = false ∧ joined = ⟨l.items ++ r.items, false⟩) := by
  unfold Run.join? at h
  split at h
  · obtain ⟨left, hleft, h⟩ := Option.bind_eq_some_iff.1 h
    obtain ⟨right, hright, h⟩ := Option.bind_eq_some_iff.1 h
    exact .inl ⟨left, right, hleft, hright, (Option.some.inj h).symm⟩
  · next hneither =>
    obtain ⟨hl, hr⟩ := Bool.or_eq_false_iff.1 (Bool.eq_false_iff.2 hneither)
    exact .inr ⟨hl, hr, (Option.some.inj h).symm⟩

lemma Run.perm_join? (hfiller : filler.Keeps) {l r joined : Run α} (h : l.join? less filler r = some joined) :
    joined.items.Perm (l.items ++ r.items) := by
  obtain ⟨left, right, hleft, hright, rfl⟩ | ⟨-, -, rfl⟩ := Run.join?_cases h
  · exact (perm_merge less left right).trans
      ((Run.perm_settle? hfiller hleft).append (Run.perm_settle? hfiller hright))
  · exact .refl _

/-- The members of the runs that wait, the last of which comes first. -/
def waiting (before : List (Pending α)) : List α := before.flatMap fun p => p.run.items

lemma perm_collapse? (hfiller : filler.Keeps) {depth : Nat} {before before' : List (Pending α)} {r r' : Run α}
    (h : collapse? less filler depth before r = some (before', r')) :
    (r'.items ++ waiting before').Perm (r.items ++ waiting before) := by
  induction before generalizing r with
  | nil =>
    obtain ⟨rfl, rfl⟩ := Prod.mk.inj (Option.some.inj h)
    exact .refl _
  | cons p before ih =>
    rw [collapse?] at h
    split at h
    · obtain ⟨joined, hjoined, h⟩ := Option.bind_eq_some_iff.1 h
      have hjoin := (Run.perm_join? hfiller hjoined).trans List.perm_append_comm
      have hstep := hjoin.append_right (waiting before)
      rw [List.append_assoc] at hstep
      exact (ih h).trans hstep
    · obtain ⟨rfl, rfl⟩ := Prod.mk.inj (Option.some.inj h)
      exact .refl _

/-- At depth zero nothing is left waiting. -/
lemma collapse?_zero {before before' : List (Pending α)} {r r' : Run α}
    (h : collapse? less filler 0 before r = some (before', r')) : before' = [] := by
  induction before generalizing r with
  | nil => exact (Prod.mk.inj (Option.some.inj h)).1.symm
  | cons p before ih =>
    rw [collapse?, if_pos (Nat.zero_le _)] at h
    obtain ⟨joined, -, h⟩ := Option.bind_eq_some_iff.1 h
    exact ih h

lemma perm_mergeRuns? (hfiller : filler.Keeps) {n start : Nat} {before : List (Pending α)} {r : Run α}
    {runs : List (Run α)} {l : List α} (h : mergeRuns? less filler n start before r runs = some l) :
    l.Perm (r.items ++ waiting before ++ runs.flatMap Run.items) := by
  induction runs generalizing start before r with
  | nil =>
    obtain ⟨⟨before', whole⟩, hcollapse, h⟩ := Option.bind_eq_some_iff.1 h
    have hperm := perm_collapse? hfiller hcollapse
    rw [collapse?_zero hcollapse, waiting, List.flatMap_nil, List.append_nil] at hperm
    rw [List.flatMap_nil, List.append_nil]
    exact (Run.perm_settle? hfiller h).trans hperm
  | cons next rest ih =>
    obtain ⟨⟨before', joined⟩, hcollapse, h⟩ := Option.bind_eq_some_iff.1 h
    have hperm := perm_collapse? hfiller hcollapse
    have hrest := ih h
    rw [List.flatMap_cons, ← List.append_assoc]
    refine hrest.trans (List.Perm.append_right _ ?_)
    exact List.perm_append_comm.trans (hperm.append_right next.items)

lemma keptLength_pos {n : Nat} (hn : 0 < n) : 0 < keptLength n := by
  unfold keptLength
  split
  · omega
  · next hlong =>
    have hlog : 12 ≤ n.log2 := (Nat.le_log2 (Nat.ne_of_gt hn)).2 (by omega)
    have hshift : 1 < 1 <<< ((1 + n.log2) / 2) := by
      rw [Nat.one_shiftLeft]
      exact Nat.one_lt_two_pow (by omega)
    show 0 < ((1 <<< ((1 + n.log2) / 2)) + (n >>> ((1 + n.log2) / 2))) / 2
    generalize n >>> ((1 + n.log2) / 2) = share
    generalize 1 <<< ((1 + n.log2) / 2) = root at hshift
    omega

/-- The runs of a list have all its members, for the length from which on a run of such a list is kept. -/
lemma perm_runs {l : List α} {runs : List (Run α)}
    (h : cut? less filler (keptLength l.length) l.length l = some runs) : (runs.flatMap Run.items).Perm l := by
  cases l with
  | nil =>
    obtain rfl := Option.some.inj h
    exact .refl _
  | cons x l => exact perm_cut? (keptLength_pos (Nat.succ_pos _)) h (Nat.le_refl _)

lemma perm_sortByRuns? (hfiller : filler.Keeps) {l l' : List α} (h : sortByRuns? less filler l = some l') :
    l'.Perm l := by
  obtain ⟨runs, hruns, h⟩ := Option.bind_eq_some_iff.1 h
  have hperm := perm_runs hruns
  cases runs with
  | nil =>
    obtain rfl := Option.some.inj h
    exact hperm
  | cons r rest =>
    have hmerged := perm_mergeRuns? hfiller h
    rw [waiting, List.flatMap_nil, List.append_nil] at hmerged
    exact hmerged.trans hperm

/-! ## Pivots -/

lemma perm_partition (p : α → Bool) (l : List α) : ((l.partition p).1 ++ (l.partition p).2).Perm l := by
  rw [List.partition_eq_filter_filter]
  exact List.filter_append_perm p l

lemma perm_sortByPivot? {limit : Nat} {floor : Option α} {l l' : List α}
    (h : sortByPivot? less limit floor l = some l') : l'.Perm l := by
  induction limit generalizing floor l l' with
  | zero =>
    rw [sortByPivot?] at h
    split at h
    · exact perm_sortBlock? h
    · exact perm_sortByRuns? Filler.keeps_blocks h
  | succ limit ih =>
    rw [sortByPivot?] at h
    split at h
    · exact perm_sortBlock? h
    · obtain ⟨pivot, -, h⟩ := Option.bind_eq_some_iff.1 h
      simp only at h
      split at h
      · obtain ⟨greater, hgreater, h⟩ := Option.bind_eq_some_iff.1 h
        obtain rfl := Option.some.inj h
        exact ((ih hgreater).append_left _).trans (perm_partition _ l)
      · obtain ⟨high, hhigh, h⟩ := Option.bind_eq_some_iff.1 h
        obtain ⟨low, hlow, h⟩ := Option.bind_eq_some_iff.1 h
        obtain rfl := Option.some.inj h
        exact ((ih hlow).append (ih hhigh)).trans (perm_partition _ l)

/-- Sorting keeps every member. -/
theorem perm_sort? {l l' : List α} (h : sort? less l = some l') : l'.Perm l := by
  unfold sort? at h
  split at h
  · obtain rfl := Option.some.inj h
    exact perm_insertionSort less l
  · split at h
    · exact perm_sortByRuns? Filler.keeps_blocks h
    · exact perm_sortByRuns? (show Filler.Keeps (.deferred _) from fun _ _ => perm_sortByPivot?) h

end Sorting
end CommandEngine
