import CommandEngine.Proofs.LinearSorting

/-!
# Sorting gives an ascending list

In a linear order, what `Sorting.sort?` gives is ascending, whichever way it goes (`Sorting.ascending_sort?`).

Everything rests on one fact about taking members from two ascending lists: what was taken is ascending, and
nothing that is left is less than it (`Sorting.ordered_take`).  Merging from one end takes until a list is used up;
merging from both ends leaves at most one member in the middle.  A run is either ascending or left to its filler
(`Run.Sound`), and joining runs keeps that.  A division by a pivot keeps the members that a list is known not to go
below, which is what allows the members that tie with such a pivot to stay where they are.
-/

namespace CommandEngine
namespace Sorting

variable {α : Type} {less : α → α → Bool} {m : List α}

/-! ## Merging -/

/-- What was taken is ascending, and nothing that is left is less than it. -/
structure Taken.Ordered (less : α → α → Bool) (t : Taken α) : Prop where
  ascending : Ascending less t.items
  below : ∀ x ∈ t.items, ∀ y ∈ t.left ++ t.right, less y x = false

/-- A member that nothing else is less than may be taken first. -/
lemma Taken.Ordered.cons {t : Taken α} (h : t.Ordered less) {x : α} (hx : ∀ y ∈ t.all, less y x = false) :
    ({ t with items := x :: t.items } : Taken α).Ordered less := by
  refine ⟨List.pairwise_cons.2 ⟨fun y hy => hx y ?_, h.ascending⟩,
    List.forall_mem_cons.2 ⟨fun y hy => hx y ?_, h.below⟩⟩
  · exact List.mem_append_left _ (List.mem_append_left _ hy)
  · rw [Taken.all, List.append_assoc]
    exact List.mem_append_right _ hy

/-- Members are taken from two ascending lists in order. -/
lemma ordered_take (count : Nat) {left right : List α} (hlinear : LinearOn less (left ++ right))
    (hleft : Ascending less left) (hright : Ascending less right) : (take less count left right).Ordered less := by
  fun_induction take less count left right with
  | case1 count x left y right hless rest ih =>
    have hsub : (x :: left) ++ right ⊆ (x :: left) ++ y :: right :=
      ((List.Sublist.refl (x :: left)).append (List.sublist_cons_self y right)).subset
    have hx : x ∈ (x :: left) ++ y :: right := List.mem_append_left _ (List.mem_cons_self ..)
    have hy : y ∈ (x :: left) ++ y :: right := List.mem_append_right _ (List.mem_cons_self ..)
    obtain ⟨hbehind, hascending⟩ := List.pairwise_cons.1 hright
    refine (ih (hlinear.mono hsub) hleft hascending).cons fun z hz => ?_
    -- the front of the right list is less than that of the left one, and so not greater than what is behind it
    have hxy := hlinear.asymm y hy x hx hless
    have hz := (perm_all_take less count (x :: left) right).mem_iff.1 hz
    rcases List.mem_append.1 hz with hz' | hz'
    · rcases List.mem_cons.1 hz' with rfl | hz'
      · exact hxy
      · exact hlinear.trans y hy x hx z (hsub hz) hxy ((List.pairwise_cons.1 hleft).1 z hz')
    · exact hbehind z hz'
  | case2 count x left y right hless rest ih =>
    have hsub : left ++ y :: right ⊆ (x :: left) ++ y :: right := List.subset_cons_self x _
    have hx : x ∈ (x :: left) ++ y :: right := List.mem_append_left _ (List.mem_cons_self ..)
    have hy : y ∈ (x :: left) ++ y :: right := List.mem_append_right _ (List.mem_cons_self ..)
    obtain ⟨hbehind, hascending⟩ := List.pairwise_cons.1 hleft
    refine (ih (hlinear.mono hsub) hascending hright).cons fun z hz => ?_
    have hyx : less y x = false := Bool.eq_false_iff.2 hless
    have hz := (perm_all_take less count left (y :: right)).mem_iff.1 hz
    rcases List.mem_append.1 hz with hz' | hz'
    · exact hbehind z hz'
    · rcases List.mem_cons.1 hz' with rfl | hz'
      · exact hyx
      · exact hlinear.trans x hx y hy z (hsub hz) hyx ((List.pairwise_cons.1 hright).1 z hz')
  | case3 count left right _ => exact ⟨List.Pairwise.nil, fun x hx => absurd hx List.not_mem_nil⟩

/-- As many members are taken as were asked for, if both lists have as many. -/
lemma length_items_take (less : α → α → Bool) {count : Nat} {left right : List α} (hleft : count ≤ left.length)
    (hright : count ≤ right.length) : (take less count left right).items.length = count := by
  fun_induction take less count left right with
  | case1 count x left y right _ rest ih =>
    exact congrArg Nat.succ (ih (Nat.le_of_succ_le hleft) (Nat.le_of_succ_le_succ hright))
  | case2 count x left y right _ rest ih =>
    exact congrArg Nat.succ (ih (Nat.le_of_succ_le_succ hleft) (Nat.le_of_succ_le hright))
  | case3 count left right hstop =>
    rcases count with _ | count
    · rfl
    · obtain ⟨x, left, rfl⟩ := List.exists_cons_of_length_pos (Nat.zero_lt_of_lt hleft)
      obtain ⟨y, right, rfl⟩ := List.exists_cons_of_length_pos (Nat.zero_lt_of_lt hright)
      exact absurd rfl (hstop count x left y right rfl rfl)

/-- Taking as many members as there are uses up one of the lists. -/
lemma take_exhausts (less : α → α → Bool) {count : Nat} {left right : List α}
    (hcount : left.length + right.length ≤ count) :
    (take less count left right).left = [] ∨ (take less count left right).right = [] := by
  fun_induction take less count left right with
  | case1 count x left y right _ rest ih =>
    refine ih ?_
    simp only [List.length_cons] at hcount ⊢
    omega
  | case2 count x left y right _ rest ih =>
    refine ih ?_
    simp only [List.length_cons] at hcount ⊢
    omega
  | case3 count left right hstop =>
    rcases left with _ | ⟨x, left⟩
    · exact .inl rfl
    · rcases right with _ | ⟨y, right⟩
      · exact .inr rfl
      · rcases count with _ | count
        · simp at hcount
        · exact absurd rfl (hstop count x left y right rfl rfl)

lemma ascending_all_take {left right : List α} (hlinear : LinearOn less (left ++ right)) (hleft : Ascending less left)
    (hright : Ascending less right) {count : Nat} (hcount : left.length + right.length ≤ count) :
    Ascending less (take less count left right).all := by
  have hordered := ordered_take count hlinear hleft hright
  obtain ⟨i, j, -, -, hdropLeft, hdropRight, -⟩ := take_spec less count left right
  rw [Taken.all, List.append_assoc]
  refine List.pairwise_append.2 ⟨hordered.ascending, List.pairwise_append.2 ⟨?_, ?_, fun x hx y hy => ?_⟩,
    hordered.below⟩
  · rw [hdropLeft]
    exact hleft.sublist (List.drop_sublist i left)
  · rw [hdropRight]
    exact hright.sublist (List.drop_sublist j right)
  · rcases take_exhausts less hcount with hnil | hnil
    · rw [hnil] at hx
      exact absurd hx List.not_mem_nil
    · rw [hnil] at hy
      exact absurd hy List.not_mem_nil

/-- Two ascending lists are merged into one. -/
lemma ascending_merge {left right : List α} (hlinear : LinearOn less (left ++ right)) (hleft : Ascending less left)
    (hright : Ascending less right) : Ascending less (merge less left right) := by
  rw [merge]
  split
  · exact ascending_all_take hlinear hleft hright (Nat.le_refl _)
  · -- seen from the other end, the lists are exchanged and the order is turned round
    refine ascending_reverse.2 (ascending_all_take (hlinear.mono (reverse_append_subset left right)).swap
      (List.pairwise_reverse.2 hright) (List.pairwise_reverse.2 hleft) ?_)
    have hlength : right.reverse.length + left.reverse.length = left.length + right.length := by
      rw [List.length_reverse, List.length_reverse, Nat.add_comm]
    exact Nat.le_of_eq hlength

/-! ## Blocks -/

lemma mem_drop_of_mem_reverse_take {l : List α} {i j : Nat} (h : i + j ≤ l.length) {x : α}
    (hx : x ∈ l.reverse.take j) : x ∈ l.drop i := by
  rw [List.take_reverse, List.mem_reverse] at hx
  exact List.drop_subset_drop_left l (by omega) hx

lemma mem_reverse_drop_of_mem_middle {l : List α} {i j : Nat} (h : i + j ≤ l.length) {x : α}
    (hx : x ∈ (l.drop i).take (l.length - (i + j))) : x ∈ l.reverse.drop j := by
  rw [List.drop_reverse, List.mem_reverse]
  rw [List.take_drop] at hx
  have hend : i + (l.length - (i + j)) = l.length - j := by omega
  rw [hend] at hx
  exact List.mem_of_mem_drop hx

lemma ascending_of_length_le_one {l : List α} (h : l.length ≤ 1) : Ascending less l := by
  rcases l with _ | ⟨x, _ | ⟨y, rest⟩⟩
  · exact List.Pairwise.nil
  · exact List.pairwise_singleton _ _
  · exact absurd h (Nat.not_le.2 (Nat.succ_lt_succ (Nat.succ_pos _)))

/-- If both lists have as many members as are taken, then as many are taken from them together. -/
lemma take_counts {count i j : Nat} {left right : List α} (hleft : count ≤ left.length) (hright : count ≤ right.length)
    (hi : i ≤ left.length) (hj : j ≤ right.length)
    (h : (take less count left right).items.Perm (left.take i ++ right.take j)) : i + j = count := by
  have hlength := h.length_eq
  rw [length_items_take less hleft hright, List.length_append, List.length_take, List.length_take,
    Nat.min_eq_left hi, Nat.min_eq_left hj] at hlength
  exact hlength.symm

/-- Two ascending lists, the right one as long as the left one or longer by one, are merged from both ends into one:
the ends meet, or leave one member between them. -/
lemma ascending_meet? {left right l : List α} (hlinear : LinearOn less (left ++ right)) (hleft : Ascending less left)
    (hright : Ascending less right) (hle : left.length ≤ right.length) (hge : right.length ≤ left.length + 1)
    (h : meet? less left right = some l) : Ascending less l := by
  obtain ⟨i, j, hi, hj, hdropLeft, hdropRight, hfront⟩ := take_spec less left.length left right
  obtain ⟨i', j', hi', hj', hdropLeft', hdropRight', hback⟩ :=
    take_spec (fun a b => less b a) left.length right.reverse left.reverse
  obtain ⟨hasc, hbelow⟩ := ordered_take left.length hlinear hleft hright
  obtain ⟨hdesc, habove⟩ := ordered_take left.length (hlinear.mono (reverse_append_subset left right)).swap
    (List.pairwise_reverse.2 hright) (List.pairwise_reverse.2 hleft)
  have hcount : i + j = left.length := take_counts (Nat.le_refl _) hle hi hj hfront
  have hcount' : i' + j' = left.length :=
    take_counts (by rwa [List.length_reverse]) (Nat.le_of_eq List.length_reverse.symm) hi' hj' hback
  rw [hdropLeft, hdropRight] at hbelow
  rw [hdropLeft', hdropRight'] at habove
  rw [meet?_eq hi hj hi' hj' hdropLeft hdropRight hdropLeft' hdropRight', List.append_assoc (take _ _ _ _).items] at h
  obtain ⟨hguard, h⟩ := Option.ite_none_right_eq_some.1 h
  obtain rfl := Option.some.inj h
  -- the middle is too short to be out of order
  have hmiddle : Ascending less ((left.drop i).take (left.length - (i + j')) ++
      (right.drop j).take (right.length - (j + i'))) := by
    refine ascending_of_length_le_one ?_
    simp only [List.length_append, List.length_take, List.length_drop]
    omega
  refine List.pairwise_append.2 ⟨List.pairwise_append.2 ⟨hasc, hmiddle, fun x hx y hy => ?_⟩,
    List.pairwise_reverse.2 hdesc, fun x hx y hy => ?_⟩
  · refine hbelow x hx y (List.mem_append.2 ((List.mem_append.1 hy).imp ?_ ?_))
    · exact List.mem_of_mem_take
    · exact List.mem_of_mem_take
  · have hy := List.mem_reverse.1 hy
    rcases List.mem_append.1 hx with hx | hx
    · refine hbelow x hx y (List.mem_append.2 ?_)
      rcases List.mem_append.1 (hback.mem_iff.1 hy) with hy | hy
      · exact .inr (mem_drop_of_mem_reverse_take hguard.2 hy)
      · exact .inl (mem_drop_of_mem_reverse_take hguard.1 hy)
    · refine habove y hy x (List.mem_append.2 ?_)
      rcases List.mem_append.1 hx with hx | hx
      · exact .inr (mem_reverse_drop_of_mem_middle hguard.1 hx)
      · exact .inl (mem_reverse_drop_of_mem_middle hguard.2 hx)

lemma ascending_sortBlock? {l l' : List α} (hlinear : LinearOn less l) (h : sortBlock? less l = some l') :
    Ascending less l' := by
  refine ascending_meet? (hlinear.mono (perm_halves less _ _ l).subset)
    (ascending_sortHalf (hlinear.mono (List.take_subset _ _)) _)
    (ascending_sortHalf (hlinear.mono (List.drop_subset _ _)) _) ?_ ?_ h
  all_goals
    rw [length_sortHalf, length_sortHalf, List.length_take, List.length_drop]
    omega

/-! ## Runs -/

/-- The test by which a run that descends or does not is ascending. -/
def turned (less : α → α → Bool) (descending : Bool) (a b : α) : Bool := if descending then less b a else less a b

lemma LinearOn.turned {l : List α} (h : LinearOn less l) (descending : Bool) :
    LinearOn (turned less descending) l := by
  cases descending with
  | false => exact h
  | true => exact h.swap

/-- What continues a run goes on in its direction. -/
lemma ascending_continuation (hlinear : LinearOn less m) (descending : Bool) {last : α} {rest : List α}
    (hall : last :: rest ⊆ m) :
    Ascending (turned less descending) (last :: rest.take (continuation less descending last rest)) := by
  induction rest generalizing last with
  | nil => exact List.pairwise_singleton _ _
  | cons x rest ih =>
    rw [continuation]
    split
    · next hdirection =>
      have hlast := hall (List.mem_cons_self ..)
      have hx := hall (List.mem_cons_of_mem _ (List.mem_cons_self ..))
      have hstep : turned less descending x last = false := by
        cases descending with
        | false => exact hdirection
        | true => exact hlinear.asymm x hx last hlast hdirection
      have hbehind := ih fun z hz => hall (List.mem_cons_of_mem _ hz)
      rw [List.take_succ_cons]
      refine List.pairwise_cons.2 ⟨fun z hz => ?_, hbehind⟩
      rcases List.mem_cons.1 hz with rfl | hz
      · exact hstep
      · have hz' : z ∈ m := hall (List.mem_cons_of_mem _ (List.mem_cons_of_mem _ (List.mem_of_mem_take hz)))
        exact (hlinear.turned descending).trans last hlast x hx z hz' hstep ((List.pairwise_cons.1 hbehind).1 z hz)
    · exact List.pairwise_singleton _ _

/-- The run at the front of a list is ascending, once it is turned round if it descends. -/
lemma ascending_frontRun {l : List α} (hlinear : LinearOn less l) : Ascending less (frontRun less l) := by
  unfold frontRun
  split
  · next x y rest =>
    have hx : x ∈ x :: y :: rest := List.mem_cons_self ..
    have hy : y ∈ x :: y :: rest := List.mem_cons_of_mem _ (List.mem_cons_self ..)
    have hrun := ascending_continuation hlinear (less y x) (List.subset_cons_self x (y :: rest))
    have hstep : turned less (less y x) y x = false := by
      unfold turned
      split
      · next hless => exact hlinear.asymm y hy x hx hless
      · next hless => exact Bool.eq_false_iff.2 hless
    have hwhole : Ascending (turned less (less y x))
        ((x :: y :: rest).take (continuation less (less y x) y rest + 2)) := by
      rw [List.take_succ_cons, List.take_succ_cons]
      refine List.pairwise_cons.2 ⟨fun z hz => ?_, hrun⟩
      rcases List.mem_cons.1 hz with rfl | hz
      · exact hstep
      · have hz' : z ∈ x :: y :: rest := List.mem_cons_of_mem _ (List.mem_cons_of_mem _ (List.mem_of_mem_take hz))
        exact (hlinear.turned _).trans x hx y hy z hz' hstep ((List.pairwise_cons.1 hrun).1 z hz)
    simp only
    split
    · next hless =>
      rw [hless] at hwhole ⊢
      exact ascending_reverse.2 hwhole
    · next hless =>
      rw [Bool.eq_false_iff.2 hless] at hwhole ⊢
      exact hwhole
  · next hshort =>
    refine ascending_of_length_le_one ?_
    rcases l with _ | ⟨x, _ | ⟨y, rest⟩⟩
    · exact Nat.zero_le _
    · exact Nat.le_refl _
    · exact absurd rfl (hshort x y rest)

/-- The sort that a filler defers to gives ascending lists for members of `m`. -/
def Filler.Sorts (less : α → α → Bool) (m : List α) : Filler α → Prop
  | .blocks => True
  | .deferred sort? => ∀ l l', l ⊆ m → sort? l = some l' → Ascending less l'

lemma Filler.sorts_blocks (less : α → α → Bool) (m : List α) : (Filler.blocks : Filler α).Sorts less m := trivial

variable {filler : Filler α}

/-- A run is ascending if it is said to be sorted, and otherwise left to the filler. -/
structure Run.Sound (less : α → α → Bool) (filler : Filler α) (r : Run α) : Prop where
  ascending : r.sorted = true → Ascending less r.items
  deferred : r.sorted = false → ∃ sort?, filler = .deferred sort?

lemma sound_of_nextRun? (hlinear : LinearOn less m) {kept : Nat} {l : List α} (hl : l ⊆ m) {r : Run α}
    (h : nextRun? less filler kept l = some r) : r.Sound less filler := by
  unfold nextRun? at h
  simp only at h
  split at h
  · obtain rfl := Option.some.inj h
    exact ⟨fun _ => ascending_frontRun (hlinear.mono hl), fun hsorted => absurd hsorted.symm Bool.false_ne_true⟩
  · split at h
    · obtain ⟨block, hblock, rfl⟩ := Option.map_eq_some_iff.1 h
      have htake : l.take blockLength ⊆ m := fun x hx => hl (List.mem_of_mem_take hx)
      exact ⟨fun _ => ascending_sortBlock? (hlinear.mono htake) hblock,
        fun hsorted => absurd hsorted.symm Bool.false_ne_true⟩
    · next sort? =>
      obtain rfl := Option.some.inj h
      exact ⟨fun hsorted => absurd hsorted Bool.false_ne_true, fun _ => ⟨sort?, rfl⟩⟩

lemma sound_of_cut? (hlinear : LinearOn less m) {kept fuel : Nat} {l : List α} (hl : l ⊆ m) {runs : List (Run α)}
    (h : cut? less filler kept fuel l = some runs) : ∀ r ∈ runs, r.Sound less filler := by
  induction fuel generalizing l runs with
  | zero =>
    obtain rfl := Option.some.inj h
    exact fun r hr => absurd hr List.not_mem_nil
  | succ fuel ih =>
    rcases l with _ | ⟨x, l⟩
    · obtain rfl := Option.some.inj h
      exact fun r hr => absurd hr List.not_mem_nil
    · obtain ⟨first, hfirst, h⟩ := Option.bind_eq_some_iff.1 h
      obtain ⟨rest, hrest, h⟩ := Option.bind_eq_some_iff.1 h
      obtain rfl := Option.some.inj h
      exact List.forall_mem_cons.2 ⟨sound_of_nextRun? hlinear hl hfirst,
        ih (fun y hy => hl (List.mem_of_mem_drop hy)) hrest⟩

lemma Run.Sound.settle? (hsorts : filler.Sorts less m) {r : Run α} (hsound : r.Sound less filler) (hr : r.items ⊆ m)
    {l : List α} (h : r.settle? filler = some l) : Ascending less l := by
  unfold Run.settle? at h
  split at h
  · next sort? _ => exact hsorts r.items l hr h
  · next hnot =>
    obtain rfl := Option.some.inj h
    refine hsound.ascending (eq_true_of_ne_false fun hsorted => ?_)
    obtain ⟨sort?, hfiller⟩ := hsound.deferred hsorted
    exact hnot sort? hsorted hfiller

lemma Run.Sound.join? (hlinear : LinearOn less m) (hkeeps : filler.Keeps) (hsorts : filler.Sorts less m)
    {l r joined : Run α} (hsoundLeft : l.Sound less filler) (hsoundRight : r.Sound less filler) (hl : l.items ⊆ m)
    (hr : r.items ⊆ m) (h : l.join? less filler r = some joined) : joined.Sound less filler := by
  obtain ⟨left, right, hleft, hright, rfl⟩ | ⟨hsorted, -, rfl⟩ := Run.join?_cases h
  · have hboth : left ++ right ⊆ m := List.append_subset.2
      ⟨List.Subset.trans (Run.perm_settle? hkeeps hleft).subset hl,
        List.Subset.trans (Run.perm_settle? hkeeps hright).subset hr⟩
    exact ⟨fun _ => ascending_merge (hlinear.mono hboth) (hsoundLeft.settle? hsorts hl hleft)
        (hsoundRight.settle? hsorts hr hright), fun hsorted => absurd hsorted.symm Bool.false_ne_true⟩
  · exact ⟨fun hsorted => absurd hsorted Bool.false_ne_true, fun _ => hsoundLeft.deferred hsorted⟩

lemma sound_of_collapse? (hlinear : LinearOn less m) (hkeeps : filler.Keeps) (hsorts : filler.Sorts less m)
    {depth : Nat} {before before' : List (Pending α)} {r r' : Run α} (hall : r.items ++ waiting before ⊆ m)
    (hsound : r.Sound less filler) (hbefore : ∀ p ∈ before, p.run.Sound less filler)
    (h : collapse? less filler depth before r = some (before', r')) :
    r'.Sound less filler ∧ ∀ p ∈ before', p.run.Sound less filler := by
  induction before generalizing r with
  | nil =>
    obtain ⟨rfl, rfl⟩ := Prod.mk.inj (Option.some.inj h)
    exact ⟨hsound, hbefore⟩
  | cons p before ih =>
    rw [collapse?] at h
    split at h
    · obtain ⟨joined, hjoined, h⟩ := Option.bind_eq_some_iff.1 h
      obtain ⟨hp, hbefore⟩ := List.forall_mem_cons.1 hbefore
      have hparts := List.append_subset.1 hall
      have hlater := List.append_subset.1 hparts.2
      have hitems : joined.items ⊆ m := List.Subset.trans (Run.perm_join? hkeeps hjoined).subset
        (List.append_subset.2 ⟨hlater.1, hparts.1⟩)
      exact ih (List.append_subset.2 ⟨hitems, hlater.2⟩)
        (hp.join? hlinear hkeeps hsorts hsound hlater.1 hparts.1 hjoined) hbefore h
    · obtain ⟨rfl, rfl⟩ := Prod.mk.inj (Option.some.inj h)
      exact ⟨hsound, hbefore⟩

lemma ascending_mergeRuns? (hlinear : LinearOn less m) (hkeeps : filler.Keeps) (hsorts : filler.Sorts less m)
    {n start : Nat} {before : List (Pending α)} {r : Run α} {runs : List (Run α)} {l : List α}
    (hall : r.items ++ waiting before ++ runs.flatMap Run.items ⊆ m) (hsound : r.Sound less filler)
    (hbefore : ∀ p ∈ before, p.run.Sound less filler) (hruns : ∀ r ∈ runs, r.Sound less filler)
    (h : mergeRuns? less filler n start before r runs = some l) : Ascending less l := by
  induction runs generalizing start before r with
  | nil =>
    obtain ⟨⟨before', whole⟩, hcollapse, h⟩ := Option.bind_eq_some_iff.1 h
    obtain ⟨hfront, -⟩ := List.append_subset.1 hall
    have hwhole := List.Subset.trans (perm_collapse? hkeeps hcollapse).subset hfront
    have hcollapsed := sound_of_collapse? hlinear hkeeps hsorts hfront hsound hbefore hcollapse
    exact hcollapsed.1.settle? hsorts (List.append_subset.1 hwhole).1 h
  | cons next rest ih =>
    obtain ⟨⟨before', joined⟩, hcollapse, h⟩ := Option.bind_eq_some_iff.1 h
    obtain ⟨hfront, hlater⟩ := List.append_subset.1 hall
    have hjoined := List.Subset.trans (perm_collapse? hkeeps hcollapse).subset hfront
    rw [List.flatMap_cons] at hlater
    obtain ⟨hnext, hrest⟩ := List.append_subset.1 hlater
    obtain ⟨hsoundNext, hsoundRest⟩ := List.forall_mem_cons.1 hruns
    obtain ⟨hsoundJoined, hsoundBefore⟩ := sound_of_collapse? hlinear hkeeps hsorts hfront hsound hbefore hcollapse
    refine ih ?_ hsoundNext (List.forall_mem_cons.2 ⟨hsoundJoined, hsoundBefore⟩) hsoundRest h
    exact List.append_subset.2 ⟨List.append_subset.2 ⟨hnext, hjoined⟩, hrest⟩

lemma ascending_sortByRuns? (hlinear : LinearOn less m) (hkeeps : filler.Keeps) (hsorts : filler.Sorts less m)
    {l l' : List α} (hl : l ⊆ m) (h : sortByRuns? less filler l = some l') : Ascending less l' := by
  obtain ⟨runs, hruns, h⟩ := Option.bind_eq_some_iff.1 h
  have hsound := sound_of_cut? hlinear hl hruns
  have hitems : runs.flatMap Run.items ⊆ m := List.Subset.trans (perm_runs hruns).subset hl
  rcases runs with _ | ⟨r, rest⟩
  · obtain rfl := Option.some.inj h
    exact List.Pairwise.nil
  · obtain ⟨hfirst, hrest⟩ := List.forall_mem_cons.1 hsound
    refine ascending_mergeRuns? hlinear hkeeps hsorts ?_ hfirst (fun p hp => absurd hp List.not_mem_nil) hrest h
    rwa [waiting, List.flatMap_nil, List.append_nil]

/-! ## Pivots -/

/-- The median is one of the three members. -/
lemma median_eq (less : α → α → Bool) (a b c : α) :
    median less a b c = a ∨ median less a b c = b ∨ median less a b c = c := by
  unfold median
  simp only
  split
  · split
    · exact .inr (.inl rfl)
    · exact .inr (.inr rfl)
  · exact .inl rfl

/-- The pivot is a member of the list. -/
lemma mem_of_sample? {l : Array α} {i n : Nat} {x : α} (h : sample? less l i n = some x) : x ∈ l := by
  fun_induction sample? less l i n generalizing x with
  | case1 i n _ => exact Array.mem_of_getElem? h
  | case2 i n _ iha ihb ihc =>
    obtain ⟨a, ha, h⟩ := Option.bind_eq_some_iff.1 h
    obtain ⟨b, hb, h⟩ := Option.bind_eq_some_iff.1 h
    obtain ⟨c, hc, h⟩ := Option.bind_eq_some_iff.1 h
    rw [← Option.some.inj h]
    rcases median_eq less a b c with heq | heq | heq
    · rw [heq]
      exact iha ha
    · rw [heq]
      exact ihb hb
    · rw [heq]
      exact ihc hc

/-- Members up to a pivot that nothing goes below, in front of the greater ones. -/
lemma ascending_equal_append {pivot : α} {l greater : List α} (hlinear : LinearOn less m) (hl : l ⊆ m)
    (hpivot : pivot ∈ m) (hfloor : ∀ x ∈ l, less x pivot = false) (hgreater : Ascending less greater)
    (hperm : greater.Perm (l.filter fun x => less pivot x)) :
    Ascending less ((l.filter fun x => !less pivot x) ++ greater) := by
  -- nothing up to the pivot is greater than anything that is not less than it
  have hbelow : ∀ x ∈ l.filter (fun x => !less pivot x), ∀ y ∈ l, less y x = false := by
    intro x hx y hy
    obtain ⟨hxl, hxpivot⟩ := List.mem_filter.1 hx
    exact hlinear.trans x (hl hxl) pivot hpivot y (hl hy) (by simpa using hxpivot) (hfloor y hy)
  refine List.pairwise_append.2 ⟨?_, hgreater, fun x hx y hy => hbelow x hx y ?_⟩
  · exact List.pairwise_of_forall_mem_list fun x hx y hy => hbelow x hx y (List.mem_of_mem_filter hy)
  · exact List.mem_of_mem_filter (hperm.mem_iff.1 hy)

/-- Members below a pivot in front of the others. -/
lemma ascending_low_append {pivot : α} {l low high : List α} (hlinear : LinearOn less m) (hl : l ⊆ m)
    (hpivot : pivot ∈ m) (hlow : Ascending less low) (hhigh : Ascending less high)
    (hpermLow : low.Perm (l.filter fun x => less x pivot))
    (hpermHigh : high.Perm (l.filter fun x => !less x pivot)) : Ascending less (low ++ high) := by
  refine List.pairwise_append.2 ⟨hlow, hhigh, fun x hx y hy => ?_⟩
  obtain ⟨hxl, hxpivot⟩ := List.mem_filter.1 (hpermLow.mem_iff.1 hx)
  obtain ⟨hyl, hypivot⟩ := List.mem_filter.1 (hpermHigh.mem_iff.1 hy)
  exact hlinear.trans x (hl hxl) pivot hpivot y (hl hyl) (hlinear.asymm x (hl hxl) pivot hpivot hxpivot)
    (by simpa using hypivot)

/-- Sorting by division gives an ascending list, provided that no member goes below the pivot of an earlier
division. -/
lemma ascending_sortByPivot? (hlinear : LinearOn less m) {limit : Nat} {floor : Option α} {l l' : List α}
    (hl : l ⊆ m) (hfloor : ∀ f ∈ floor, f ∈ m ∧ ∀ x ∈ l, less x f = false)
    (h : sortByPivot? less limit floor l = some l') : Ascending less l' := by
  induction limit generalizing floor l l' with
  | zero =>
    rw [sortByPivot?] at h
    split at h
    · exact ascending_sortBlock? (hlinear.mono hl) h
    · exact ascending_sortByRuns? hlinear Filler.keeps_blocks (Filler.sorts_blocks less m) hl h
  | succ limit ih =>
    rw [sortByPivot?] at h
    split at h
    · exact ascending_sortBlock? (hlinear.mono hl) h
    · obtain ⟨pivot, hsample, h⟩ := Option.bind_eq_some_iff.1 h
      have hpivot : pivot ∈ m := hl (List.mem_toArray.1 (mem_of_sample? hsample))
      have hpart : ∀ p : α → Bool, l.filter p ⊆ m := fun p x hx => hl (List.mem_of_mem_filter hx)
      simp only [List.partition_eq_filter_filter] at h
      split at h
      · next hdone =>
        -- nothing is less than the pivot: there is no such member, or none goes below an earlier pivot
        have hnone : ∀ x ∈ l, less x pivot = false := by
          intro x hx
          rcases Bool.or_eq_true_iff.1 hdone with hempty | hold
          · by_contra hless
            have hmem : x ∈ l.filter fun x => less x pivot := List.mem_filter.2 ⟨hx, eq_true_of_ne_false hless⟩
            rw [List.isEmpty_iff.1 hempty] at hmem
            exact absurd hmem List.not_mem_nil
          · obtain ⟨f, rfl, hless⟩ := (Option.any_eq_true _ _).1 hold
            obtain ⟨hf, hbelow⟩ := hfloor f rfl
            exact hlinear.trans pivot hpivot f hf x (hl hx) (by simpa using hless) (hbelow x hx)
        obtain ⟨greater, hgreater, h⟩ := Option.bind_eq_some_iff.1 h
        obtain rfl := Option.some.inj h
        have hascending := ih (hpart _) (fun f hf => absurd hf (Option.not_mem_none f)) hgreater
        refine ascending_equal_append hlinear hl hpivot hnone hascending ?_
        simpa [Function.comp_def] using perm_sortByPivot? hgreater
      · obtain ⟨high, hhigh, h⟩ := Option.bind_eq_some_iff.1 h
        obtain ⟨low, hlow, h⟩ := Option.bind_eq_some_iff.1 h
        obtain rfl := Option.some.inj h
        refine ascending_low_append hlinear hl hpivot (ih (hpart _) ?_ hlow) (ih (hpart _) ?_ hhigh)
          (perm_sortByPivot? hlow) (perm_sortByPivot? hhigh)
        · exact fun f hf => ⟨(hfloor f hf).1, fun x hx => (hfloor f hf).2 x (List.mem_of_mem_filter hx)⟩
        · rintro f ⟨⟩
          exact ⟨hpivot, fun x hx => by simpa using (List.mem_filter.1 hx).2⟩

/-- In a linear order, sorting gives an ascending list. -/
theorem ascending_sort? {l l' : List α} (hlinear : LinearOn less l) (h : sort? less l = some l') :
    Ascending less l' := by
  unfold sort? at h
  split at h
  · obtain rfl := Option.some.inj h
    exact ascending_insertionSort hlinear
  · split at h
    · exact ascending_sortByRuns? hlinear Filler.keeps_blocks (Filler.sorts_blocks less l) (List.Subset.refl l) h
    · refine ascending_sortByRuns? hlinear (show Filler.Keeps (.deferred _) from fun _ _ => perm_sortByPivot?)
        (show Filler.Sorts less l (.deferred _) from fun part part' hpart hsort => ?_) (List.Subset.refl l) h
      exact ascending_sortByPivot? hlinear hpart (fun f hf => absurd hf (Option.not_mem_none f)) hsort

end Sorting
end CommandEngine
