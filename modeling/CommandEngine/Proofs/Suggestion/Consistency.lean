import CommandEngine.Proofs.AscendingSorting
import CommandEngine.Proofs.Suggestion.Outcome

/-!
# Where the order of suggestions is consistent

Exchanging two suggestions turns their order round, but what is not after something not after a third may still be
after the third: two integers are ordered by value, and each of them against a text by its digits.  So the integer
`10` is before the text `5`, which is before the integer `9`, and yet `10` is after `9`
(`Suggestions.not_order_transitive`).

Such a circle always consists of two integers and a text (`Suggestion.circles`), and without one the order is
transitive (`Suggestion.contradictory_iff`).  Then suggestions are brought into an order in which none stands behind
one that it should precede; where all three steps of a circle are strict, there is no such order at all
(`Suggestions.order_consistent_iff`).
-/

namespace CommandEngine
namespace Suggestion

variable {a b c : Suggestion} {l : List Suggestion}

/-! ## Two suggestions -/

/-- Where one of two suggestions is a text, they are ordered by their keys. -/
lemma order_eq_gt_of_text (h : a.kind = .text ∨ b.kind = .text) : a.order b = .gt ↔ b.key < a.key := by
  have horder : b.order a = b.orderIgnoringCase a := by
    unfold order
    rcases h with h | h
    · rw [h]
      cases b.kind <;> rfl
    · rw [h]
  rw [order_swap b a, Ordering.swap_eq_gt, horder, orderIgnoringCase_eq_lt]

lemma order_ne_gt_of_text (h : a.kind = .text ∨ b.kind = .text) : a.order b ≠ .gt ↔ a.key ≤ b.key := by
  rw [Ne, order_eq_gt_of_text h, not_lt]

/-- Two integers are ordered by their values. -/
lemma order_eq_gt_of_integers {m n : Int32} (ha : a.kind = .integer m) (hb : b.kind = .integer n) :
    a.order b = .gt ↔ n.toInt < m.toInt := by
  unfold order
  rw [ha, hb, compare_gt_iff_gt]

lemma order_ne_gt_of_integers {m n : Int32} (ha : a.kind = .integer m) (hb : b.kind = .integer n) :
    a.order b ≠ .gt ↔ m.toInt ≤ n.toInt := by
  rw [Ne, order_eq_gt_of_integers ha hb, not_lt]

lemma order_self_ne_gt (a : Suggestion) : a.order a ≠ .gt := by
  intro hgt
  have hswap := order_swap a a
  rw [hgt] at hswap
  exact Ordering.noConfusion hswap

/-! ## Circles -/

/-- Two integers and a text stand in a circle: the first integer is not greater than the second, whose digits are not
after the text, which is not after the digits of the first; and they do not all tie. -/
def circles (a b c : Suggestion) : Bool :=
  match a.kind, b.kind, c.kind with
  | .integer m, .integer n, .text =>
    decide (m.toInt ≤ n.toInt ∧ b.key ≤ c.key ∧ c.key ≤ a.key ∧ (m.toInt < n.toInt ∨ b.key < a.key))
  | _, _, _ => false

lemma circles_eq_true {m n : Int32} (ha : a.kind = .integer m) (hb : b.kind = .integer n) (hc : c.kind = .text) :
    circles a b c = true ↔
      m.toInt ≤ n.toInt ∧ b.key ≤ c.key ∧ c.key ≤ a.key ∧ (m.toInt < n.toInt ∨ b.key < a.key) := by
  unfold circles
  rw [ha, hb, hc]
  exact decide_eq_true_iff

lemma kinds_of_circles (h : circles a b c = true) :
    ∃ m n, a.kind = .integer m ∧ b.kind = .integer n ∧ c.kind = .text := by
  unfold circles at h
  split at h
  · next m n ha hb hc => exact ⟨m, n, ha, hb, hc⟩
  · exact absurd h Bool.false_ne_true

/-- Three members stand in a circle. -/
def Entangled (l : List Suggestion) : Prop := ∃ a ∈ l, ∃ b ∈ l, ∃ c ∈ l, circles a b c = true

instance (l : List Suggestion) : Decidable (Entangled l) :=
  inferInstanceAs (Decidable (∃ a ∈ l, ∃ b ∈ l, ∃ c ∈ l, circles a b c = true))

/-- A circle is a contradiction, wherever in it the strict step is. -/
lemma contradictory_of_circles (ha : a ∈ l) (hb : b ∈ l) (hc : c ∈ l) (h : circles a b c = true) :
    Contradictory l := by
  obtain ⟨m, n, hm, hn, htext⟩ := kinds_of_circles h
  obtain ⟨hvalues, hlower, hupper, hstrict⟩ := (circles_eq_true hm hn htext).1 h
  have hab : a.order b ≠ .gt := (order_ne_gt_of_integers hm hn).2 hvalues
  have hbc : b.order c ≠ .gt := (order_ne_gt_of_text (.inr htext)).2 hlower
  have hca : c.order a ≠ .gt := (order_ne_gt_of_text (.inl htext)).2 hupper
  by_cases hvalue : m.toInt < n.toInt
  · exact ⟨b, hb, c, hc, a, ha, hbc, hca, (order_eq_gt_of_integers hn hm).2 hvalue⟩
  · have hkeys := hstrict.resolve_left hvalue
    by_cases hkey : c.key < a.key
    · exact ⟨a, ha, b, hb, c, hc, hab, hbc, (order_eq_gt_of_text (.inr htext)).2 hkey⟩
    · refine ⟨c, hc, a, ha, b, hb, hca, hab, (order_eq_gt_of_text (.inl htext)).2 ?_⟩
      exact hkeys.trans_le (not_lt.1 hkey)

/-- The order of three suggestions contradicts itself only where two of them are integers and the third is a text;
which of the three is the text says where the circle begins. -/
lemma circles_of_contradiction (hab : a.order b ≠ .gt) (hbc : b.order c ≠ .gt) (hac : a.order c = .gt) :
    circles a b c = true ∨ circles c a b = true ∨ circles b c a = true := by
  rcases ha : a.kind with _ | m <;> rcases hb : b.kind with _ | n <;> rcases hc : c.kind with _ | p
  case text.text.text | text.text.integer | text.integer.text | integer.text.text =>
    -- every two of them are compared by their keys
    rw [order_ne_gt_of_text (by simp [ha, hb])] at hab
    rw [order_ne_gt_of_text (by simp [hb, hc])] at hbc
    rw [order_eq_gt_of_text (by simp [ha, hc])] at hac
    exact absurd hac (not_lt.2 (hab.trans hbc))
  case text.integer.integer =>
    rw [order_ne_gt_of_text (.inl ha)] at hab
    rw [order_ne_gt_of_integers hb hc] at hbc
    rw [order_eq_gt_of_text (.inl ha)] at hac
    exact .inr (.inr ((circles_eq_true hb hc ha).2 ⟨hbc, hac.le, hab, .inr (hac.trans_le hab)⟩))
  case integer.text.integer =>
    rw [order_ne_gt_of_text (.inr hb)] at hab
    rw [order_ne_gt_of_text (.inl hb)] at hbc
    rw [order_eq_gt_of_integers ha hc] at hac
    exact .inr (.inl ((circles_eq_true hc ha hb).2 ⟨hac.le, hab, hbc, .inl hac⟩))
  case integer.integer.text =>
    rw [order_ne_gt_of_integers ha hb] at hab
    rw [order_ne_gt_of_text (.inr hc)] at hbc
    rw [order_eq_gt_of_text (.inr hc)] at hac
    exact .inl ((circles_eq_true ha hb hc).2 ⟨hab, hbc, hac.le, .inr (hbc.trans_lt hac)⟩)
  case integer.integer.integer =>
    rw [order_ne_gt_of_integers ha hb] at hab
    rw [order_ne_gt_of_integers hb hc] at hbc
    rw [order_eq_gt_of_integers ha hc] at hac
    exact absurd hac (not_lt.2 (hab.trans hbc))

/-- The order of the members contradicts itself exactly where two integers and a text stand in a circle. -/
theorem contradictory_iff : Contradictory l ↔ Entangled l := by
  constructor
  · rintro ⟨a, ha, b, hb, c, hc, hab, hbc, hac⟩
    rcases circles_of_contradiction hab hbc hac with h | h | h
    · exact ⟨a, ha, b, hb, c, hc, h⟩
    · exact ⟨c, hc, a, ha, b, hb, h⟩
    · exact ⟨b, hb, c, hc, a, ha, h⟩
  · rintro ⟨a, ha, b, hb, c, hc, h⟩
    exact contradictory_of_circles ha hb hc h

/-! ## Lists in order -/

/-- No member stands behind one that it should precede. -/
def InOrder (l : List Suggestion) : Prop := l.Pairwise fun a b => a.order b ≠ .gt

instance (l : List Suggestion) : Decidable (InOrder l) :=
  inferInstanceAs (Decidable (l.Pairwise fun a b => a.order b ≠ .gt))

/-- Without a contradiction, sorting succeeds and puts the members in order. -/
lemma exists_inOrder_sort? (h : ¬ Contradictory l) : ∃ sorted, sort? l = some sorted ∧ InOrder sorted := by
  have hlinear := linearOn_of_not_contradictory h
  have hinOrder : ∀ {sorted}, Sorting.Ascending less sorted → InOrder sorted := fun hascending =>
    hascending.imp fun hless hgt => absurd (less_eq_true.2 hgt) (Bool.eq_false_iff.1 hless)
  unfold sort?
  split
  · exact ⟨_, rfl, hinOrder (Sorting.ascending_insertionSort hlinear)⟩
  · obtain ⟨sorted, hsorted⟩ := Option.isSome_iff_exists.1 (Sorting.isSome_sort? hlinear)
    exact ⟨sorted, hsorted, hinOrder (Sorting.ascending_sort? hlinear hsorted)⟩

/-- A suggestion at the front of a list in order is not after any of its members. -/
lemma InOrder.order_head {x : Suggestion} (h : InOrder (x :: l)) (ha : a ∈ x :: l) : x.order a ≠ .gt := by
  rcases List.mem_cons.1 ha with rfl | ha
  · exact order_self_ne_gt a
  · exact (List.pairwise_cons.1 h).1 a ha

/-- Three members of which each is strictly before the next in a circle cannot be put in order: none of them can
stand in front of the others. -/
lemma not_inOrder_of_strict (ha : a ∈ l) (hb : b ∈ l) (hc : c ∈ l) (hba : b.order a = .gt) (hcb : c.order b = .gt)
    (hac : a.order c = .gt) : ¬ InOrder l := by
  intro h
  induction l with
  | nil => exact absurd ha List.not_mem_nil
  | cons x rest ih =>
    have hrest : ∀ {s t}, s ∈ x :: rest → t ∈ x :: rest → s.order t = .gt → s ∈ rest := by
      intro s t hs ht hgt
      rcases List.mem_cons.1 hs with rfl | hs
      · exact absurd hgt (h.order_head ht)
      · exact hs
    exact ih (hrest ha hc hac) (hrest hb ha hba) (hrest hc hb hcb) (List.pairwise_cons.1 h).2

end Suggestion

/-! ## Normal forms -/

namespace Suggestions

/-- Exchanging two suggestions turns their order round; the order of the members of a list is transitive exactly
where no two integers and a text of it stand in a circle; a list that has no circle when it is widened is brought into
an order in which none stands behind one that it should precede; and where a circle is strict in all its steps,
no normal form is in order. -/
theorem order_consistent_iff (command : String) (l : List Suggestion) :
    (∀ a b : Suggestion, b.order a = (a.order b).swap) ∧
    ((∀ a ∈ l, ∀ b ∈ l, ∀ c ∈ l, a.order b ≠ .gt → b.order c ≠ .gt → a.order c ≠ .gt) ↔ ¬ Suggestion.Entangled l) ∧
    (¬ Suggestion.Entangled (widened command l) →
      ∃ r, create? command l = some r ∧ Suggestion.InOrder r.list) ∧
    ((∃ a ∈ widened command l, ∃ b ∈ widened command l, ∃ c ∈ widened command l,
        b.order a = .gt ∧ c.order b = .gt ∧ a.order c = .gt) →
      ∀ r, create? command l = some r → ¬ Suggestion.InOrder r.list) := by
  refine ⟨Suggestion.order_swap, ?_, fun hfree => ?_, ?_⟩
  · rw [← Suggestion.contradictory_iff]
    constructor
    · rintro htrans ⟨a, ha, b, hb, c, hc, hab, hbc, hac⟩
      exact htrans a ha b hb c hc hab hbc hac
    · intro hfree a ha b hb c hc hab hbc hac
      exact hfree ⟨a, ha, b, hb, c, hc, hab, hbc, hac⟩
  · have hdistinct : ¬ Suggestion.Contradictory (Suggestion.distinct (widened command l)) := fun h =>
      hfree (Suggestion.contradictory_iff.1 (h.mono fun _ => Suggestion.mem_distinct.1))
    obtain ⟨sorted, hsorted, hinOrder⟩ := Suggestion.exists_inOrder_sort? hdistinct
    refine ⟨⟨Span.unionAll (l.map Suggestion.span), sorted⟩, ?_, hinOrder⟩
    rw [create?_eq, hsorted, Option.map_some]
  · rintro ⟨a, ha, b, hb, c, hc, hba, hcb, hac⟩ r hcreate
    have hmem : ∀ {s}, s ∈ widened command l → s ∈ r.list := (mem_list_iff hcreate _).2
    exact Suggestion.not_inOrder_of_strict (hmem ha) (hmem hb) (hmem hc) hba hcb hac

/-- The integers `10` and `9` with the text `5` between their digits. -/
def circle : List Suggestion :=
  [.ofInteger (.point 0) 10 none, .ofText (.point 0) "5" none, .ofInteger (.point 0) 9 none]

/-- The order of suggestions is not transitive, and a list in a circle is left out of order. -/
theorem not_order_transitive :
    (¬ ∀ a b c : Suggestion, a.order b ≠ .gt → b.order c ≠ .gt → a.order c ≠ .gt) ∧
      ∃ r, create? "" circle = some r ∧ ¬ Suggestion.InOrder r.list := by
  constructor
  · intro h
    exact h (.ofInteger (.point 0) 10 none) (.ofText (.point 0) "5" none) (.ofInteger (.point 0) 9 none)
      (by decide +kernel) (by decide +kernel) (by decide +kernel)
  · obtain ⟨r, hcreate⟩ : ∃ r, create? "" circle = some r := Option.isSome_iff_exists.1 (by decide +kernel)
    have hout : ((create? "" circle).map fun r => decide (Suggestion.InOrder r.list)) = some false := by decide +kernel
    rw [hcreate, Option.map_some] at hout
    exact ⟨r, hcreate, of_decide_eq_false (Option.some.inj hout)⟩

/-- Amounts of which the digits are in front of all words. -/
def amounts : List Suggestion :=
  [.ofText (.point 0) "half" none, .ofInteger (.point 0) 64 none, .ofText (.point 0) "All" none,
    .ofInteger (.point 0) 7 none]

/-- Amounts and words are put in order, and a circle is not. -/
theorem order_consistent_iff_amounts :
    (¬ Suggestion.Entangled (widened "" amounts) ∧
      ∃ r, create? "" amounts = some r ∧ r.texts = ["7", "64", "All", "half"] ∧ Suggestion.InOrder r.list) ∧
    Suggestion.Entangled (widened "" circle) ∧ ∃ r, create? "" circle = some r ∧ ¬ Suggestion.InOrder r.list := by
  have hfree : ¬ Suggestion.Entangled (widened "" amounts) := by decide +kernel
  obtain ⟨r, hcreate, hinOrder⟩ := (order_consistent_iff "" amounts).2.2.1 hfree
  have htexts : (create? "" amounts).map texts = some ["7", "64", "All", "half"] := by decide +kernel
  rw [hcreate, Option.map_some] at htexts
  refine ⟨⟨hfree, r, hcreate, Option.some.inj htexts, hinOrder⟩, by decide +kernel, ?_⟩
  obtain ⟨r, hcreate⟩ : ∃ r, create? "" circle = some r := Option.isSome_iff_exists.1 (by decide +kernel)
  exact ⟨r, hcreate, (order_consistent_iff "" circle).2.2.2 (by decide +kernel) r hcreate⟩

end Suggestions
end CommandEngine
