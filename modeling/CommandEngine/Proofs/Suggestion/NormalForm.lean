import CommandEngine.Proofs.Completion.Contribution
import CommandEngine.Proofs.LinearSorting
import Mathlib.Data.List.Nodup
import Mathlib.Data.String.Basic

/-!
# The normal form of suggestions

`Suggestions.create?` widens the suggestions of a list to one span, drops repetitions and sorts what is left.  Texts
are sorted by their lowercase form (`Suggestion.key`), which is a linear order up to ties, so a list of texts always
has a normal form, and `Suggestions.NormalFormOf` says what it looks like: every widened suggestion once, keys
ascending, and among equal keys the one that occurs first in front.

A list in normal form is its own normal form (`Suggestions.create?_list`).  That is why `Suggestions.merge?`
may keep a single result as it is, and why results with nothing in them make no difference to a merged result.
-/

namespace CommandEngine

/-! ## The order of texts -/

namespace Text

lemma order_eq_lt {as bs : List Char} : order as bs = .lt ↔ as < bs := by
  fun_induction order as bs with
  | case1 => simp
  | case2 => simp
  | case3 => simp
  | case4 a as b bs hlt => simp [List.cons_lt_cons_iff, Char.lt_def, hlt]
  | case5 a as b bs hnot hgt =>
    have hne : a ≠ b := by rintro rfl; exact hnot hgt
    simp [List.cons_lt_cons_iff, Char.lt_def, hnot, hne]
  | case6 a as b bs hnot hnot' ih =>
    have heq : a = b := Char.ext (UInt32.le_antisymm (UInt32.not_lt.1 hnot') (UInt32.not_lt.1 hnot))
    simp [heq, ih]

lemma order_swap (as bs : List Char) : order bs as = (order as bs).swap := by
  fun_induction order as bs with
  | case1 => rfl
  | case2 => rfl
  | case3 => rfl
  | case4 a as b bs hlt => simp [order, hlt, UInt32.lt_asymm hlt]
  | case5 a as b bs hnot hgt => simp [order, hgt]
  | case6 a as b bs hnot hnot' ih => simp [order, hnot, hnot', ih]

end Text

/-! ## The order of suggestions -/

namespace Suggestion

variable {a b : Suggestion} {l : List Suggestion}

/-- The lowercase text, by which texts are sorted. -/
def key (s : Suggestion) : String := Text.lowercase s.text

lemma orderIgnoringCase_eq_lt : a.orderIgnoringCase b = .lt ↔ a.key < b.key := by
  rw [orderIgnoringCase, Text.order_eq_lt, String.lt_iff_toList_lt, key, key, Text.lowercase, Text.lowercase,
    String.toList_ofList, String.toList_ofList]

/-- Exchanging two suggestions turns their order round, whatever their kinds. -/
lemma order_swap (a b : Suggestion) : b.order a = (a.order b).swap := by
  unfold order
  rcases a.kind with _ | m <;> rcases b.kind with _ | n
  · exact Text.order_swap ..
  · exact Text.order_swap ..
  · exact Text.order_swap ..
  · exact (Int.compare_swap m.toInt n.toInt).symm

lemma less_of_text (ha : a.kind = .text) : less a b = decide (a.key < b.key) := by
  have horder : a.order b = a.orderIgnoringCase b := by
    unfold order
    rw [ha]
  rw [less, horder]
  exact decide_eq_decide.2 orderIgnoringCase_eq_lt

lemma less_eq_false_of_text (ha : a.kind = .text) : less a b = false ↔ b.key ≤ a.key := by
  rw [less_of_text ha, decide_eq_false_iff_not, not_lt]

/-- Texts are linearly ordered by their keys. -/
lemma linearOn_of_texts (h : ∀ s ∈ l, s.kind = .text) : Sorting.LinearOn less l := by
  refine ⟨fun a ha b hb hab => ?_, fun a ha b hb c hc hba hcb => ?_⟩
  · rw [less_of_text (h a ha), decide_eq_true_eq] at hab
    exact (less_eq_false_of_text (h b hb)).2 hab.le
  · rw [less_eq_false_of_text (h b hb)] at hba
    rw [less_eq_false_of_text (h c hc)] at hcb ⊢
    exact hba.trans hcb

lemma sort?_of_texts (h : ∀ s ∈ l, s.kind = .text) : sort? l = some (Sorting.insertionSort less l) := by
  have htexts : l.all (fun s => !s.isInteger) = true := by
    refine List.all_eq_true.2 fun s hs => ?_
    rw [isInteger, h s hs]
    rfl
  rw [sort?, areAlike, htexts, Bool.or_true, if_pos rfl]

/-! ## Repetitions -/

lemma nodup_distinct (l : List Suggestion) : (distinct l).Nodup := by
  induction l with
  | nil => exact List.nodup_nil
  | cons s rest ih =>
    refine List.nodup_cons.2 ⟨fun hs => ?_, ih.filter _⟩
    exact of_decide_eq_true (List.mem_filter.1 hs).2 rfl

lemma distinct_of_nodup (h : l.Nodup) : distinct l = l := by
  induction l with
  | nil => rfl
  | cons s rest ih =>
    obtain ⟨hs, hrest⟩ := List.nodup_cons.1 h
    rw [distinct, ih hrest, List.filter_eq_self.2]
    intro t ht
    exact decide_eq_true fun heq => hs (heq ▸ ht)

end Suggestion

/-! ## First occurrences -/

section FirstOccurrence

variable {α : Type} [DecidableEq α] {a b : α}

/-- A member comes before another one if it is at the front and the other is not, or if neither is at the front and
it comes before the other behind it. -/
lemma idxOf_cons_lt (x : α) (l : List α) :
    (x :: l).idxOf a < (x :: l).idxOf b ↔ b ≠ x ∧ (a = x ∨ l.idxOf a < l.idxOf b) := by
  by_cases hb : b = x
  · rw [hb, List.idxOf_cons_self]
    simp
  · rw [List.idxOf_cons_ne l (Ne.symm hb)]
    by_cases ha : a = x
    · rw [ha, List.idxOf_cons_self]
      simp [hb]
    · rw [List.idxOf_cons_ne l (Ne.symm ha)]
      simp [ha, hb]

/-- Leaving out other members does not change which of two comes first. -/
lemma idxOf_filter_lt {p : α → Bool} (ha : p a = true) (hb : p b = true) (l : List α) :
    (l.filter p).idxOf a < (l.filter p).idxOf b ↔ l.idxOf a < l.idxOf b := by
  induction l with
  | nil => rfl
  | cons x rest ih =>
    by_cases hx : p x = true
    · rw [List.filter_cons_of_pos hx, idxOf_cons_lt, idxOf_cons_lt, ih]
    · have hxa : a ≠ x := fun heq => hx (heq ▸ ha)
      have hxb : b ≠ x := fun heq => hx (heq ▸ hb)
      rw [List.filter_cons_of_neg hx, idxOf_cons_lt, ih]
      simp [hxa, hxb]

end FirstOccurrence

/-- Members stand in the order of their first occurrence. -/
lemma Suggestion.idxOf_distinct_lt (a b : Suggestion) (l : List Suggestion) :
    (distinct l).idxOf a < (distinct l).idxOf b ↔ l.idxOf a < l.idxOf b := by
  induction l with
  | nil => rfl
  | cons s rest ih =>
    rw [distinct, idxOf_cons_lt, idxOf_cons_lt]
    by_cases hb : b = s
    · simp [hb]
    · by_cases ha : a = s
      · simp [ha]
      · rw [idxOf_filter_lt (p := fun t => t ≠ s) (decide_eq_true ha) (decide_eq_true hb), ih]

/-- Sorting does not move texts with equal keys past each other. -/
lemma Suggestion.idxOf_insertionSort_lt {a b : Suggestion} (ha : a.kind = .text) (hb : b.kind = .text)
    (hkey : a.key = b.key) (l : List Suggestion) :
    (Sorting.insertionSort less l).idxOf a < (Sorting.insertionSort less l).idxOf b ↔ l.idxOf a < l.idxOf b := by
  let p : Suggestion → Bool := fun s => s.kind = .text ∧ s.key = a.key
  have hties : ∀ s t, p s = true → p t = true → less s t = false := by
    intro s t hs ht
    obtain ⟨hs, hkeys⟩ := of_decide_eq_true hs
    rw [less_eq_false_of_text hs, hkeys, (of_decide_eq_true ht).2]
  have hpa : p a = true := decide_eq_true ⟨ha, rfl⟩
  have hpb : p b = true := decide_eq_true ⟨hb, hkey.symm⟩
  rw [← idxOf_filter_lt hpa hpb, Sorting.filter_insertionSort hties, idxOf_filter_lt hpa hpb]

/-! ## Normal forms -/

namespace Suggestion

variable {s : Suggestion} {command : String} {span : Span}

@[simp] lemma span_expand (s : Suggestion) (command : String) (span : Span) : (s.expand command span).span = span := by
  unfold expand
  split
  · next h => exact h.symm
  · rfl

lemma expand_of_span_eq (h : s.span = span) : s.expand command span = s := by
  rw [expand, if_pos h.symm]

lemma kind_expand (h : s.kind = .text) : (s.expand command span).kind = .text := by
  unfold expand
  split
  · exact h
  · rfl

end Suggestion

/-- Spans that are all the same have that span as their union. -/
lemma Span.unionAll_of_forall_eq {l : List Span} {span : Span} (hne : l ≠ []) (h : ∀ s ∈ l, s = span) :
    unionAll l = span := by
  have hself : span.union span = span := by simp [union]
  have hfold : ∀ {rest : List Span}, (∀ s ∈ rest, s = span) → rest.foldl union span = span := by
    intro rest hrest
    induction rest with
    | nil => rfl
    | cons next rest ih =>
      rw [List.foldl_cons, hrest next (List.mem_cons_self ..), hself]
      exact ih fun s hs => hrest s (List.mem_cons_of_mem _ hs)
  rcases l with _ | ⟨first, rest⟩
  · exact absurd rfl hne
  · rw [unionAll, h first (List.mem_cons_self ..)]
    exact hfold fun s hs => h s (List.mem_cons_of_mem _ hs)

namespace Suggestions

variable {command : String} {l : List Suggestion} {r : Suggestions}

/-- The suggestions of a list, each for the union of all spans. -/
def widened (command : String) (l : List Suggestion) : List Suggestion :=
  l.map fun s => s.expand command (Span.unionAll (l.map Suggestion.span))

/-- Without regard to whether there is anything in the list, a normal form is what is left of the widened
suggestions, sorted. -/
lemma create?_eq (command : String) (l : List Suggestion) :
    create? command l = (Suggestion.sort? (Suggestion.distinct (widened command l))).map
      (⟨Span.unionAll (l.map Suggestion.span), ·⟩) := by
  rcases l with _ | ⟨first, rest⟩
  · rfl
  · rfl

/-- All widened suggestions have the same span. -/
lemma span_of_mem_widened {s : Suggestion} (h : s ∈ widened command l) :
    s.span = Span.unionAll (l.map Suggestion.span) := by
  obtain ⟨s₀, -, rfl⟩ := List.mem_map.1 h
  exact Suggestion.span_expand ..

lemma kind_of_mem_widened (hl : ∀ s ∈ l, s.kind = .text) : ∀ s ∈ widened command l, s.kind = .text := by
  intro s hs
  obtain ⟨s₀, hs₀, rfl⟩ := List.mem_map.1 hs
  exact Suggestion.kind_expand (hl s₀ hs₀)

/-- The list of a normal form has the widened suggestions, without repetitions. -/
lemma perm_of_create? (h : create? command l = some r) :
    r.span = Span.unionAll (l.map Suggestion.span) ∧ r.list.Perm (Suggestion.distinct (widened command l)) := by
  rw [create?_eq] at h
  obtain ⟨sorted, hsorted, rfl⟩ := Option.map_eq_some_iff.1 h
  exact ⟨rfl, Suggestion.perm_sort? hsorted⟩

lemma mem_list_iff (h : create? command l = some r) (s : Suggestion) : s ∈ r.list ↔ s ∈ widened command l :=
  (perm_of_create? h).2.mem_iff.trans Suggestion.mem_distinct

lemma nodup_list (h : create? command l = some r) : r.list.Nodup :=
  (perm_of_create? h).2.nodup_iff.2 (Suggestion.nodup_distinct _)

/-- What the normal form of a list looks like: it has every widened suggestion once, the keys ascend, and of those
with equal keys the one that occurs first stands in front. -/
structure NormalFormOf (r : Suggestions) (command : String) (l : List Suggestion) : Prop where
  span : r.span = Span.unionAll (l.map Suggestion.span)
  nodup : r.list.Nodup
  mem : ∀ s, s ∈ r.list ↔ s ∈ widened command l
  ascending : r.list.Pairwise fun a b => a.key ≤ b.key
  ties : ∀ a ∈ r.list, ∀ b ∈ r.list, a.key = b.key →
    (r.list.idxOf a < r.list.idxOf b ↔ (widened command l).idxOf a < (widened command l).idxOf b)

/-- Texts that were widened and sorted without repetitions. -/
lemma create?_of_texts (command : String) (hl : ∀ s ∈ l, s.kind = .text) :
    create? command l = some ⟨Span.unionAll (l.map Suggestion.span),
      Sorting.insertionSort Suggestion.less (Suggestion.distinct (widened command l))⟩ := by
  have htexts : ∀ s ∈ Suggestion.distinct (widened command l), s.kind = .text := fun s hs =>
    kind_of_mem_widened hl s (Suggestion.mem_distinct.1 hs)
  rw [create?_eq, Suggestion.sort?_of_texts htexts, Option.map_some]

/-- What is created from texts is their normal form. -/
theorem normalFormOf_of_create? (hl : ∀ s ∈ l, s.kind = .text) (h : create? command l = some r) :
    r.NormalFormOf command l := by
  obtain rfl := Option.some.inj ((create?_of_texts command hl).symm.trans h)
  have htexts : ∀ s ∈ Suggestion.distinct (widened command l), s.kind = .text := fun s hs =>
    kind_of_mem_widened hl s (Suggestion.mem_distinct.1 hs)
  have hperm := Sorting.perm_insertionSort Suggestion.less (Suggestion.distinct (widened command l))
  refine ⟨rfl, nodup_list h, mem_list_iff h, ?_, fun a ha b hb hkey => ?_⟩
  · refine List.Pairwise.imp_of_mem ?_ (Sorting.ascending_insertionSort (Suggestion.linearOn_of_texts htexts))
    intro a b _ hb hab
    exact (Suggestion.less_eq_false_of_text (htexts b (hperm.mem_iff.1 hb))).1 hab
  · have hsorted := Suggestion.idxOf_insertionSort_lt (htexts a (hperm.mem_iff.1 ha)) (htexts b (hperm.mem_iff.1 hb))
      hkey (Suggestion.distinct (widened command l))
    exact hsorted.trans (Suggestion.idxOf_distinct_lt a b _)

/-- A normal form of texts is its own normal form. -/
theorem create?_list (hl : ∀ s ∈ l, s.kind = .text) (h : create? command l = some r) :
    create? command r.list = some r := by
  have hnormal := normalFormOf_of_create? hl h
  by_cases hne : r.list = []
  · -- then there was nothing to begin with
    obtain rfl : l = [] := by
      rcases l with _ | ⟨first, rest⟩
      · rfl
      · have hfirst := (hnormal.mem _).2 (List.mem_cons_self ..)
        rw [hne] at hfirst
        exact absurd hfirst List.not_mem_nil
    rw [hne]
    exact h
  · have hspans : ∀ s ∈ r.list, s.span = r.span := fun s hs =>
      (span_of_mem_widened ((hnormal.mem s).1 hs)).trans hnormal.span.symm
    have htexts : ∀ s ∈ r.list, s.kind = .text := fun s hs => kind_of_mem_widened hl s ((hnormal.mem s).1 hs)
    have hunion : Span.unionAll (r.list.map Suggestion.span) = r.span := by
      refine Span.unionAll_of_forall_eq (fun hnil => hne (List.map_eq_nil_iff.1 hnil)) fun span hspan => ?_
      obtain ⟨s, hs, rfl⟩ := List.mem_map.1 hspan
      exact hspans s hs
    have hwidened : widened command r.list = r.list := by
      rw [widened, hunion]
      exact (List.map_congr_left fun s hs => Suggestion.expand_of_span_eq (hspans s hs)).trans (List.map_id _)
    have hascending : Sorting.Ascending Suggestion.less r.list :=
      List.Pairwise.imp_of_mem (fun _ hb hkeys => (Suggestion.less_eq_false_of_text (htexts _ hb)).2 hkeys)
        hnormal.ascending
    rw [create?_eq, hwidened, Suggestion.distinct_of_nodup hnormal.nodup, Suggestion.sort?_of_texts htexts,
      Sorting.insertionSort_of_ascending hascending, hunion]
    rfl

/-- The normal form of some list of texts. -/
def OfTexts (command : String) (r : Suggestions) : Prop :=
  ∃ l : List Suggestion, (∀ s ∈ l, s.kind = .text) ∧ create? command l = some r

/-- A result for texts has texts only. -/
lemma OfTexts.kind_eq (h : OfTexts command r) : ∀ s ∈ r.list, s.kind = .text := by
  obtain ⟨l, hl, hcreate⟩ := h
  intro s hs
  exact kind_of_mem_widened hl s ((mem_list_iff hcreate s).1 hs)

/-- Merging is bringing everything into normal form, also where there is only one result. -/
lemma merge?_eq_create? {results : List Suggestions} (h : ∀ r ∈ results, OfTexts command r) :
    merge? command results = create? command (results.flatMap Suggestions.list) := by
  rcases results with _ | ⟨first, _ | ⟨second, rest⟩⟩
  · rfl
  · obtain ⟨l, hl, hcreate⟩ := h first (List.mem_cons_self ..)
    rw [List.flatMap_singleton, create?_list hl hcreate]
    rfl
  · rfl

/-- Texts have a normal form, which is its own normal form; merging results for texts is bringing all their
suggestions into normal form; and a result with nothing in it makes no difference there. -/
theorem create?_normalForm (command : String) :
    (∀ l : List Suggestion, (∀ s ∈ l, s.kind = .text) →
      ∃ r, create? command l = some r ∧ r.NormalFormOf command l ∧ create? command r.list = some r) ∧
    (∀ results : List Suggestions, (∀ r ∈ results, OfTexts command r) →
      ∃ r, merge? command results = some r ∧ create? command (results.flatMap Suggestions.list) = some r) ∧
    ∀ before after : List Suggestions, (∀ r ∈ before ++ after, OfTexts command r) →
      ∀ nothing, OfTexts command nothing → nothing.isEmpty = true →
        merge? command (before ++ nothing :: after) = merge? command (before ++ after) := by
  refine ⟨fun l hl => ?_, fun results h => ?_, fun before after h nothing hnothing hempty => ?_⟩
  · have hcreate := create?_of_texts command hl
    exact ⟨_, hcreate, normalFormOf_of_create? hl hcreate, create?_list hl hcreate⟩
  · have htexts : ∀ s ∈ results.flatMap Suggestions.list, s.kind = .text := by
      intro s hs
      obtain ⟨r, hr, hs⟩ := List.mem_flatMap.1 hs
      exact (h r hr).kind_eq s hs
    have hcreate := create?_of_texts command htexts
    exact ⟨_, (merge?_eq_create? h).trans hcreate, hcreate⟩
  · have hall : ∀ r ∈ before ++ nothing :: after, OfTexts command r := by
      intro r hr
      rcases List.mem_append.1 hr with hr | hr
      · exact h r (List.mem_append_left _ hr)
      · rcases List.mem_cons.1 hr with rfl | hr
        · exact hnothing
        · exact h r (List.mem_append_right _ hr)
    have hnone : nothing.list = [] := List.isEmpty_iff.1 hempty
    rw [merge?_eq_create? hall, merge?_eq_create? h, List.flatMap_append, List.flatMap_cons, hnone, List.nil_append,
      List.flatMap_append]

/-- Texts of either case, to go on with the last token of `foo b`. -/
def tails : List Suggestion := ["ar", "az", "Az"].map (.ofText (.point 5) · none)

/-- Texts of either case, to replace the last token of `foo b`. -/
def tokens : List Suggestion := ["foo", "qux", "apple", "Bar"].map (.ofText ⟨4, 5, by omega⟩ · none)

/-- Widened, the texts of both lists are sorted into each other; those that differ in case only keep their order. -/
theorem create?_normalForm_mixedCase :
    (∀ s ∈ tails ++ tokens, s.kind = .text) ∧
      (create? "foo b" (tails ++ tokens)).map texts = some ["apple", "bar", "Bar", "baz", "bAz", "foo", "qux"] ∧
      (∃ r, create? "foo b" (tails ++ tokens) = some r ∧ r.NormalFormOf "foo b" (tails ++ tokens) ∧
        create? "foo b" r.list = some r) ∧
      ∃ first second, create? "foo b" tails = some first ∧ create? "foo b" tokens = some second ∧
        (∃ r, merge? "foo b" [first, second] = some r ∧ create? "foo b" (first.list ++ second.list) = some r) ∧
        merge? "foo b" [first, .empty, second] = merge? "foo b" [first, second] := by
  have hall : ∀ s ∈ tails ++ tokens, s.kind = .text := by decide
  obtain ⟨hcreate, hmerge, hempty⟩ := create?_normalForm "foo b"
  obtain ⟨first, hfirst, -⟩ := hcreate tails (by decide)
  obtain ⟨second, hsecond, -⟩ := hcreate tokens (by decide)
  have hboth : ∀ r ∈ [first, second], OfTexts "foo b" r := by
    rintro r (_ | ⟨_, _ | ⟨_, hr⟩⟩)
    · exact ⟨tails, by decide, hfirst⟩
    · exact ⟨tokens, by decide, hsecond⟩
    · exact absurd hr List.not_mem_nil
  refine ⟨hall, by decide +kernel, hcreate _ hall, first, second, hfirst, hsecond, ?_, ?_⟩
  · obtain ⟨r, hmerged, hcreated⟩ := hmerge [first, second] hboth
    rw [List.flatMap_cons, List.flatMap_singleton] at hcreated
    exact ⟨r, hmerged, hcreated⟩
  · exact hempty [first] [second] hboth .empty ⟨[], fun s hs => absurd hs List.not_mem_nil, rfl⟩ rfl

end Suggestions
end CommandEngine
