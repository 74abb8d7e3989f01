import CommandEngine.Proofs.Completion.Placement
import CommandEngine.Proofs.Suggestion.NormalForm
import Mathlib.Order.Bounds.Basic

/-!
# What suggestions lead to

A suggestion whose span fits the command takes the command apart into what lies before the span, what it covers and
what lies after it (`Span.Parts`), and puts its text in place of the middle part.  Widening it moves parts of the
command into its text and leads to the same input (`Suggestion.applied?_expand_of_fits`).  So the normal form of a
list leads to the same inputs as the list, and so does a merged result (`Suggestions.Preserves`).

There may be no normal form, however.  Sorting gives up on a long list of both kinds that contradicts itself
(`Suggestions.not_preserves_contradiction`), and this is the only way in which suggestions are lost
(`Suggestions.preserves_of_fits`).
-/

namespace CommandEngine

/-! ## Spans that fit -/

namespace Span

variable {span outer : Span} {input : String} {cs before covered after : List Char} {l : List Span}

/-- Both ends of the span stand between characters of the input, or at its ends. -/
def Fits (span : Span) (input : String) : Prop :=
  (Text.splitAt? input.toList span.start).isSome ∧ (Text.splitAt? input.toList span.stop).isSome

instance (span : Span) (input : String) : Decidable (span.Fits input) :=
  inferInstanceAs (Decidable (_ ∧ _))

/-- The span covers another one. -/
def Covers (outer span : Span) : Prop := outer.start ≤ span.start ∧ span.stop ≤ outer.stop

/-- A span takes a text apart: what lies before it, what it covers and what lies after it. -/
structure Parts (span : Span) (cs before covered after : List Char) : Prop where
  chars : cs = before ++ (covered ++ after)
  start : span.start = Text.width before
  stop : span.stop = Text.width (before ++ covered)

lemma Fits.exists_parts (h : span.Fits input) :
    ∃ before covered after, span.Parts input.toList before covered after := by
  obtain ⟨⟨before, rest⟩, hstart⟩ := Option.isSome_iff_exists.1 h.1
  obtain ⟨⟨upTo, after⟩, hstop⟩ := Option.isSome_iff_exists.1 h.2
  have hrest := Text.append_of_splitAt? hstart
  have hafter := Text.append_of_splitAt? hstop
  obtain ⟨covered, rfl⟩ : ∃ covered, upTo = before ++ covered := by
    refine Text.exists_append_of_width_le (hrest.trans hafter.symm) ?_
    rw [Text.width_of_splitAt? hstart, Text.width_of_splitAt? hstop]
    exact span.ordered
  refine ⟨before, covered, after, ?_, (Text.width_of_splitAt? hstart).symm, (Text.width_of_splitAt? hstop).symm⟩
  rw [← hafter, List.append_assoc]

/-- A wider span leaves less on either side. -/
lemma Parts.exists_margins {before' covered' after' : List Char} (h : span.Parts cs before covered after)
    (houter : outer.Parts cs before' covered' after') (hcovers : outer.Covers span) :
    ∃ left right, before = before' ++ left ∧ after = right ++ after' := by
  have hboth := houter.chars.symm.trans h.chars
  obtain ⟨left, hleft⟩ : ∃ left, before = before' ++ left := by
    refine Text.exists_append_of_width_le hboth ?_
    rw [← houter.start, ← h.start]
    exact hcovers.1
  rw [← List.append_assoc, ← List.append_assoc] at hboth
  obtain ⟨right, hright⟩ : ∃ right, before' ++ covered' = (before ++ covered) ++ right := by
    refine Text.exists_append_of_width_le hboth.symm ?_
    rw [← houter.stop, ← h.stop]
    exact hcovers.2
  refine ⟨left, right, hleft, ?_⟩
  rw [hright, List.append_assoc] at hboth
  exact (List.append_cancel_left hboth).symm

/-- An end that the union of two spans takes from one of them is taken from one of the list by a union of many. -/
lemma exists_mem_foldl {f : Span → Nat} (hunion : ∀ a b, f (a.union b) = f a ∨ f (a.union b) = f b) (first : Span)
    (rest : List Span) : ∃ s ∈ first :: rest, f s = f (rest.foldl union first) := by
  induction rest generalizing first with
  | nil => exact ⟨first, List.mem_singleton_self first, rfl⟩
  | cons next rest ih =>
    obtain ⟨s, hs, heq⟩ := ih (first.union next)
    rcases List.mem_cons.1 hs with rfl | hs
    · rcases hunion first next with hfirst | hnext
      · exact ⟨first, List.mem_cons_self .., hfirst.symm.trans heq⟩
      · exact ⟨next, List.mem_cons_of_mem _ (List.mem_cons_self ..), hnext.symm.trans heq⟩
    · exact ⟨s, List.mem_cons_of_mem _ (List.mem_cons_of_mem _ hs), heq⟩

/-- The union of spans starts where the first of them starts. -/
lemma isLeast_start_unionAll (hne : l ≠ []) : IsLeast {n | ∃ s ∈ l, s.start = n} (unionAll l).start := by
  rcases l with _ | ⟨first, rest⟩
  · exact absurd rfl hne
  · refine ⟨exists_mem_foldl (fun a b => ?_) first rest, fun n ⟨s, hs, hn⟩ => hn ▸ (covers_foldl hs).1⟩
    exact min_choice a.start b.start

/-- The union of spans stops where the last of them stops. -/
lemma isGreatest_stop_unionAll (hne : l ≠ []) : IsGreatest {n | ∃ s ∈ l, s.stop = n} (unionAll l).stop := by
  rcases l with _ | ⟨first, rest⟩
  · exact absurd rfl hne
  · refine ⟨exists_mem_foldl (fun a b => ?_) first rest, fun n ⟨s, hs, hn⟩ => hn ▸ (covers_foldl hs).2⟩
    exact max_choice a.stop b.stop

/-- The union of spans covers each of them. -/
lemma covers_unionAll (h : span ∈ l) : (unionAll l).Covers span := by
  rcases l with _ | ⟨first, rest⟩
  · exact absurd h List.not_mem_nil
  · exact covers_foldl h

/-- The union of spans that fit fits. -/
lemma fits_unionAll (hl : ∀ s ∈ l, s.Fits input) : (unionAll l).Fits input := by
  by_cases hne : l = []
  · have horigin : (Text.splitAt? input.toList 0).isSome :=
      Option.isSome_iff_exists.2 ⟨_, Text.splitAt?_append [] input.toList⟩
    rw [hne]
    exact ⟨horigin, horigin⟩
  · obtain ⟨s, hs, hstart⟩ := (isLeast_start_unionAll hne).1
    obtain ⟨s', hs', hstop⟩ := (isGreatest_stop_unionAll hne).1
    exact ⟨hstart ▸ (hl s hs).1, hstop ▸ (hl s' hs').2⟩

end Span

/-! ## Putting a suggestion in place -/

namespace Suggestion

variable {s : Suggestion} {command : String} {span : Span} {before covered after : List Char}

/-- A suggestion takes the place of what its span covers. -/
lemma applied?_of_parts (h : s.span.Parts command.toList before covered after) :
    s.applied? command = some (String.ofList (before ++ s.text.toList ++ after)) := by
  have hchars : command.toList = (before ++ covered) ++ after := h.chars.trans (List.append_assoc ..).symm
  have hbefore : Text.splitAt? command.toList s.span.start = some (before, covered ++ after) := by
    rw [h.chars, h.start, Text.splitAt?_append]
  have hafter : Text.splitAt? command.toList s.span.stop = some (before ++ covered, after) := by
    rw [hchars, h.stop, Text.splitAt?_append]
  have hwhole : s.splitsCharacter command = false := by
    rw [splitsCharacter, hafter, Option.isNone_some, Bool.and_false]
  rw [applied?, hwhole, if_neg Bool.false_ne_true, apply]
  by_cases hall : s.span.start = 0 ∧ s.span.stop = Text.width command.toList
  · -- the whole command is replaced: there is nothing before it and nothing after it
    obtain rfl : before = [] := Text.eq_nil_of_width (h.start.symm.trans hall.1)
    obtain rfl : after = [] := by
      have hwidth := hall.2
      rw [h.stop, hchars, Text.width_append _ after] at hwidth
      exact Text.eq_nil_of_width (by omega)
    rw [if_pos hall, List.nil_append, List.append_nil, String.ofList_toList]
  · simp only [if_neg hall, Suggestion.before, beyond, hbefore, hafter, Option.map_some, Option.getD_some]

lemma isSome_applied? (h : s.span.Fits command) : (s.applied? command).isSome := by
  obtain ⟨before, covered, after, hparts⟩ := h.exists_parts
  rw [applied?_of_parts hparts]
  rfl

/-- Widening a suggestion does not change what it leads to: what the wider span takes from the command is put into
the text. -/
theorem applied?_expand_of_fits (hs : s.span.Fits command) (hspan : span.Fits command)
    (hcovers : span.Covers s.span) : (s.expand command span).applied? command = s.applied? command := by
  by_cases hsame : span = s.span
  · rw [expand_of_span_eq hsame.symm]
  · obtain ⟨before, covered, after, hparts⟩ := hs.exists_parts
    obtain ⟨before', covered', after', houter⟩ := hspan.exists_parts
    obtain ⟨left, right, rfl, rfl⟩ := hparts.exists_margins houter hcovers
    have hleft : Text.slice? command.toList span.start s.span.start = some left := by
      rw [hparts.chars, hparts.start, houter.start, Text.width_append, List.append_assoc]
      exact Text.slice?_append ..
    have hright : Text.slice? command.toList s.span.stop span.stop = some right := by
      have hstop : span.stop = s.span.stop + Text.width right := by
        have hwidth := congrArg Text.width (houter.chars.symm.trans hparts.chars)
        rw [houter.stop, hparts.stop]
        simp only [Text.width_append] at hwidth ⊢
        omega
      rw [hstop, hparts.stop, hparts.chars, ← List.append_assoc]
      exact Text.slice?_append ..
    have htext : (s.expand command span).text.toList = left ++ s.text.toList ++ right := by
      simp [expand, hsame, ofText, hleft, hright]
    have hexpanded : (s.expand command span).span.Parts command.toList before' covered' after' :=
      (span_expand s command span).symm ▸ houter
    rw [applied?_of_parts hexpanded, applied?_of_parts hparts, htext]
    simp only [List.append_assoc]

/-! ## Contradictions -/

/-- The order of the members contradicts itself: of some three the first does not come after the second, nor the
second after the third, and yet the first comes after the third. -/
def Contradictory (l : List Suggestion) : Prop :=
  ∃ a ∈ l, ∃ b ∈ l, ∃ c ∈ l, a.order b ≠ .gt ∧ b.order c ≠ .gt ∧ a.order c = .gt

lemma Contradictory.mono {l m : List Suggestion} (hl : Contradictory l) (h : l ⊆ m) : Contradictory m := by
  obtain ⟨a, ha, b, hb, c, hc, horder⟩ := hl
  exact ⟨a, h ha, b, h hb, c, h hc, horder⟩

lemma less_eq_true {a b : Suggestion} : less b a = true ↔ a.order b = .gt := by
  rw [less, decide_eq_true_eq, order_swap a b, Ordering.swap_eq_lt]

/-- Without a contradiction, the order is linear. -/
lemma linearOn_of_not_contradictory {l : List Suggestion} (h : ¬ Contradictory l) : Sorting.LinearOn less l := by
  refine ⟨fun a _ b _ hab => ?_, fun a ha b hb c hc hba hcb => ?_⟩
  · rw [less, decide_eq_true_eq] at hab
    rw [Bool.eq_false_iff, Ne, less_eq_true, hab]
    exact Ordering.noConfusion
  · rw [Bool.eq_false_iff, Ne, less_eq_true] at hba hcb ⊢
    exact fun hca => h ⟨a, ha, b, hb, c, hc, hba, hcb, hca⟩

/-- Sorting gives up only on long lists of both kinds with a contradiction. -/
lemma contradictory_of_sort? {l : List Suggestion} (h : sort? l = none) :
    20 < l.length ∧ areAlike l = false ∧ Contradictory l := by
  rw [sort?] at h
  split at h
  · exact absurd h (Option.some_ne_none _)
  · next halike =>
    refine ⟨?_, Bool.eq_false_iff.2 halike, ?_⟩
    · by_contra hshort
      rw [Sorting.sort?, if_pos (Nat.le_of_not_lt hshort)] at h
      exact absurd h (Option.some_ne_none _)
    · by_contra hlinear
      have hsome := Sorting.isSome_sort? (linearOn_of_not_contradictory hlinear)
      rw [h] at hsome
      exact absurd hsome Bool.false_ne_true

lemma length_distinct_le (l : List Suggestion) : (distinct l).length ≤ l.length := by
  induction l with
  | nil => exact Nat.le_refl _
  | cons s rest ih => exact Nat.succ_le_succ ((List.length_filter_le _ _).trans ih)

lemma areAlike_distinct (l : List Suggestion) : areAlike (distinct l) = areAlike l := by
  have hall : ∀ p : Suggestion → Bool, (distinct l).all p = l.all p := fun p => by
    rw [Bool.eq_iff_iff, List.all_eq_true, List.all_eq_true]
    simp only [mem_distinct]
  rw [areAlike, areAlike, hall, hall]

end Suggestion

/-! ## Normal forms -/

namespace Suggestions

variable {command : String} {l : List Suggestion} {r : Suggestions}

/-- The inputs that the suggestions of a list lead to. -/
def outcomes (command : String) (l : List Suggestion) : Set String :=
  {input | ∃ s ∈ l, s.applied? command = some input}

/-- The result does what the suggestions of a list do: all of it can be put in place, it leads to the same inputs, and
its suggestions replace everything from the least start to the greatest stop. -/
structure Preserves (r : Suggestions) (command : String) (l : List Suggestion) : Prop where
  applies : ∀ t ∈ r.list, (t.applied? command).isSome
  outcomes_eq : outcomes command r.list = outcomes command l
  start : ∀ t ∈ r.list, IsLeast {n | ∃ s ∈ l, s.span.start = n} t.span.start
  stop : ∀ t ∈ r.list, IsGreatest {n | ∃ s ∈ l, s.span.stop = n} t.span.stop

/-- A result for suggestions that fit the command. -/
def OfFitting (command : String) (r : Suggestions) : Prop :=
  ∃ l : List Suggestion, (∀ s ∈ l, s.span.Fits command) ∧ create? command l = some r

lemma span_of_mem_list (h : create? command l = some r) {t : Suggestion} (ht : t ∈ r.list) : t.span = r.span := by
  obtain ⟨s, -, rfl⟩ := (mem_create? h t).1 ht
  exact Suggestion.span_expand ..

lemma fits_of_create? (hl : ∀ s ∈ l, s.span.Fits command) (h : create? command l = some r) : r.span.Fits command := by
  rw [(perm_of_create? h).1]
  refine Span.fits_unionAll fun span hspan => ?_
  obtain ⟨s, hs, rfl⟩ := List.mem_map.1 hspan
  exact hl s hs

/-- A normal form does what the suggestions of the list do. -/
theorem preserves_of_create? (hl : ∀ s ∈ l, s.span.Fits command) (h : create? command l = some r) :
    r.Preserves command l := by
  have hfits := fits_of_create? hl h
  have hspan := (perm_of_create? h).1
  have hkept : ∀ s ∈ l, (s.expand command r.span).applied? command = s.applied? command := fun s hs =>
    Suggestion.applied?_expand_of_fits (hl s hs) hfits (hspan ▸ Span.covers_unionAll (List.mem_map_of_mem hs))
  have hne : ∀ t ∈ r.list, l.map Suggestion.span ≠ [] := by
    intro t ht hnil
    obtain ⟨s, hs, -⟩ := (mem_create? h t).1 ht
    rw [List.map_eq_nil_iff.1 hnil] at hs
    exact absurd hs List.not_mem_nil
  refine ⟨fun t ht => ?_, Set.ext fun input => ⟨?_, ?_⟩, fun t ht => ?_, fun t ht => ?_⟩
  · obtain ⟨s, hs, rfl⟩ := (mem_create? h t).1 ht
    rw [hkept s hs]
    exact Suggestion.isSome_applied? (hl s hs)
  · rintro ⟨t, ht, happlied⟩
    obtain ⟨s, hs, rfl⟩ := (mem_create? h t).1 ht
    exact ⟨s, hs, (hkept s hs).symm.trans happlied⟩
  · rintro ⟨s, hs, happlied⟩
    exact ⟨_, (mem_create? h _).2 ⟨s, hs, rfl⟩, (hkept s hs).trans happlied⟩
  · rw [span_of_mem_list h ht, hspan]
    simpa using Span.isLeast_start_unionAll (hne t ht)
  · rw [span_of_mem_list h ht, hspan]
    simpa using Span.isGreatest_stop_unionAll (hne t ht)

/-- The list is long and, widened, has suggestions of both kinds that contradict each other. -/
structure Disordered (command : String) (l : List Suggestion) : Prop where
  long : 20 < l.length
  mixed : Suggestion.areAlike (widened command l) = false
  contradictory : Suggestion.Contradictory (widened command l)

/-- There is no normal form only of lists that are long, mixed and contradictory. -/
theorem disordered_of_create? (h : create? command l = none) : Disordered command l := by
  rw [create?_eq, Option.map_eq_none_iff] at h
  obtain ⟨hlong, hmixed, hcontradictory⟩ := Suggestion.contradictory_of_sort? h
  rw [Suggestion.areAlike_distinct] at hmixed
  refine ⟨hlong.trans_le ?_, hmixed, hcontradictory.mono fun _ => Suggestion.mem_distinct.1⟩
  exact (Suggestion.length_distinct_le _).trans_eq (List.length_map _)

/-- A normal form does what its own suggestions do. -/
lemma OfFitting.preserves_list (h : OfFitting command r) : r.Preserves command r.list := by
  obtain ⟨l, hl, hcreate⟩ := h
  have hpreserves := preserves_of_create? hl hcreate
  refine ⟨hpreserves.applies, rfl, fun t ht => ⟨⟨t, ht, rfl⟩, ?_⟩, fun t ht => ⟨⟨t, ht, rfl⟩, ?_⟩⟩
  · rintro n ⟨s, hs, rfl⟩
    rw [span_of_mem_list hcreate ht, span_of_mem_list hcreate hs]
  · rintro n ⟨s, hs, rfl⟩
    rw [span_of_mem_list hcreate ht, span_of_mem_list hcreate hs]

/-- Suggestions that fit the command keep what they do when they are widened, brought into normal form or merged,
unless there is no normal form.  That happens only where more than twenty suggestions of both kinds contradict each
other in their order. -/
theorem preserves_of_fits (command : String) :
    (∀ (s : Suggestion) (span : Span), s.span.Fits command → span.Fits command → span.Covers s.span →
      (s.expand command span).applied? command = s.applied? command) ∧
    (∀ l : List Suggestion, (∀ s ∈ l, s.span.Fits command) →
      (∀ r, create? command l = some r → r.Preserves command l) ∧
        (create? command l = none → Disordered command l)) ∧
    ∀ results : List Suggestions, (∀ r ∈ results, OfFitting command r) →
      (∀ r, merge? command results = some r → r.Preserves command (results.flatMap Suggestions.list)) ∧
        (merge? command results = none → Disordered command (results.flatMap Suggestions.list)) := by
  refine ⟨fun s span => Suggestion.applied?_expand_of_fits, fun l hl =>
    ⟨fun r => preserves_of_create? hl, disordered_of_create?⟩, fun results hresults => ?_⟩
  have hall : ∀ s ∈ results.flatMap Suggestions.list, s.span.Fits command := by
    intro s hs
    obtain ⟨r, hr, hs⟩ := List.mem_flatMap.1 hs
    obtain ⟨l, hl, hcreate⟩ := hresults r hr
    exact span_of_mem_list hcreate hs ▸ fits_of_create? hl hcreate
  rcases results with _ | ⟨first, _ | ⟨second, rest⟩⟩
  · exact ⟨fun r => preserves_of_create? hall, fun h => absurd h (Option.some_ne_none _)⟩
  · rw [List.flatMap_singleton]
    refine ⟨fun r h => ?_, fun h => absurd h (Option.some_ne_none _)⟩
    obtain rfl := Option.some.inj h
    exact (hresults first (List.mem_cons_self ..)).preserves_list
  · exact ⟨fun r => preserves_of_create? hall, disordered_of_create?⟩

/-- Integers and texts in a circle: `9` comes before `10` by value, `10` before the text `5` by its digits, and that
text before `9`. -/
def contradiction : List Suggestion :=
  ([10, 9, 11, 12, 13, 14, 15, 16, 17, 18].map fun n => .ofInteger (.point 0) n none) ++
    ["5", "50", "51", "52", "53", "54", "55", "56", "57", "58", "59"].map fun text => .ofText (.point 0) text none

lemma create?_contradiction : create? "" contradiction = none := by decide +kernel

/-- The contradiction has no normal form, so what its suggestions lead to is lost. -/
theorem not_preserves_contradiction :
    (∀ s ∈ contradiction, s.span.Fits "") ∧
      ¬ ∃ r, create? "" contradiction = some r ∧ r.Preserves "" contradiction := by
  refine ⟨by decide +kernel, ?_⟩
  rintro ⟨r, hcreate, -⟩
  exact absurd (create?_contradiction.symm.trans hcreate) (Option.some_ne_none r).symm

/-- Numbers to replace the last token of `give 1`. -/
def numbers : List Suggestion := [.ofInteger ⟨5, 6, by omega⟩ 12 (some "dozen"), .ofInteger ⟨5, 6, by omega⟩ 7 none]

/-- A keyword to replace the first token of `give 1`, and a digit to go on with. -/
def words : List Suggestion := [.ofText ⟨0, 4, by omega⟩ "grant" none, .ofText (.point 6) "0" none]

/-- Numbers and words are merged into suggestions for the whole of `give 1`, and where there is no normal form, the
list is disordered. -/
theorem preserves_of_fits_padded :
    (∀ s ∈ numbers ++ words, s.span.Fits "give 1") ∧ Disordered "" contradiction ∧
      ∃ first second merged, create? "give 1" numbers = some first ∧ create? "give 1" words = some second ∧
        merge? "give 1" [first, second] = some merged ∧ merged.texts = ["give 10", "give 12", "give 7", "grant 1"] ∧
        first.Preserves "give 1" numbers ∧ second.Preserves "give 1" words ∧
        merged.Preserves "give 1" (first.list ++ second.list) := by
  have hnumbers : ∀ s ∈ numbers, s.span.Fits "give 1" := by decide +kernel
  have hwords : ∀ s ∈ words, s.span.Fits "give 1" := by decide +kernel
  obtain ⟨first, hfirst⟩ : ∃ r, create? "give 1" numbers = some r := Option.isSome_iff_exists.1 (by decide +kernel)
  obtain ⟨second, hsecond⟩ : ∃ r, create? "give 1" words = some r := Option.isSome_iff_exists.1 (by decide +kernel)
  have htexts : ((create? "give 1" numbers).bind fun first => (create? "give 1" words).bind fun second =>
      (merge? "give 1" [first, second]).map texts) = some ["give 10", "give 12", "give 7", "grant 1"] := by
    decide +kernel
  rw [hfirst, hsecond] at htexts
  obtain ⟨merged, hmerged, htexts⟩ := Option.map_eq_some_iff.1 htexts
  obtain ⟨-, hcreate, hmerge⟩ := preserves_of_fits "give 1"
  have hboth : ∀ r ∈ [first, second], OfFitting "give 1" r := by
    rintro r (_ | ⟨_, _ | ⟨_, hr⟩⟩)
    · exact ⟨numbers, hnumbers, hfirst⟩
    · exact ⟨words, hwords, hsecond⟩
    · exact absurd hr List.not_mem_nil
  have hpreserves := (hmerge [first, second] hboth).1 merged hmerged
  rw [List.flatMap_cons, List.flatMap_singleton] at hpreserves
  have hdisordered := ((preserves_of_fits "").2.1 contradiction (by decide +kernel)).2 create?_contradiction
  exact ⟨List.forall_mem_append.2 ⟨hnumbers, hwords⟩, hdisordered, first, second, merged, hfirst, hsecond, hmerged,
    htexts, (hcreate numbers hnumbers).1 first hfirst, (hcreate words hwords).1 second hsecond, hpreserves⟩

end Suggestions
end CommandEngine
