import CommandEngine.Proofs.Completion.Contribution

/-!
# Suggestions in their place

What is suggested at the end of an input takes the place of everything from some offset on.  A suggestion that is
put in place leaves what lies before that offset and puts its text after it (`Suggestion.applied?_of_cut`), and
this stays so when it is widened to a span that starts earlier (`Suggestion.applied?_expand`).

A keyword suggests itself for the place from the start of the token to the end of the input, and only
if it is more than what has been typed there (`CommandTree.eq_of_mem_offers`).
-/

namespace CommandEngine

variable {σ : Type}

/-! ## Putting a suggestion in place -/

namespace Text

lemma eq_nil_of_width {cs : List Char} (h : width cs = 0) : cs = [] := by
  cases cs with
  | nil => rfl
  | cons c rest =>
    have hpos := c.utf8Size_pos
    rw [width_cons] at h
    omega

/-- A text that is cut twice: the earlier cut leaves a beginning of what the later one leaves. -/
lemma exists_append_of_width_le {u v before typed : List Char} (h : u ++ v = before ++ typed)
    (hle : width u ≤ width before) : ∃ between, before = u ++ between := by
  rcases List.append_eq_append_iff.1 h with ⟨between, hbefore, -⟩ | ⟨more, hu, -⟩
  · exact ⟨between, hbefore⟩
  · rw [hu, width_append] at hle
    obtain rfl : more = [] := eq_nil_of_width (by omega)
    exact ⟨[], by rw [hu, List.append_nil, List.append_nil]⟩

/-- There is nothing behind the end of a text. -/
lemma slice?_end (cs : List Char) (stop : Nat) : (slice? cs (width cs) stop).getD [] = [] := by
  have hcut := splitAt?_append cs []
  rw [List.append_nil] at hcut
  unfold slice?
  split
  · simp only [hcut, Option.bind_eq_bind, Option.bind_some]
    cases stop - width cs <;> rfl
  · rfl

end Text

namespace Suggestion

variable {s : Suggestion} {input : String} {before typed : List Char}

lemma beyond_eq_nil {cs : List Char} {offset : Nat} (h : Text.width cs ≤ offset) : beyond cs offset = [] := by
  unfold beyond
  cases hcut : Text.splitAt? cs offset with
  | none => rfl
  | some parts =>
    obtain ⟨first, second⟩ := parts
    have hwidth := Text.width_of_splitAt? hcut
    rw [← Text.append_of_splitAt? hcut, Text.width_append] at h
    exact Text.eq_nil_of_width (show Text.width second = 0 by omega)

/-- A suggestion that reaches to the end of the input takes the place of everything from its start on. -/
lemma applied?_of_cut (hinput : input.toList = before ++ typed) (hstart : s.span.start = Text.width before)
    (hstop : Text.width input.toList ≤ s.span.stop) :
    s.applied? input = some (String.ofList (before ++ s.text.toList)) := by
  have hwhole : s.splitsCharacter input = false := by
    rw [splitsCharacter, decide_eq_false (Nat.not_lt.2 hstop), Bool.false_and]
  have hbefore : Suggestion.before input.toList s.span.start = before := by
    rw [Suggestion.before, hinput, hstart, Text.splitAt?_append]
    rfl
  rw [applied?, hwhole, if_neg Bool.false_ne_true, apply]
  by_cases hall : s.span.start = 0 ∧ s.span.stop = Text.width input.toList
  · obtain rfl : before = [] := Text.eq_nil_of_width (hstart.symm.trans hall.1)
    rw [if_pos hall, List.nil_append, String.ofList_toList]
  · rw [if_neg hall, hbefore, beyond_eq_nil hstop, List.append_nil]

/-- Widening a suggestion to a span that starts between two characters does not change what it leads to. -/
lemma applied?_expand {span : Span} (hinput : input.toList = before ++ typed)
    (hstart : s.span.start = Text.width before) (hstop : s.span.stop = Text.width input.toList)
    (hcovers : span.start ≤ s.span.start ∧ s.span.stop ≤ span.stop)
    (hcut : (Text.splitAt? input.toList span.start).isSome) :
    (s.expand input span).applied? input = s.applied? input := by
  obtain ⟨⟨u, v⟩, huv⟩ := Option.isSome_iff_exists.1 hcut
  have hwidth := Text.width_of_splitAt? huv
  obtain ⟨between, rfl⟩ : ∃ between, before = u ++ between := by
    refine Text.exists_append_of_width_le ((Text.append_of_splitAt? huv).trans hinput) ?_
    rw [hwidth, ← hstart]
    exact hcovers.1
  rw [expand]
  by_cases hsame : span = s.span
  · rw [if_pos hsame]
  · have hleft : Text.slice? input.toList span.start s.span.start = some between := by
      rw [hinput, hstart, ← hwidth, Text.width_append, List.append_assoc]
      exact Text.slice?_append u between typed
    have hright := Text.slice?_end input.toList span.stop
    rw [if_neg hsame, applied?_of_cut hinput hstart hstop.ge,
      applied?_of_cut (hinput.trans (List.append_assoc ..)) hwidth.symm (hstop ▸ hcovers.2), hstop]
    simp [ofText, hleft, hright]

end Suggestion

/-! ## The suggestion of a keyword -/

namespace Text

lemma lowerChar_ne_nil (c : Char) : lowerChar c ≠ [] := by
  unfold lowerChar
  split
  · exact List.cons_ne_nil _ _
  · split
    · exact List.cons_ne_nil _ _
    · split <;> exact List.cons_ne_nil _ _

/-- Only the empty text has an empty lowercase form. -/
lemma eq_nil_of_lowerChars {cs : List Char} (h : lowerChars cs = []) : cs = [] := by
  cases cs with
  | nil => rfl
  | cons c rest =>
    rw [lowerChars, lowerFrom] at h
    have hmapped := (List.append_eq_nil_iff.1 h).1
    split at hmapped
    · split at hmapped <;> cases hmapped
    · exact absurd hmapped (lowerChar_ne_nil c)

end Text

lemma Suggestions.create?_singleton (command : String) (s : Suggestion) :
    create? command [s] = some ⟨s.span, [s]⟩ := by
  have halike : Suggestion.areAlike [s] = true := by
    cases hinteger : s.isInteger <;> simp [Suggestion.areAlike, hinteger]
  simp [create?, Span.unionAll, Suggestion.expand, Suggestion.distinct, Suggestion.sort?, halike,
    Sorting.insertionSort, Sorting.insertEach, Sorting.insertDescending]

/-- A keyword that begins with what has been typed is not empty, unless it is what has been typed. -/
lemma Collector.ne_empty_of_isPrefixed {c : Collector} {k : String} (h : c.isPrefixed k = true)
    (hne : k ≠ c.remaining) : k ≠ "" := by
  rintro rfl
  have hlower : c.lowerRemaining.toList = [] := by
    rw [Collector.isPrefixed, List.isPrefixOf_iff_prefix] at h
    exact List.prefix_nil.1 h
  rw [Collector.lowerRemaining, Text.lowercase, String.toList_ofList] at hlower
  exact hne (String.toList_injective (Text.eq_nil_of_lowerChars hlower).symm)

lemma Collector.suggestMatching_singleton (c : Collector) (k : String) :
    c.suggestMatching [k] = if c.isPrefixed k then c.suggest k none else .ok c := by
  rw [suggestMatching]
  split
  · cases c.suggest k none <;> rfl
  · rfl

/-- A single candidate is suggested if it begins with what has been typed and is more than that. -/
lemma Provider.matching_singleton {k : String} {c : Collector} {span : Span} (context : Context σ)
    (hgathered : c.gathered = []) (hspan : c.span = .ok span) :
    Provider.matching [k] context c =
      .ok (if c.isPrefixed k = true ∧ k ≠ c.remaining then ⟨span, [.ofText span k .none]⟩ else .empty) := by
  have hbuild : c.build? = some .empty := by rw [Collector.build?, hgathered]; rfl
  rw [Provider.matching, Provider.ofCollecting, Collector.suggestMatching_singleton]
  by_cases hprefixed : c.isPrefixed k = true
  · by_cases htyped : k = c.remaining
    · have hsuggest : c.suggest k .none = .ok c := if_pos htyped
      rw [if_pos hprefixed, hsuggest, if_neg fun h => h.2 htyped]
      simp only [Except.bind, Except.mapError, hbuild, Suggestions.orDisordered]
    · have hsuggest : c.suggest k .none = .ok { c with gathered := [.ofText span k .none] } := by
        rw [Collector.suggest, if_neg htyped, Collector.add, hspan, hgathered]
        rfl
      have hcreate := Suggestions.create?_singleton c.input (.ofText span k .none)
      rw [if_pos hprefixed, hsuggest, if_pos ⟨hprefixed, htyped⟩]
      simp only [Except.bind, Except.mapError, Collector.build?, hcreate, Suggestions.orDisordered]
      rfl
  · rw [if_neg hprefixed, if_neg fun h => hprefixed h.1]
    simp only [Except.bind, Except.mapError, hbuild, Suggestions.orDisordered]

namespace CommandTree

variable {t : CommandTree σ} {c : NodeId} {context : Context σ}

lemma suggest_of_keyword {k : String} (hpattern : (t.node c).pattern = some (.literal k)) :
    t.suggest c = Provider.matching [k] := by
  simp only [suggest, hpattern, Option.map_some, Option.getD_some, Pattern.suggest]

/-- What a keyword suggests is itself, in the place of everything from the start of the token on. -/
lemma eq_of_mem_offers {k : String} {collector : Collector} {span : Span}
    (hpattern : (t.node c).pattern = some (.literal k)) (hgathered : collector.gathered = [])
    (hspan : collector.span = .ok span) {s : Suggestion} (hs : s ∈ t.offers c context collector) :
    s = .ofText span k none ∧ k ≠ "" := by
  rw [offers, suggest_of_keyword hpattern, Provider.matching_singleton context hgathered hspan] at hs
  by_cases hoffered : collector.isPrefixed k = true ∧ k ≠ collector.remaining
  · rw [if_pos hoffered] at hs
    exact ⟨List.mem_singleton.1 hs, Collector.ne_empty_of_isPrefixed hoffered.1 hoffered.2⟩
  · rw [if_neg hoffered] at hs
    cases hs

end CommandTree

end CommandEngine
