import CommandEngine.Proofs.Digits
import CommandEngine.Proofs.Suggestion.Outcome

/-!
# Suggestions that look alike

What is shown of a suggestion is its span, its text and its tooltip (`Suggestion.appearance`).  Repetitions are dropped
by comparing whole suggestions, and those have a kind besides.  So an integer and a text that spells it out are both
kept (`Suggestions.not_nodup_appearances`), and nothing else is shown twice (`Suggestions.nodup_appearances_iff`).

An integer stays an integer only where its span is that of the normal form.  The text beside it may have been widened:
what was suggested for a part of the span may spell out the integer once the rest of the command is put around it.
-/

namespace CommandEngine

/-! ## Look-alikes -/

namespace Suggestion

variable {s a b : Suggestion} {command : String} {span : Span}

/-- What is shown of a suggestion. -/
def appearance (s : Suggestion) : Span × String × Option String := (s.span, s.text, s.tooltip)

/-- A suggestion as it is built: if it is an integer, its text is the decimal one. -/
def Genuine (s : Suggestion) : Prop := ∀ n, s.kind = .integer n → s.text = Digits.ofInt n.toInt

lemma genuine_ofText (span : Span) (text : String) (tooltip : Option String) : (ofText span text tooltip).Genuine :=
  fun _ h => SuggestionKind.noConfusion h

lemma genuine_ofInteger (span : Span) (n : Int32) (tooltip : Option String) : (ofInteger span n tooltip).Genuine := by
  intro m h
  obtain rfl := SuggestionKind.integer.inj h
  rfl

/-- A text spells out an integer, in the same place and with the same tooltip. -/
def Mimics (a b : Suggestion) : Prop :=
  ∃ span n tooltip, a = ofText span (Digits.ofInt n.toInt) tooltip ∧ b = ofInteger span n tooltip

lemma Mimics.appearance_eq (h : a.Mimics b) : a.appearance = b.appearance := by
  obtain ⟨span, n, tooltip, rfl, rfl⟩ := h
  rfl

lemma Mimics.span_eq (h : a.Mimics b) : a.span = b.span := (Prod.mk.inj h.appearance_eq).1

lemma Mimics.ne (h : a.Mimics b) : a ≠ b := by
  obtain ⟨span, n, tooltip, rfl, rfl⟩ := h
  exact fun heq => SuggestionKind.noConfusion (Suggestion.mk.inj heq).2.2.2

/-- Suggestions that look alike are the same, or one of them is an integer that the other spells out. -/
lemma eq_or_mimics (ha : a.Genuine) (hb : b.Genuine) (h : a.appearance = b.appearance) :
    a = b ∨ a.Mimics b ∨ b.Mimics a := by
  obtain ⟨span, text, tooltip, kind⟩ := a
  obtain ⟨span', text', tooltip', kind'⟩ := b
  obtain ⟨rfl, hrest⟩ := Prod.mk.inj h
  obtain ⟨rfl, rfl⟩ := Prod.mk.inj hrest
  rcases kind with _ | m <;> rcases kind' with _ | n
  · exact .inl rfl
  · obtain rfl := hb n rfl
    exact .inr (.inl ⟨span, n, tooltip, rfl, rfl⟩)
  · obtain rfl := ha m rfl
    exact .inr (.inr ⟨span, m, tooltip, rfl, rfl⟩)
  · have htext : Digits.ofInt m.toInt = Digits.ofInt n.toInt := (ha m rfl).symm.trans (hb n rfl)
    obtain rfl := Int32.toInt_inj.1 (Digits.ofInt_injective htext)
    exact .inl rfl

/-- A widened suggestion is a text, unless it has the wider span already. -/
lemma expand_eq_self_or_text (s : Suggestion) (command : String) (span : Span) :
    s.expand command span = s ∨ (s.expand command span).kind = .text := by
  unfold expand
  split
  · exact .inl rfl
  · exact .inr rfl

lemma Genuine.expand (h : s.Genuine) (command : String) (span : Span) : (s.expand command span).Genuine := by
  rcases expand_eq_self_or_text s command span with heq | htext
  · rwa [heq]
  · intro n hkind
    rw [htext] at hkind
    exact SuggestionKind.noConfusion hkind

end Suggestion

/-! ## Normal forms -/

namespace Suggestions

variable {command : String} {l : List Suggestion} {r : Suggestions}

/-- An integer that a widened text spells out has the span of the normal form, so it is kept as it is. -/
lemma mem_widened_of_mimics {text integer : Suggestion} (htext : text ∈ widened command l) (hinteger : integer ∈ l)
    (h : text.Mimics integer) : integer ∈ widened command l := by
  have hspan : integer.span = Span.unionAll (l.map Suggestion.span) :=
    h.span_eq.symm.trans (span_of_mem_widened htext)
  exact List.mem_map.2 ⟨integer, hinteger, Suggestion.expand_of_span_eq hspan⟩

/-- An integer among the widened suggestions is one of the list. -/
lemma mem_of_mimics {text integer : Suggestion} (hinteger : integer ∈ widened command l) (h : text.Mimics integer) :
    integer ∈ l := by
  obtain ⟨s, hs, hexpand⟩ := List.mem_map.1 hinteger
  obtain ⟨span, n, tooltip, -, rfl⟩ := h
  rcases s.expand_eq_self_or_text command (Span.unionAll (l.map Suggestion.span)) with heq | hkind
  · exact (heq.symm.trans hexpand) ▸ hs
  · rw [hexpand] at hkind
    exact SuggestionKind.noConfusion hkind

/-- In a normal form, only an integer and a text that spells it out look alike.  So nothing is shown twice exactly where
no suggestion of the list, once widened, spells out an integer of the list; and there is a normal form unless the
list is disordered. -/
theorem nodup_appearances_iff (command : String) (l : List Suggestion) (hl : ∀ s ∈ l, s.Genuine) :
    (∀ r, create? command l = some r →
      (∀ a ∈ r.list, ∀ b ∈ r.list, a.appearance = b.appearance → a = b ∨ a.Mimics b ∨ b.Mimics a) ∧
      ((r.list.map Suggestion.appearance).Nodup ↔
        ∀ integer ∈ l, ∀ text ∈ widened command l, ¬ text.Mimics integer)) ∧
    (create? command l = none → Disordered command l) := by
  refine ⟨fun r hcreate => ?_, disordered_of_create?⟩
  have hgenuine : ∀ s ∈ r.list, s.Genuine := by
    intro s hs
    obtain ⟨original, horiginal, rfl⟩ := (mem_create? hcreate s).1 hs
    exact (hl original horiginal).expand command r.span
  have hpairs : ∀ a ∈ r.list, ∀ b ∈ r.list, a.appearance = b.appearance → a = b ∨ a.Mimics b ∨ b.Mimics a :=
    fun a ha b hb => Suggestion.eq_or_mimics (hgenuine a ha) (hgenuine b hb)
  refine ⟨hpairs, ?_⟩
  rw [List.nodup_map_iff_inj_on (nodup_list hcreate)]
  constructor
  · intro hinjective integer hinteger text htext hmimics
    have hkept := mem_widened_of_mimics htext hinteger hmimics
    exact hmimics.ne (hinjective text ((mem_list_iff hcreate _).2 htext) integer ((mem_list_iff hcreate _).2 hkept)
      hmimics.appearance_eq)
  · intro hnone a ha b hb happearance
    have hwidened : ∀ {s}, s ∈ r.list → s ∈ widened command l := (mem_list_iff hcreate _).1
    rcases hpairs a ha b hb happearance with heq | hmimics | hmimics
    · exact heq
    · exact absurd hmimics (hnone b (mem_of_mimics (hwidened hb) hmimics) a (hwidened ha))
    · exact absurd hmimics (hnone a (mem_of_mimics (hwidened ha) hmimics) b (hwidened hb))

/-- The integer `5`, and the text that spells it out. -/
def lookAlikes : List Suggestion := [.ofInteger (.point 0) 5 none, .ofText (.point 0) "5" none]

/-- Both are kept, so one thing is shown twice. -/
theorem not_nodup_appearances :
    (∀ s ∈ lookAlikes, s.span.Fits "") ∧
      ∃ r, create? "" lookAlikes = some r ∧ ¬ (r.list.map Suggestion.appearance).Nodup := by
  refine ⟨by decide +kernel, ?_⟩
  obtain ⟨r, hcreate⟩ : ∃ r, create? "" lookAlikes = some r := Option.isSome_iff_exists.1 (by decide +kernel)
  have htwice : (create? "" lookAlikes).map (fun r => decide (r.list.map Suggestion.appearance).Nodup) =
      some false := by decide +kernel
  rw [hcreate, Option.map_some] at htwice
  exact ⟨r, hcreate, of_decide_eq_false (Option.some.inj htwice)⟩

/-- The integer `15` in place of what was typed, and a digit to go on with. -/
def digits (tooltip : Option String) : List Suggestion :=
  [.ofInteger ⟨0, 1, by omega⟩ 15 none, .ofText (.point 1) "5" tooltip]

/-- After `1`, the digit `5` spells out the integer once it is widened, unless its tooltip tells them apart. -/
theorem nodup_appearances_iff_digits :
    (∀ tooltip, ∀ s ∈ digits tooltip, s.Genuine) ∧
      (∃ r, create? "1" (digits none) = some r ∧ r.texts = ["15", "15"] ∧
        ¬ (r.list.map Suggestion.appearance).Nodup) ∧
      ∃ r, create? "1" (digits (some "more")) = some r ∧ r.texts = ["15", "15"] ∧
        (r.list.map Suggestion.appearance).Nodup := by
  have hgenuine : ∀ tooltip, ∀ s ∈ digits tooltip, s.Genuine := fun tooltip =>
    List.forall_mem_cons.2 ⟨Suggestion.genuine_ofInteger _ 15 none,
      List.forall_mem_singleton.2 (Suggestion.genuine_ofText _ "5" tooltip)⟩
  refine ⟨hgenuine, ?_, ?_⟩
  · obtain ⟨r, hcreate, htexts⟩ : ∃ r, create? "1" (digits none) = some r ∧ r.texts = ["15", "15"] :=
      Option.map_eq_some_iff.1 (by decide +kernel)
    refine ⟨r, hcreate, htexts, fun hnodup => ?_⟩
    have hnone := ((nodup_appearances_iff "1" _ (hgenuine none)).1 r hcreate).2.1 hnodup
    exact hnone (.ofInteger ⟨0, 1, by omega⟩ 15 none) (by decide +kernel) (.ofText ⟨0, 1, by omega⟩ "15" none)
      (by decide +kernel) ⟨_, 15, none, by decide +kernel, rfl⟩
  · obtain ⟨r, hcreate, htexts⟩ : ∃ r, create? "1" (digits (some "more")) = some r ∧ r.texts = ["15", "15"] :=
      Option.map_eq_some_iff.1 (by decide +kernel)
    refine ⟨r, hcreate, htexts, ((nodup_appearances_iff "1" _ (hgenuine _)).1 r hcreate).2.2 ?_⟩
    have hapart : ∀ integer ∈ digits (some "more"), ∀ text ∈ widened "1" (digits (some "more")),
        text.appearance = integer.appearance → text = integer := by decide +kernel
    exact fun integer hinteger text htext hmimics =>
      hmimics.ne (hapart integer hinteger text htext hmimics.appearance_eq)

end Suggestions
end CommandEngine
