import CommandEngine.Proofs.Completion.Offer
import CommandEngine.Proofs.Suggestion.Outcome

/-!
# Completing keywords

Where completion asks keywords only, its result is known in full (`CommandTree.completeAt_literals`): the keywords
that begin with what has been typed, without regard to case, and that are not just what has been typed.  They are
sorted by their lowercase form, those with the same one stand in the order in which they were added, and all of
them replace what has been typed.

Every keyword answers for itself (`Suggestions.ofKeyword`), so the answers of all children hold the keywords that
complete what has been typed, in the order of the children (`CommandTree.suggestBelow_of_literals`).  Merging them
comes down to the normal form of texts that share a span (`Suggestions.Lists`).
-/

namespace CommandEngine

variable {σ : Type}

/-! ## Keywords that complete a text -/

/-- A keyword begins with what has been typed, without regard to case, and is not just that. -/
def Text.Completes (typed keyword : String) : Prop :=
  (lowercase typed).toList <+: (lowercase keyword).toList ∧ keyword ≠ typed

instance (typed keyword : String) : Decidable (Text.Completes typed keyword) :=
  inferInstanceAs (Decidable (_ ∧ _))

lemma Collector.completes_iff (c : Collector) (keyword : String) :
    c.isPrefixed keyword = true ∧ keyword ≠ c.remaining ↔ Text.Completes c.remaining keyword := by
  have hlower : Text.lowerChars keyword.toList = (Text.lowercase keyword).toList := String.toList_ofList.symm
  rw [isPrefixed, List.isPrefixOf_iff_prefix, lowerRemaining, hlower]
  rfl

/-- A collector for a text that is cut at its start. -/
lemma Collector.remaining_new (lead typed : List Char) :
    (new (String.ofList (lead ++ typed)) (Text.width lead)).remaining = String.ofList typed := by
  unfold remaining Suggestion.beyond
  simp only [new, withLower, String.toList_ofList, Text.splitAt?_append, Option.map_some, Option.getD_some]

lemma Collector.span_new {lead typed : List Char} {span : Span} (hstart : span.start = Text.width lead)
    (hstop : span.stop = Text.width (lead ++ typed)) :
    (new (String.ofList (lead ++ typed)) (Text.width lead)).span = .ok span := by
  obtain ⟨start, stop, hordered⟩ := span
  obtain rfl : start = Text.width lead := hstart
  obtain rfl : stop = Text.width (lead ++ typed) := hstop
  simp only [Collector.span, new, withLower, String.toList_ofList]
  exact dif_pos hordered

namespace Suggestions

/-- What a keyword answers: itself, if it completes what has been typed. -/
def ofKeyword (typed : String) (span : Span) (keyword : String) : Suggestions :=
  if Text.Completes typed keyword then ⟨span, [.ofText span keyword none]⟩ else .empty

lemma ofTexts_ofKeyword (command typed : String) (span : Span) (keyword : String) :
    OfTexts command (ofKeyword typed span keyword) := by
  unfold ofKeyword
  split
  · exact ⟨[.ofText span keyword none], fun s hs => List.mem_singleton.1 hs ▸ rfl, create?_singleton _ _⟩
  · exact ⟨[], fun s hs => absurd hs List.not_mem_nil, rfl⟩

/-- All answers together. -/
lemma flatMap_ofKeyword (typed : String) (span : Span) (keywords : List String) :
    (keywords.map (ofKeyword typed span)).flatMap list =
      (keywords.filter (Text.Completes typed ·)).map (Suggestion.ofText span · none) := by
  induction keywords with
  | nil => rfl
  | cons keyword rest ih =>
    rw [List.map_cons, List.flatMap_cons, ih, ofKeyword]
    by_cases h : Text.Completes typed keyword
    · rw [if_pos h, List.filter_cons, if_pos (decide_eq_true h), List.map_cons]
      rfl
    · rw [if_neg h, List.filter_cons, if_neg (by simpa using h)]
      rfl

end Suggestions

/-! ## Texts that share a span -/

section Positions

variable {α : Type} [DecidableEq α] {l : List α}

/-- Without repetitions, members stand in the order of their first occurrence. -/
lemma pairwise_idxOf (h : l.Nodup) : l.Pairwise fun a b => l.idxOf a < l.idxOf b := by
  induction l with
  | nil => exact List.Pairwise.nil
  | cons x rest ih =>
    obtain ⟨hx, hrest⟩ := List.nodup_cons.1 h
    have hne : ∀ b ∈ rest, b ≠ x := fun b hb heq => hx (heq ▸ hb)
    refine List.pairwise_cons.2 ⟨fun b hb => ?_, (ih hrest).imp_of_mem fun _ hb hlt => ?_⟩
    · exact (idxOf_cons_lt x rest).2 ⟨hne b hb, .inl rfl⟩
    · exact (idxOf_cons_lt x rest).2 ⟨hne _ hb, .inr hlt⟩

lemma idxOf_map {β : Type} [DecidableEq β] {f : α → β} (hf : Function.Injective f) (a : α) (l : List α) :
    (l.map f).idxOf (f a) = l.idxOf a := by
  induction l with
  | nil => rfl
  | cons x rest ih =>
    by_cases hx : x = a
    · rw [hx, List.map_cons, List.idxOf_cons_self, List.idxOf_cons_self]
    · rw [List.map_cons, List.idxOf_cons_ne _ fun heq => hx (hf heq), List.idxOf_cons_ne _ hx, ih]

end Positions

namespace Suggestions

variable {command : String} {span : Span} {keywords : List String} {r : Suggestions}

/-- The result lists keywords for a span: each of them once and sorted by their lowercase forms, where those with
the same one keep their order. -/
structure Lists (r : Suggestions) (span : Span) (keywords : List String) : Prop where
  span_eq : r.texts ≠ [] → r.span = span
  each : ∀ s ∈ r.list, s = .ofText span s.text none
  mem : ∀ keyword, keyword ∈ r.texts ↔ keyword ∈ keywords
  nodup : r.texts.Nodup
  sorted : r.texts.Pairwise fun first second => Text.lowercase first < Text.lowercase second ∨
    Text.lowercase first = Text.lowercase second ∧ keywords.idxOf first < keywords.idxOf second

/-- Texts that share a span are not widened. -/
lemma widened_ofText (command : String) (span : Span) (keywords : List String) :
    widened command (keywords.map (Suggestion.ofText span · none)) = keywords.map (Suggestion.ofText span · none) := by
  refine (List.map_congr_left fun s hs => ?_).trans (List.map_id _)
  refine Suggestion.expand_of_span_eq (Span.unionAll_of_forall_eq (fun hnil => ?_) fun span' hspan => ?_).symm
  · rw [List.map_eq_nil_iff.1 hnil] at hs
    exact absurd hs List.not_mem_nil
  · obtain ⟨s', hs', rfl⟩ := List.mem_map.1 hspan
    obtain ⟨keyword, -, rfl⟩ := List.mem_map.1 hs
    obtain ⟨keyword', -, rfl⟩ := List.mem_map.1 hs'
    rfl

/-- The normal form of keywords that share a span. -/
theorem lists_of_create? (h : create? command (keywords.map (Suggestion.ofText span · none)) = some r) :
    r.Lists span keywords := by
  have htexts : ∀ s ∈ keywords.map (Suggestion.ofText span · none), s.kind = .text := by
    intro s hs
    obtain ⟨keyword, -, rfl⟩ := List.mem_map.1 hs
    rfl
  have hnormal := normalFormOf_of_create? htexts h
  have hmem : ∀ s, s ∈ r.list ↔ ∃ keyword ∈ keywords, .ofText span keyword none = s := by
    intro s
    rw [hnormal.mem, widened_ofText, List.mem_map]
  have heach : ∀ s ∈ r.list, s = .ofText span s.text none := by
    intro s hs
    obtain ⟨keyword, -, rfl⟩ := (hmem s).1 hs
    rfl
  refine ⟨fun hne => ?_, heach, fun keyword => ?_, ?_, ?_⟩
  · obtain ⟨keyword, hkeyword⟩ := List.exists_mem_of_ne_nil _ hne
    obtain ⟨s, hs, -⟩ := List.mem_map.1 hkeyword
    exact (span_of_mem_list h hs).symm.trans (congrArg Suggestion.span (heach s hs))
  · rw [texts, List.mem_map]
    constructor
    · rintro ⟨s, hs, rfl⟩
      obtain ⟨keyword, hkeyword, rfl⟩ := (hmem s).1 hs
      exact hkeyword
    · exact fun hkeyword => ⟨_, (hmem _).2 ⟨keyword, hkeyword, rfl⟩, rfl⟩
  · refine hnormal.nodup.map_on fun s hs s' hs' htext => ?_
    rw [heach s hs, heach s' hs', htext]
  · refine List.pairwise_map.2 ((hnormal.ascending.and (pairwise_idxOf hnormal.nodup)).imp_of_mem ?_)
    rintro s s' hs hs' ⟨hkeys, hposition⟩
    rcases hkeys.lt_or_eq with hlt | heq
    · exact .inl hlt
    · have hinjective : Function.Injective (Suggestion.ofText span · none) := fun _ _ h => (Suggestion.mk.inj h).2.1
      rw [hnormal.ties s hs s' hs' heq, widened_ofText, heach s hs, heach s' hs', idxOf_map hinjective,
        idxOf_map hinjective] at hposition
      exact .inr ⟨heq, hposition⟩

end Suggestions

/-! ## Asking the children -/

/-- The keyword of a node, unless it is an argument or the root. -/
def Node.keyword? (n : Node σ) : Option String :=
  match n.pattern with
  | some (.literal keyword) => some keyword
  | _ => none

namespace CommandTree

variable {t : CommandTree σ} {parent c : NodeId} {context : Context σ} {collector : Collector} {span : Span}

/-- The keywords of the children of a node, in the order in which these were added. -/
def keywords (t : CommandTree σ) (parent : NodeId) : List String :=
  (t.children parent).filterMap fun c => (t.node c).keyword?

/-- What is asked of a keyword is answered. -/
lemma suggest_of_isLiteral (hliteral : (t.node c).isLiteral = true) (context : Context σ)
    (hgathered : collector.gathered = []) (hspan : collector.span = .ok span) :
    ∃ keyword, (t.node c).keyword? = some keyword ∧
      t.suggest c context collector = .ok (.ofKeyword collector.remaining span keyword) := by
  obtain ⟨keyword, hpattern⟩ := Node.isLiteral_iff.1 hliteral
  refine ⟨keyword, by rw [Node.keyword?, hpattern], ?_⟩
  rw [suggest_of_keyword hpattern, Provider.matching_singleton context hgathered hspan]
  exact congrArg Except.ok (if_congr (collector.completes_iff keyword) rfl rfl)

/-- Children that are all keywords answer one by one. -/
lemma suggestBelow_of_literals (hliterals : ∀ c ∈ t.children parent, (t.node c).isLiteral = true)
    (context : Context σ) (hgathered : collector.gathered = []) (hspan : collector.span = .ok span) :
    t.suggestBelow parent context collector =
      .ok ((t.keywords parent).map (.ofKeyword collector.remaining span)) := by
  unfold suggestBelow keywords
  generalize t.children parent = children at hliterals
  induction children with
  | nil => rfl
  | cons c rest ih =>
    obtain ⟨keyword, hkeyword, hsuggest⟩ :=
      suggest_of_isLiteral (hliterals c (List.mem_cons_self ..)) context hgathered hspan
    rw [List.mapM_cons, hsuggest, ih fun c hc => hliterals c (List.mem_cons_of_mem _ hc), List.filterMap_cons, hkeyword]
    rfl

/-- Where only keywords can come next, a completion is the normal form of those that complete what has been typed. -/
lemma completeAt_eq_create? {r : ParseResult σ} {offset : Nat} {a : Anchor} {lead typed after : List Char}
    (hcut : Text.splitAt? r.reader.chars offset = some (lead ++ typed, after))
    (hanchor : r.trail.anchor? offset = some a) (hlead : a.start = Text.width lead)
    (hliterals : ∀ c ∈ t.children a.parent, (t.node c).isLiteral = true) (hstart : span.start = a.start)
    (hstop : span.stop = offset) :
    ∃ completion, t.completeAt r offset = .ok completion ∧
      Suggestions.create? r.reader.input (((t.keywords a.parent).filter
        (Text.Completes (String.ofList typed) ·)).map (Suggestion.ofText span · none)) = some completion := by
  have hwidth := Text.width_of_splitAt? hcut
  have hpast : a.start ≤ offset := by
    rw [← hstart, ← hstop]
    exact span.ordered
  have hspan := Collector.span_new (hstart.trans hlead) (hstop.trans hwidth.symm)
  have hbelow := suggestBelow_of_literals hliterals (r.trail.context (String.ofList (lead ++ typed))) rfl hspan
  rw [Collector.remaining_new] at hbelow
  set answers := (t.keywords a.parent).map (Suggestions.ofKeyword (String.ofList typed) span) with hanswers
  have htexts : ∀ answer ∈ answers, Suggestions.OfTexts r.reader.input answer := by
    intro answer hanswer
    obtain ⟨keyword, -, rfl⟩ := List.mem_map.1 hanswer
    exact Suggestions.ofTexts_ofKeyword ..
  have hmerge := Suggestions.merge?_eq_create? htexts
  rw [hanswers, Suggestions.flatMap_ofKeyword, ← hanswers] at hmerge
  obtain ⟨completion, hcreate⟩ : ∃ completion, Suggestions.create? r.reader.input (((t.keywords a.parent).filter
      (Text.Completes (String.ofList typed) ·)).map (Suggestion.ofText span · none)) = some completion := by
    refine ⟨_, Suggestions.create?_of_texts _ fun s hs => ?_⟩
    obtain ⟨keyword, -, rfl⟩ := List.mem_map.1 hs
    rfl
  refine ⟨completion, ?_, hcreate⟩
  simp only [completeAt, hanchor, hcut, Nat.min_eq_left hpast]
  rw [hlead, hbelow]
  simp only [Except.bind, hmerge, hcreate, Suggestions.orDisordered]

/-- Completion where only keywords can come next.  What has been typed since the anchor is completed to the keywords
that go on from it, each of them once and in order; they replace what has been typed, and nothing before or
after it. -/
theorem completeAt_literals (ht : t.Reachable) (r : Reader) (source : σ) {offset : Nat} {before after : List Char}
    {a : Anchor} (hcut : Text.splitAt? r.chars offset = some (before, after))
    (hanchor : (t.parseReader r source).trail.anchor? offset = some a)
    (hliterals : ∀ c ∈ t.children a.parent, (t.node c).isLiteral = true) :
    ∃ lead typed span completion, before = lead ++ typed.toList ∧ Text.width lead = a.start ∧
      span.start = a.start ∧ span.stop = offset ∧
      t.completeAt (t.parseReader r source) offset = .ok completion ∧
      completion.Lists span ((t.keywords a.parent).filter (Text.Completes typed ·)) ∧
      ∀ s ∈ completion.list, s.applied? r.input = some (String.ofList (lead ++ s.text.toList ++ after)) := by
  have hchars := (legal_parseReader ht.wellShaped r source).2.chars_eq
  have hat := anchorsAt_of_anchor? ht.wellShaped r source (Reader.le_totalWidth_of_splitAt? hcut) hanchor
  have hwhole := Text.append_of_splitAt? hcut
  have hwidth := Text.width_of_splitAt? hcut
  -- what lies before the offset is cut once more, at the anchor
  obtain ⟨⟨lead, rest⟩, hlead⟩ := Option.isSome_iff_exists.1 hat.boundary
  have hstart := Text.width_of_splitAt? hlead
  obtain ⟨typed, rfl⟩ : ∃ typed, before = lead ++ typed := by
    refine Text.exists_append_of_width_le ((Text.append_of_splitAt? hlead).trans hwhole.symm) ?_
    rw [hstart, hwidth]
    exact hat.not_past
  let span : Span := ⟨a.start, offset, hat.not_past⟩
  obtain ⟨completion, hcompletion, hcreate⟩ := completeAt_eq_create? (hchars ▸ hcut) hanchor hstart.symm hliterals
    (show span.start = a.start from rfl) (show span.stop = offset from rfl)
  have hlists := Suggestions.lists_of_create? hcreate
  refine ⟨lead, String.ofList typed, span, completion, by rw [String.toList_ofList], hstart, rfl, rfl, hcompletion,
    hlists, fun s hs => ?_⟩
  have hparts : s.span.Parts r.input.toList lead typed after := by
    rw [hlists.each s hs]
    refine ⟨?_, hstart.symm, hwidth.symm⟩
    rw [Reader.input, String.toList_ofList, ← hwhole, List.append_assoc]
  exact Suggestion.applied?_of_parts hparts

/-- Keywords that differ in case only, one that stands before them in order and one that is something else. -/
def toolbox : CommandTree Unit :=
  ⟨#[{ Node.root with children := [("Say", 1), ("say", 2), ("save", 3), ("stop", 4)] },
    ⟨some (.literal "Say"), [], none, none, none⟩,
    ⟨some (.literal "say"), [], none, none, none⟩,
    ⟨some (.literal "save"), [], none, none, none⟩,
    ⟨some (.literal "stop"), [], none, none, none⟩]⟩

lemma toolbox_reachable : toolbox.Reachable := by
  have hupper := Reachable.register (s := (.ofPattern (.literal "Say") : NodeSpec Unit)) .empty rfl
  have hlower := hupper.register (s := .ofPattern (.literal "say")) rfl
  have hsave := hlower.register (s := .ofPattern (.literal "save")) rfl
  exact hsave.register (s := .ofPattern (.literal "stop")) rfl

/-- Within the first word of `say it`, its first letters are completed, and what follows them is kept. -/
theorem completeAt_literals_toolbox :
    toolbox.Reachable ∧ (toolbox.parseReader (.ofString "say it") ()).trail.anchor? 2 = some ⟨rootId, 0⟩ ∧
      (∀ c ∈ toolbox.children rootId, (toolbox.node c).isLiteral = true) ∧
      ∃ span completion, span.start = 0 ∧ span.stop = 2 ∧
        toolbox.completeAt (toolbox.parseReader (.ofString "say it") ()) 2 = .ok completion ∧
        completion.Lists span ["Say", "say", "save"] ∧ completion.texts = ["save", "Say", "say"] ∧
        ∀ s ∈ completion.list, s.applied? "say it" = some (String.ofList (s.text.toList ++ "y it".toList)) := by
  have hcut : Text.splitAt? (Reader.ofString "say it").chars 2 = some ("sa".toList, "y it".toList) := by decide +kernel
  have hanchor : (toolbox.parseReader (.ofString "say it") ()).trail.anchor? 2 = some ⟨rootId, 0⟩ := by
    decide +kernel
  have hliterals : ∀ c ∈ toolbox.children rootId, (toolbox.node c).isLiteral = true := by decide
  obtain ⟨lead, typed, span, completion, hbefore, hlead, hstart, hstop, hcompletion, hlists, happlied⟩ :=
    completeAt_literals toolbox_reachable (.ofString "say it") () hcut hanchor hliterals
  obtain rfl : lead = [] := Text.eq_nil_of_width hlead
  obtain rfl : "sa" = typed := String.toList_injective hbefore
  have htexts : (toolbox.completeAt (toolbox.parseReader (.ofString "say it") ()) 2).map Suggestions.texts =
      .ok ["save", "Say", "say"] := by decide +kernel
  rw [hcompletion] at htexts
  have hoffered : (toolbox.keywords rootId).filter (Text.Completes "sa" ·) = ["Say", "say", "save"] := by
    decide +kernel
  rw [hoffered] at hlists
  exact ⟨toolbox_reachable, hanchor, hliterals, span, completion, hstart, hstop, hcompletion, hlists,
    Except.ok.inj htexts, happlied⟩

end CommandTree
end CommandEngine
