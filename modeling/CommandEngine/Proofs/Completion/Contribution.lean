import CommandEngine.Proofs.Completion.Anchor
import CommandEngine.Proofs.Sorting

/-!
# Who contributes to a completion

A completion is made of what the children of one node offer, and of nothing else: merging widens the spans of
suggestions, drops repetitions and sorts, but neither adds nor loses one (`Suggestions.mem_merge?`).

Every child is asked, and whether the source may use it is not looked at.  A requirement keeps a source from
reading on below a node, so the node whose children are asked stands behind nodes that the source may use; the
children themselves are offered to everybody (`CommandTree.not_respectsRequirements`).  What completion does
with requirements is said by `CommandTree.completeAt_parse`.
-/

namespace CommandEngine

variable {σ : Type}

/-! ## Merging -/

lemma Suggestion.mem_distinct {s : Suggestion} {l : List Suggestion} : s ∈ distinct l ↔ s ∈ l := by
  induction l with
  | nil => rfl
  | cons first rest ih =>
    rw [distinct, List.mem_cons, List.mem_cons, List.mem_filter, ih, decide_eq_true_eq]
    constructor
    · rintro (heq | ⟨hrest, -⟩)
      · exact .inl heq
      · exact .inr hrest
    · rintro (heq | hrest)
      · exact .inl heq
      · by_cases heq : s = first
        · exact .inl heq
        · exact .inr ⟨hrest, heq⟩

lemma Suggestion.perm_sort? {l l' : List Suggestion} (h : sort? l = some l') : l'.Perm l := by
  unfold sort? at h
  split at h
  · obtain rfl := Option.some.inj h
    exact Sorting.perm_insertionSort less l
  · exact Sorting.perm_sort? h

namespace Suggestions

/-- A normal form has the members of the list, each for the span that covers them all. -/
lemma mem_create? {command : String} {l : List Suggestion} {created : Suggestions}
    (h : create? command l = some created) (s : Suggestion) :
    s ∈ created.list ↔ ∃ s₀ ∈ l, s = s₀.expand command created.span := by
  unfold create? at h
  split at h
  · obtain rfl := Option.some.inj h
    simp [empty]
  · obtain ⟨sorted, hsorted, rfl⟩ := Option.map_eq_some_iff.1 h
    show s ∈ sorted ↔ _
    rw [(Suggestion.perm_sort? hsorted).mem_iff, Suggestion.mem_distinct, List.mem_map]
    simp only [eq_comm]

/-- A suggestion of one of several results as it stands in their merged result: a single result is kept as it is,
and the suggestions of several are widened to the common span. -/
def adapted (command : String) (results : Nat) (merged : Suggestions) (s : Suggestion) : Suggestion :=
  if results = 1 then s else s.expand command merged.span

/-- A merged result has the members of all results. -/
theorem mem_merge? {command : String} {results : List Suggestions} {merged : Suggestions}
    (h : merge? command results = some merged) (s : Suggestion) :
    s ∈ merged.list ↔ ∃ s₀ ∈ results.flatMap Suggestions.list,
      s = merged.adapted command results.length s₀ := by
  cases results with
  | nil =>
    obtain rfl : empty = merged := Option.some.inj h
    simp [empty]
  | cons first rest =>
    cases rest with
    | nil =>
      obtain rfl : first = merged := Option.some.inj h
      simp [adapted]
    | cons second rest =>
      have hseveral : (first :: second :: rest).length ≠ 1 := by simp
      simp only [adapted, if_neg hseveral]
      exact mem_create? h s

end Suggestions

lemma Span.covers_foldl {span first : Span} {l : List Span} (h : span ∈ first :: l) :
    (l.foldl union first).start ≤ span.start ∧ span.stop ≤ (l.foldl union first).stop := by
  induction l generalizing first span with
  | nil =>
    rw [List.mem_singleton.1 h]
    exact ⟨Nat.le_refl _, Nat.le_refl _⟩
  | cons next rest ih =>
    rw [List.foldl_cons]
    rcases List.mem_cons.1 h with rfl | h
    · have hunion : _ ≤ (span.union next).start ∧ _ := ih (List.mem_cons_self ..)
      exact ⟨hunion.1.trans (Nat.min_le_left _ _), (Nat.le_max_left _ _).trans hunion.2⟩
    · rcases List.mem_cons.1 h with rfl | h
      · have hunion : _ ≤ (first.union span).start ∧ _ := ih (List.mem_cons_self ..)
        exact ⟨hunion.1.trans (Nat.min_le_right _ _), (Nat.le_max_right _ _).trans hunion.2⟩
      · exact ih (List.mem_cons_of_mem _ h)

/-- The span of several merged results covers the spans of all their suggestions. -/
lemma Suggestions.covers_merge? {command : String} {results : List Suggestions} {merged : Suggestions}
    (h : merge? command results = some merged) (hseveral : results.length ≠ 1) {s : Suggestion}
    (hs : s ∈ results.flatMap Suggestions.list) :
    merged.span.start ≤ s.span.start ∧ s.span.stop ≤ merged.span.stop := by
  have hcreate : create? command (results.flatMap Suggestions.list) = some merged := by
    match results, hseveral, h with
    | [], _, h => exact h
    | [_], hseveral, _ => exact absurd rfl hseveral
    | _ :: _ :: _, _, h => exact h
  cases hlist : results.flatMap Suggestions.list with
  | nil =>
    rw [hlist] at hs
    cases hs
  | cons first rest =>
    rw [hlist] at hs hcreate
    obtain ⟨sorted, -, rfl⟩ := Option.map_eq_some_iff.1 hcreate
    have hmem : s.span ∈ first.span :: rest.map Suggestion.span := by
      rw [← List.map_cons]
      exact List.mem_map_of_mem hs
    exact Span.covers_foldl hmem

/-! ## Asking the children -/

namespace CommandTree

variable {t t' : CommandTree σ} {context : Context σ} {c : Collector}

/-- The suggestions that a node offers, none if its provider refuses. -/
def offers (t : CommandTree σ) (id : NodeId) (context : Context σ) (c : Collector) : List Suggestion :=
  match t.suggest id context c with
  | .ok offered => offered.list
  | .error _ => []

lemma list_contribution {id : NodeId} {offered : Suggestions}
    (h : Provider.contribution (t.suggest id context c) = .ok offered) :
    offered.list = t.offers id context c := by
  unfold offers
  cases hanswer : t.suggest id context c with
  | ok answer =>
    rw [hanswer] at h
    rw [← Except.ok.inj h]
  | error failure =>
    rw [hanswer] at h
    cases failure with
    | refused error =>
      rw [← Except.ok.inj h]
      rfl
    | faulty fault => cases h

/-- The results of the children are what they offer, in order. -/
lemma lists_suggestBelow {parent : NodeId} {results : List Suggestions}
    (h : t.suggestBelow parent context c = .ok results) :
    results.map Suggestions.list = (t.children parent).map fun child => t.offers child context c := by
  unfold suggestBelow at h
  generalize t.children parent = children at h ⊢
  induction children generalizing results with
  | nil =>
    obtain rfl : [] = results := Except.ok.inj h
    rfl
  | cons child rest ih =>
    rw [List.mapM_cons] at h
    cases hfirst : Provider.contribution (t.suggest child context c) with
    | error fault =>
      rw [hfirst] at h
      cases h
    | ok offered =>
      cases hrest : rest.mapM fun child => Provider.contribution (t.suggest child context c) with
      | error fault =>
        rw [hfirst, hrest] at h
        cases h
      | ok others =>
        rw [hfirst, hrest] at h
        obtain rfl : offered :: others = results := Except.ok.inj h
        rw [List.map_cons, List.map_cons, list_contribution hfirst, ih hrest]

/-- A completion is merged from what the children of its anchor offer. -/
lemma exists_merge?_of_completeAt {r : ParseResult σ} {offset : Nat} {a : Anchor} {before after : List Char}
    {completion : Suggestions} (hanchor : r.trail.anchor? offset = some a)
    (hcut : Text.splitAt? r.reader.chars offset = some (before, after))
    (h : t.completeAt r offset = .ok completion) :
    ∃ results, Suggestions.merge? r.reader.input results = some completion ∧
      results.map Suggestions.list = (t.children a.parent).map fun child =>
        t.offers child (r.trail.context (String.ofList before))
          (.new (String.ofList before) (min a.start offset)) := by
  simp only [completeAt, hanchor, hcut] at h
  cases hbelow : t.suggestBelow a.parent (r.trail.context (String.ofList before))
      (.new (String.ofList before) (min a.start offset)) with
  | error fault =>
    rw [hbelow] at h
    cases h
  | ok results =>
    rw [hbelow] at h
    refine ⟨results, ?_, lists_suggestBelow hbelow⟩
    cases hmerge : Suggestions.merge? r.reader.input results with
    | none => simp [Except.bind, hmerge, Suggestions.orDisordered] at h
    | some merged => simpa [Except.bind, hmerge, Suggestions.orDisordered] using h

/-- A completion has what the children of its anchor offer, adapted to the whole of it. -/
theorem mem_completeAt {r : ParseResult σ} {offset : Nat} {a : Anchor} {before after : List Char}
    {completion : Suggestions} (hanchor : r.trail.anchor? offset = some a)
    (hcut : Text.splitAt? r.reader.chars offset = some (before, after))
    (h : t.completeAt r offset = .ok completion) (s : Suggestion) :
    s ∈ completion.list ↔ ∃ child ∈ t.children a.parent,
      ∃ s₀ ∈ t.offers child (r.trail.context (String.ofList before))
        (.new (String.ofList before) (min a.start offset)),
        s = completion.adapted r.reader.input (t.children a.parent).length s₀ := by
  obtain ⟨results, hmerge, hlists⟩ := exists_merge?_of_completeAt hanchor hcut h
  have hlength : results.length = (t.children a.parent).length := by
    simpa using congrArg List.length hlists
  rw [Suggestions.mem_merge? hmerge, hlength, List.flatMap_def, hlists]
  simp only [List.mem_flatten, List.mem_map]
  constructor
  · rintro ⟨s₀, ⟨_, ⟨child, hchild, rfl⟩, hs₀⟩, rfl⟩
    exact ⟨child, hchild, s₀, hs₀, rfl⟩
  · rintro ⟨child, hchild, s₀, hs₀, rfl⟩
    exact ⟨s₀, ⟨_, ⟨child, hchild, rfl⟩, hs₀⟩, rfl⟩

/-- What one of several children offers is covered by the span of the completion. -/
lemma covers_completeAt {r : ParseResult σ} {offset : Nat} {a : Anchor} {before after : List Char}
    {completion : Suggestions} (hanchor : r.trail.anchor? offset = some a)
    (hcut : Text.splitAt? r.reader.chars offset = some (before, after))
    (h : t.completeAt r offset = .ok completion) (hseveral : (t.children a.parent).length ≠ 1) {c : NodeId}
    (hc : c ∈ t.children a.parent) {s : Suggestion}
    (hs : s ∈ t.offers c (r.trail.context (String.ofList before))
      (.new (String.ofList before) (min a.start offset))) :
    completion.span.start ≤ s.span.start ∧ s.span.stop ≤ completion.span.stop := by
  obtain ⟨results, hmerge, hlists⟩ := exists_merge?_of_completeAt hanchor hcut h
  have hlength : results.length = (t.children a.parent).length := by
    simpa using congrArg List.length hlists
  refine Suggestions.covers_merge? hmerge (hlength ▸ hseveral) ?_
  rw [List.flatMap_def, hlists]
  exact List.mem_flatten.2 ⟨_, List.mem_map.2 ⟨c, hc, rfl⟩, hs⟩

/-- Completion looks at the children and the patterns of nodes, and at nothing else of the tree. -/
lemma SameShape.completeAt (h : SameShape t t') (r : ParseResult σ) (offset : Nat) :
    t'.completeAt r offset = t.completeAt r offset := by
  have hsuggest : ∀ id, t'.suggest id = t.suggest id := fun id => by rw [suggest, suggest, h.pattern]
  have hbelow : ∀ parent context c, t'.suggestBelow parent context c = t.suggestBelow parent context c := by
    intro parent context c
    simp only [suggestBelow, CommandTree.children, h.children, hsuggest]
  simp only [CommandTree.completeAt, hbelow]

/-- What a child offers at the end of an input is in the completion there and, unless the child is the only one,
covered by the span of the completion. -/
lemma mem_complete_of_offers (ht : t.WellShaped) {input : String} {source : σ} {a : Anchor} {completion : Suggestions}
    (hanchor : (t.parse input source).trail.anchor? (Text.width input.toList) = some a)
    (h : t.complete (t.parse input source) = .ok completion) {c : NodeId} (hc : c ∈ t.children a.parent)
    {s : Suggestion} (hs : s ∈ t.offers c ((t.parse input source).trail.context input)
      (.new input (min a.start (Text.width input.toList)))) :
    completion.adapted input (t.children a.parent).length s ∈ completion.list ∧
      ((t.children a.parent).length ≠ 1 →
        completion.span.start ≤ s.span.start ∧ s.span.stop ≤ completion.span.stop) := by
  have hcut : Text.splitAt? (t.parse input source).reader.chars (Text.width input.toList) =
      some (input.toList, []) := by
    have hend := Text.splitAt?_append input.toList []
    rw [List.append_nil] at hend
    rw [chars_parse ht, hend]
  rw [complete, Reader.totalWidth_eq, chars_parse ht] at h
  have hoffer : s ∈ t.offers c ((t.parse input source).trail.context (String.ofList input.toList))
      (.new (String.ofList input.toList) (min a.start (Text.width input.toList))) := by
    rw [String.ofList_toList]
    exact hs
  have hmem := (mem_completeAt hanchor hcut h _).2 ⟨c, hc, s, hoffer, rfl⟩
  rw [input_parse ht] at hmem
  exact ⟨hmem, fun hseveral => covers_completeAt hanchor hcut h hseveral hc hoffer⟩

/-! ## Requirements -/

/-- Every node that a reading has matched may be used by the source that it is made for. -/
lemma canUse_of_mem_matched (ht : t.WellShaped) (r : Reader) (source : σ) {m : MatchedNode}
    (hm : m ∈ (t.parseReader r source).trail.matched) : (t.node m.node).canUse source = true := by
  obtain ⟨hop, hhop, hm⟩ := List.mem_flatMap.1 hm
  exact (((legal_parseReader ht r source).1.hops hop hhop).fits m hm).usable

/-- What a completion offers comes from children that the source may use. -/
def RespectsRequirements (t : CommandTree σ) (input : String) (source : σ) (offset : Nat) : Prop :=
  ∀ completion a before after, t.completeAt (t.parse input source) offset = .ok completion →
    (t.parse input source).trail.anchor? offset = some a →
    Text.splitAt? input.toList offset = some (before, after) →
    ∀ child ∈ t.children a.parent, (t.node child).canUse source = false →
      ∀ s₀ ∈ t.offers child ((t.parse input source).trail.context (String.ofList before))
        (.new (String.ofList before) (min a.start offset)),
        completion.adapted input (t.children a.parent).length s₀ ∉ completion.list

/-- A completion has exactly what the children of one node offer, whatever the requirements of these children.
Requirements matter for that node only: it is the root, or behind it, a matched node or the target of one, and the
source may use all nodes that were matched.  From the same reading, a tree that differs in requirements alone has
the same completion. -/
theorem completeAt_parse (ht : t.Reachable) (input : String) (source : σ) (offset : Nat)
    {completion : Suggestions} (h : t.completeAt (t.parse input source) offset = .ok completion) :
    (∀ m ∈ (t.parse input source).trail.matched, (t.node m.node).canUse source = true) ∧
      (Text.splitAt? input.toList offset = none → completion = .empty) ∧
      (∀ before after, Text.splitAt? input.toList offset = some (before, after) →
        ∃ a, (t.parse input source).trail.anchor? offset = some a ∧
          (a.parent = rootId ∨ ∃ m ∈ (t.parse input source).trail.matched,
            a.parent = (t.node m.node).target?.getD m.node) ∧
          ∀ s, s ∈ completion.list ↔ ∃ child ∈ t.children a.parent,
            ∃ s₀ ∈ t.offers child ((t.parse input source).trail.context (String.ofList before))
              (.new (String.ofList before) (min a.start offset)),
              s = completion.adapted input (t.children a.parent).length s₀) ∧
      ∀ t', SameShape t t' → t'.completeAt (t.parse input source) offset = .ok completion := by
  have hchars := chars_parse ht.wellShaped input source
  refine ⟨fun m hm => canUse_of_mem_matched ht.wellShaped _ source hm, fun hcut => ?_,
    fun before after hcut => ?_, fun t' hshape => (hshape.completeAt _ offset).trans h⟩
  · unfold completeAt at h
    split at h
    · next hsome =>
      rw [hchars, hcut] at hsome
      cases hsome
    · exact (Except.ok.inj h).symm
  · have hoffset : offset ≤ (Reader.ofString input).totalWidth := Reader.le_totalWidth_of_splitAt? hcut
    have hanchor : (t.parse input source).trail.anchor? offset = some (t.lastAnchor _ offset) :=
      (anchor?_parseReader_eq ht.wellShaped (.ofString input) source hoffset).trans (if_neg (Nat.not_lt_zero offset))
    have hat := anchorsAt_of_anchor? ht.wellShaped (.ofString input) source hoffset hanchor
    refine ⟨_, hanchor, ?_, fun s => ?_⟩
    · rcases hat.parent with ⟨-, hroot⟩ | ⟨-, m, hm, -, hparent⟩
      · exact .inl (hroot.trans (legal_parseReader ht.wellShaped (.ofString input) source).1.root_eq)
      · exact .inr ⟨m, hm, hparent⟩
    · have hmem := mem_completeAt hanchor (hchars ▸ hcut) h s
      rwa [input_parse ht.wellShaped] at hmem

/-- A keyword for those who hold a key, and one that leads back to the root. -/
def vault : CommandTree Bool :=
  ⟨#[{ Node.root with children := [("open", 1), ("again", 2)] },
    ⟨some (.literal "open"), [], some fun _ => .ok 1, some fun key => key, none⟩,
    ⟨some (.literal "again"), [], none, none, some ⟨rootId, none, false⟩⟩]⟩

lemma vault_reachable : vault.Reachable := by
  let opening : NodeSpec Bool := { NodeSpec.ofPattern (.literal "open") with
    handler := some fun _ => .ok 1
    requirement := some fun key => key }
  have hopen := Reachable.register (s := opening) .empty rfl
  have hagain := hopen.register (s := .ofPattern (.literal "again")) rfl
  exact .setRedirect (r := ⟨rootId, none, false⟩) hagain (by decide : 2 < 3) rfl

/-- What is completed behind the redirect. -/
def vaultCompletion : Suggestions :=
  ⟨⟨6, 6, Nat.le_refl _⟩, [.ofText (.point 6) "again" none, .ofText (.point 6) "open" none]⟩

lemma completeAt_vault : vault.completeAt (vault.parse "again " false) 6 = .ok vaultCompletion := by
  decide +kernel

/-- Completion offers a keyword to a source that may not use it. -/
theorem not_respectsRequirements : ¬ vault.RespectsRequirements "again " false 6 := by
  intro hrespects
  have hanchor : (vault.parse "again " false).trail.anchor? 6 = some ⟨rootId, 6⟩ := by decide +kernel
  have hcut : Text.splitAt? "again ".toList 6 = some ("again ".toList, []) := by decide +kernel
  have hoffer : .ofText (.point 6) "open" none ∈ vault.offers 1
      ((vault.parse "again " false).trail.context (String.ofList "again ".toList))
      (.new (String.ofList "again ".toList) (min 6 6)) := by
    decide +kernel
  refine hrespects vaultCompletion _ _ _ completeAt_vault hanchor hcut 1 (by decide) rfl _ hoffer ?_
  decide +kernel

/-- Behind the redirect both keywords are offered, whatever is required for them. -/
theorem completeAt_parse_vault :
    vault.Reachable ∧ vault.completeAt (vault.parse "again " false) 6 = .ok vaultCompletion ∧
      (∀ m ∈ (vault.parse "again " false).trail.matched, (vault.node m.node).canUse false = true) ∧
      ∀ t', SameShape vault t' → t'.completeAt (vault.parse "again " false) 6 = .ok vaultCompletion := by
  obtain ⟨husable, -, -, hshape⟩ := completeAt_parse vault_reachable "again " false 6 completeAt_vault
  exact ⟨vault_reachable, completeAt_vault, husable, hshape⟩

end CommandTree
end CommandEngine
