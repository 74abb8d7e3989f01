import CommandEngine.Proofs.Schedule
import CommandEngine.Proofs.Simulation
import CommandEngine.Proofs.Tiling

/-!
# Readings that cannot be told apart

What a handler gets to see of an input are its source and the arguments with their values and texts; the offsets
of tokens, and what was read before the current hop, it does not need.  Two hops of two inputs are *alike* if
they agree in that.  Below one node, inputs with the same text ahead are read alike, wherever that text stands
(`CommandTree.Place.Alike.outcome`), and readings that are alike run alike if handlers and modifiers are *blind* to
the rest (`ParseResult.Alike.execute`).
-/

namespace CommandEngine

variable {σ α β : Type}

/-! ## Hops that are alike -/

/-- Arguments of two inputs with the same name, the same value and the same text. -/
structure ArgumentsAlike (chars chars' : List Char) (a b : String × ParsedArgument) : Prop where
  name : a.1 = b.1
  value : a.2.value = b.2.value
  text : a.2.span.chars chars = b.2.span.chars chars'

/-- Frames of two inputs with the same source and the same arguments, of which both fork or none does. -/
structure Frame.Alike (chars chars' : List Char) (f f' : Frame σ) : Prop where
  source : f.source = f'.source
  arguments : List.Forall₂ (ArgumentsAlike chars chars') f.arguments f'.arguments
  forks : f.forks = f'.forks

structure Hop.Alike (chars chars' : List Char) (h h' : Hop σ) : Prop
    extends h.toFrame.Alike chars chars' h'.toFrame where
  modifier : h.modifier = h'.modifier

/-- Readings of two inputs that have stopped in front of the same text, have the same errors and are alike hop
by hop; the handlers of whole commands are the same. -/
structure ParseResult.Alike (chars chars' : List Char) (w w' : ParseResult σ) : Prop where
  chars_eq : w.reader.chars = chars
  chars_eq' : w'.reader.chars = chars'
  rest : w.reader.rest = w'.reader.rest
  hops : List.Forall₂ (Hop.Alike chars chars') w.trail.hops w'.trail.hops
  handler : w.reader.rest = [] → w.trail.last.handler = w'.trail.last.handler
  failures : List.Forall₂ (fun f f' => f.1 = f'.1 ∧ f.2.reason = f'.2.reason) w.failures w'.failures

lemma ParseResult.Alike.rank {chars chars' : List Char} {w w' : ParseResult σ} (h : w.Alike chars chars' w') :
    w.rank = w'.rank := by
  have hempty : w.failures.isEmpty = w'.failures.isEmpty := by
    have hlength := h.failures.length_eq
    rw [Bool.eq_iff_iff, List.isEmpty_iff_length_eq_zero, List.isEmpty_iff_length_eq_zero, hlength]
  rw [ParseResult.rank, ParseResult.rank, Reader.canRead, Reader.canRead, h.rest, hempty]

namespace CommandTree

/-- Places below the same node with the same text ahead, where the hops so far are alike. -/
structure Place.Alike (chars chars' : List Char) (a b : Place σ) : Prop where
  node : a.node = b.node
  chars_eq : a.reader.chars = chars
  chars_eq' : b.reader.chars = chars'
  rest : a.reader.rest = b.reader.rest
  hop : a.hop.Alike chars chars' b.hop
  handler : a.reader.rest = [] → a.hop.handler = b.hop.handler

variable {t : CommandTree σ} {chars chars' : List Char} {a b : Place σ}

/-! ## Reading on from places that are alike -/

lemma chars_ahead (r : Reader) (n : Nat) : (r.ahead n).chars r.chars = r.rest.take n := by
  rw [Span.chars, Reader.ahead, r.slice?_advance n, Option.getD_some]

lemma putArgument_alike {name : String} {p p' : ParsedArgument}
    (hp : ArgumentsAlike chars chars' (name, p) (name, p')) {l l' : List (String × ParsedArgument)}
    (h : List.Forall₂ (ArgumentsAlike chars chars') l l') :
    List.Forall₂ (ArgumentsAlike chars chars') (Hop.putArgument name p l) (Hop.putArgument name p' l') := by
  induction h with
  | nil => exact .cons hp .nil
  | @cons x y l l' hxy hl ih =>
    obtain ⟨n, q⟩ := x
    obtain ⟨n', q'⟩ := y
    obtain rfl : n = n' := hxy.name
    simp only [Hop.putArgument]
    split
    · next heq =>
      subst heq
      exact .cons hp hl
    · exact .cons hxy ih

/-- How one candidate is matched at two places: it is refused for the same reason, or takes the same number of
characters and leaves related hops. -/
inductive MatchedAlike (R : Hop σ → Hop σ → Prop) :
    Except SyntaxError (Hop σ × Nat) → Except SyntaxError (Hop σ × Nat) → Prop
  | refused {e e' : SyntaxError} (reason : e.reason = e'.reason) : MatchedAlike R (.error e) (.error e')
  | taken {h h' : Hop σ} {passed : Nat} (hop : R h h') : MatchedAlike R (.ok (h, passed)) (.ok (h', passed))

lemma withNode_alike {h h' : Hop σ} (hh : h.toFrame.Alike chars chars' h'.toFrame) (n : NodeId)
    (span span' : Span) (modifier : Option (Modifier σ)) (forks : Bool) :
    (h.withNode n span modifier forks).Alike chars chars' (h'.withNode n span' modifier forks) :=
  ⟨⟨hh.source, hh.arguments, rfl⟩, rfl⟩

lemma withArgument_alike {h h' : Hop σ} (hh : h.toFrame.Alike chars chars' h'.toFrame) {name : String}
    {p p' : ParsedArgument} (hp : ArgumentsAlike chars chars' (name, p) (name, p')) :
    (h.withArgument name p).toFrame.Alike chars chars' (h'.withArgument name p').toFrame :=
  ⟨hh.source, putArgument_alike hp hh.arguments, hh.forks⟩

/-- A candidate is matched with the text ahead and for the source, which are the same. -/
lemma Place.Alike.matchNode (h : a.Alike chars chars' b) (c : NodeId) :
    MatchedAlike (Hop.Alike chars chars') (t.matchNode a.reader a.hop c) (t.matchNode b.reader b.hop c) := by
  unfold CommandTree.matchNode
  cases hpattern : (t.node c).pattern with
  | none =>
    simp only [hpattern]
    exact .taken h.hop
  | some p =>
    cases p with
    | literal k =>
      simp only [hpattern, h.rest]
      cases (Scan.keyword k b.reader.rest).outcome with
      | error e => exact .refused rfl
      | ok _ => exact .taken (withNode_alike h.hop.toAlike ..)
    | argument name type provider =>
      simp only [hpattern, h.rest, h.hop.source]
      cases (type.scan (some b.hop.source) b.reader.rest).outcome with
      | error e => exact .refused rfl
      | ok value =>
        have hargument : ∀ n, ArgumentsAlike chars chars' (name, ⟨a.reader.ahead n, value⟩)
            (name, ⟨b.reader.ahead n, value⟩) := by
          refine fun n => ⟨rfl, rfl, ?_⟩
          rw [← h.chars_eq, ← h.chars_eq', chars_ahead, chars_ahead, h.rest]
        exact .taken (withNode_alike (withArgument_alike h.hop.toAlike (hargument _)) ..)

lemma Place.Alike.matchToken (h : a.Alike chars chars' b) (c : NodeId) :
    MatchedAlike (fun h h' => h.Alike chars chars' h' ∧ h.handler = h'.handler)
      (t.matchToken a.reader a.hop c) (t.matchToken b.reader b.hop c) := by
  have hmatched : MatchedAlike (Hop.Alike chars chars') (t.matchNode a.reader a.hop c)
      (t.matchNode b.reader b.hop c) := h.matchNode c
  unfold CommandTree.matchToken
  generalize t.matchNode a.reader a.hop c = m at hmatched
  generalize t.matchNode b.reader b.hop c = m' at hmatched
  cases hmatched with
  | refused reason => exact .refused reason
  | @taken reached reached' passed hop =>
    simp only [h.rest]
    split
    · exact .taken ⟨⟨⟨hop.source, hop.arguments, hop.forks⟩, hop.modifier⟩, rfl⟩
    · exact .refused rfl

/-- From places that are alike the same is picked. -/
inductive PickedAlike (chars chars' : List Char) : Pick σ → Pick σ → Prop
  | intro {c : NodeId} {h h' : Hop σ} {passed : Nat} (hop : h.Alike chars chars' h')
      (handler : h.handler = h'.handler) : PickedAlike chars chars' ⟨c, h, passed⟩ ⟨c, h', passed⟩

lemma forall₂_filterMap {γ : Type} {R : α → β → Prop} {f : γ → Option α} {g : γ → Option β}
    (h : ∀ c, Option.Rel R (f c) (g c)) (l : List γ) : List.Forall₂ R (l.filterMap f) (l.filterMap g) := by
  induction l with
  | nil => exact .nil
  | cons c l ih =>
    have hc := h c
    rw [List.filterMap_cons, List.filterMap_cons]
    generalize f c = x at hc
    generalize g c = y at hc
    cases hc with
    | none => exact ih
    | some hxy => exact .cons hxy ih

lemma Place.Alike.picks (h : a.Alike chars chars' b) :
    List.Forall₂ (PickedAlike chars chars') (a.picks t) (b.picks t) := by
  unfold Place.picks CommandTree.picks
  rw [h.node, h.rest, h.hop.source]
  refine forall₂_filterMap (fun c => ?_) _
  have hmatched : MatchedAlike _ (t.matchToken a.reader a.hop c) (t.matchToken b.reader b.hop c) := h.matchToken c
  unfold pick?
  generalize t.matchToken a.reader a.hop c = m at hmatched
  generalize t.matchToken b.reader b.hop c = m' at hmatched
  cases hmatched with
  | refused _ => exact .none
  | taken hop => exact .some (.intro hop.1 hop.2)

lemma Place.Alike.refusals (h : a.Alike chars chars' b) :
    List.Forall₂ (fun f f' => f.1 = f'.1 ∧ f.2.reason = f'.2.reason) (t.refusals a.node a.reader a.hop)
      (t.refusals b.node b.reader b.hop) := by
  unfold CommandTree.refusals
  rw [h.node, h.rest, h.hop.source]
  refine forall₂_filterMap (fun c => ?_) _
  have hmatched : MatchedAlike _ (t.matchToken a.reader a.hop c) (t.matchToken b.reader b.hop c) := h.matchToken c
  unfold refusal?
  generalize t.matchToken a.reader a.hop c = m at hmatched
  generalize t.matchToken b.reader b.hop c = m' at hmatched
  cases hmatched with
  | refused reason => exact .some ⟨rfl, reason⟩
  | taken _ => exact .none

lemma Place.Alike.below (h : a.Alike chars chars' b) {p q : Pick σ} (hpq : PickedAlike chars chars' p q) :
    (a.below p).Alike chars chars' (b.below q) := by
  obtain ⟨hop, handler⟩ := hpq
  refine ⟨rfl, ?_, ?_, ?_, hop, fun _ => handler⟩
  · rw [Place.below, Reader.chars_advance, h.chars_eq]
  · rw [Place.below, Reader.chars_advance, h.chars_eq']
  · rw [Place.below, Place.below, Reader.rest_advance, Reader.rest_advance, h.rest]

lemma Place.Alike.across (h : a.Alike chars chars' b) {p q : Pick σ} (hpq : PickedAlike chars chars' p q)
    (target : NodeId) : (a.across p target).Alike chars chars' (b.across q target) := by
  obtain ⟨hop, handler⟩ := hpq
  refine ⟨rfl, ?_, ?_, ?_, ⟨⟨h.hop.source, .nil, rfl⟩, rfl⟩, fun _ => rfl⟩
  · rw [Place.across, Reader.chars_advance, h.chars_eq]
  · rw [Place.across, Reader.chars_advance, h.chars_eq']
  · rw [Place.across, Place.across, Reader.rest_advance, Reader.rest_advance, h.rest]

lemma behind_alike {h h' : Hop σ} (hh : h.Alike chars chars' h') {w w' : ParseResult σ}
    (hw : w.Alike chars chars' w') : (w.behind h).Alike chars chars' (w'.behind h') := by
  refine ⟨hw.chars_eq, hw.chars_eq', hw.rest, .cons hh hw.hops, ?_, hw.failures⟩
  rw [ParseResult.behind, ParseResult.behind, Trail.last_cons, Trail.last_cons]
  exact hw.handler

lemma Place.Alike.arrival (h : a.Alike chars chars' b) {p q : Pick σ} (hpq : PickedAlike chars chars' p q) :
    (arrival a.reader p).Alike chars chars' (arrival b.reader q) := by
  obtain ⟨hop, handler⟩ := hpq
  refine ⟨?_, ?_, ?_, .cons hop .nil, fun _ => handler, .nil⟩
  · rw [CommandTree.arrival, Reader.chars_advance, h.chars_eq]
  · rw [CommandTree.arrival, Reader.chars_advance, h.chars_eq']
  · rw [CommandTree.arrival, CommandTree.arrival, Reader.rest_advance, Reader.rest_advance, h.rest]

/-- Places that are alike stay alike. -/
lemma simulates_alike (t : CommandTree σ) (chars chars' : List Char) :
    Simulates t t (Place.Alike chars chars') (ParseResult.Alike chars chars') := by
  refine ⟨fun {a b} h => ?_, fun {a b} h _ => ?_, fun h => h.rank⟩
  · refine h.picks.imp fun p q hpq => ?_
    have hnode : p.node = q.node := by
      obtain ⟨-, -⟩ := hpq
      rfl
    have hmore : t.goesOn a.reader p ↔ t.goesOn b.reader q := by
      obtain ⟨-, -⟩ := hpq
      rw [goesOn, goesOn, h.rest]
    by_cases hgo : t.goesOn a.reader p
    · cases htarget : (t.node p.node).target? with
      | none => exact .onward hgo (hmore.1 hgo) htarget (hnode ▸ htarget) (h.below hpq)
      | some target =>
        refine .jump hgo (hmore.1 hgo) htarget (hnode ▸ htarget) (h.across hpq target) (behind_alike ?_)
        obtain ⟨hop, -⟩ := hpq
        exact hop
    · exact .stop hgo (mt hmore.2 hgo) (h.arrival hpq)
  · exact ⟨h.chars_eq, h.chars_eq', h.rest, .cons h.hop .nil, h.handler, h.refusals⟩

/-- From places that are alike reading comes to outcomes that are alike. -/
theorem Place.Alike.outcome (h : a.Alike chars chars' b) :
    (a.outcome t).Alike chars chars' (b.outcome t) :=
  (simulates_alike t chars chars').parseFrom h

end CommandTree

/-! ## Running readings that are alike -/

/-- Contexts with the same source and the same arguments. -/
def Context.Alike (c c' : Context σ) : Prop := c.frame.Alike c.input.toList c'.input.toList c'.frame

/-- Whether a handler or a modifier answers alike for contexts that are alike. -/
def Blind (f : Context σ → α) : Prop := ∀ c c' : Context σ, c.Alike c' → f c = f c'

lemma Context.Alike.withSource {c c' : Context σ} (h : c.Alike c') (source : σ) :
    (c.withSource source).Alike (c'.withSource source) :=
  ⟨rfl, h.arguments, h.forks⟩

/-- Runs that come to the same and leave the same in the log. -/
structure Run.Agrees (r r' : Run σ α) : Prop where
  outcome : r.outcome = r'.outcome
  entries : r.trace.filterMap Invocation.entry? = r'.trace.filterMap Invocation.entry?

lemma Run.Agrees.andThen {r r' : Run σ α} {f g : α → Run σ β} (h : r.Agrees r')
    (hf : ∀ a, (f a).Agrees (g a)) : (r.andThen f).Agrees (r'.andThen g) := by
  unfold Run.andThen
  rw [h.outcome]
  cases r'.outcome with
  | error e => exact ⟨rfl, h.entries⟩
  | ok a =>
    refine ⟨(hf a).outcome, ?_⟩
    rw [List.filterMap_append, List.filterMap_append, h.entries, (hf a).entries]

/-- Stages with the same modifier, which is blind, for contexts that are alike. -/
structure Stage.Alike (s s' : Stage σ) : Prop where
  context : s.context.Alike s'.context
  modifier : s.modifier = s'.modifier
  blind : ∀ m ∈ s.modifier, Blind m

namespace Stage.Alike

variable {s s' : Stage σ}

lemma forks (h : s.Alike s') : s.forks = s'.forks := h.context.forks

lemma apply (h : s.Alike s') (forked : Bool) (source : σ) :
    (s.apply forked source).Agrees (s'.apply forked source) := by
  unfold Stage.apply
  cases hm : s.modifier with
  | none =>
    rw [← h.modifier, hm]
    exact ⟨rfl, rfl⟩
  | some m =>
    rw [← h.modifier, hm]
    have hanswer := h.blind m hm _ _ (h.context.withSource source)
    simp only [hanswer]
    cases m (s'.context.withSource source) with
    | ok sources => exact ⟨rfl, rfl⟩
    | error e => exact ⟨rfl, rfl⟩

lemma applyAll (h : s.Alike s') (forked : Bool) (sources : List σ) :
    (s.applyAll forked sources).Agrees (s'.applyAll forked sources) := by
  induction sources with
  | nil => exact ⟨rfl, rfl⟩
  | cons source rest ih =>
    rw [Stage.applyAll_cons, Stage.applyAll_cons]
    exact (h.apply forked source).andThen fun made => ⟨congrArg (Except.map _) ih.outcome, ih.entries⟩

end Stage.Alike

/-- Chains with the same handler, which is blind, for contexts that are alike. -/
structure Chain.EndsAlike (c c' : Chain σ) : Prop where
  context : c.context.Alike c'.context
  handler : c.handler = c'.handler
  blind : Blind c.handler

namespace Chain.EndsAlike

variable {c c' : Chain σ}

lemma handle (h : c.EndsAlike c') (forked : Bool) (source : σ) :
    (c.handle forked source).Agrees (c'.handle forked source) := by
  have hanswer := h.blind _ _ (h.context.withSource source)
  unfold Chain.handle
  rw [← h.handler]
  simp only [hanswer]
  cases c.handler (c'.context.withSource source) with
  | ok n => exact ⟨rfl, rfl⟩
  | error e => exact ⟨rfl, rfl⟩

lemma handleAll (h : c.EndsAlike c') (forked : Bool) (sum : Int32) (sources : List σ) :
    (c.handleAll forked sum sources).Agrees (c'.handleAll forked sum sources) := by
  induction sources generalizing sum with
  | nil => exact ⟨rfl, rfl⟩
  | cons source rest ih =>
    rw [Chain.handleAll_cons, Chain.handleAll_cons]
    exact (h.handle forked source).andThen fun n => ih (sum + n)

lemma runStages (h : c.EndsAlike c') {l l' : List (Stage σ)} (hl : List.Forall₂ Stage.Alike l l')
    (forked : Bool) (sources : List σ) :
    (c.runStages forked sources l).Agrees (c'.runStages forked sources l') := by
  induction hl generalizing forked sources with
  | nil => exact h.handleAll forked 0 sources
  | @cons s s' l l' hs _ ih =>
    rw [Chain.runStages_cons, Chain.runStages_cons, hs.forks]
    exact (hs.applyAll _ sources).andThen fun made => ih _ made

end Chain.EndsAlike

/-- A stage without a modifier that does not fork hands its sources on. -/
lemma Chain.runStages_idle (c : Chain σ) {s : Stage σ} (hmodifier : s.modifier = none)
    (hforks : s.forks = false) (source : σ) (rest : List (Stage σ)) :
    c.runStages false [source] (s :: rest) = c.runStages false [source] rest := by
  simp [Chain.runStages, Stage.applyAll, Stage.apply, hmodifier, hforks, Except.map]

section Execute

variable {chars chars' : List Char}

lemma context_alike {f f' : Frame σ} (h : f.Alike chars chars' f') (later later' : List (Frame σ)) :
    (⟨String.ofList chars, f, later⟩ : Context σ).Alike ⟨String.ofList chars', f', later'⟩ := by
  rw [Context.Alike, String.toList_ofList, String.toList_ofList]
  exact h

lemma stagesOf_alike {h h' : Hop σ} {later later' : List (Hop σ)} (hh : h.Alike chars chars' h')
    (hlater : List.Forall₂ (Hop.Alike chars chars') later later')
    (hblind : ∀ g ∈ h :: later, ∀ m ∈ g.modifier, Blind m) :
    List.Forall₂ Stage.Alike (Chain.stagesOf (String.ofList chars) h later)
      (Chain.stagesOf (String.ofList chars') h' later') := by
  induction hlater generalizing h h' with
  | nil => exact .nil
  | @cons next next' rest rest' hnext _ ih =>
    rw [List.forall_mem_cons] at hblind
    exact .cons ⟨context_alike hh.toAlike _ _, hh.modifier, hblind.1⟩ (ih hnext hblind.2)

/-- Why readings are incomplete is a matter of what is left, of the errors and of whether anything was
matched. -/
lemma reason_error? {w w' : ParseResult σ} (hrest : w.reader.rest = w'.reader.rest)
    (hfailures : List.Forall₂ (fun f f' => f.1 = f'.1 ∧ f.2.reason = f'.2.reason) w.failures w'.failures)
    (hempty : w.trail.first.span.isEmpty = w'.trail.first.span.isEmpty) :
    w.error?.map SyntaxError.reason = w'.error?.map SyntaxError.reason := by
  unfold ParseResult.error? ParseResult.isComplete Reader.canRead
  rw [hrest, hempty]
  split
  · rfl
  · generalize w.failures = l at hfailures
    generalize w'.failures = l' at hfailures
    cases hfailures with
    | nil => rfl
    | cons hf hrest =>
      cases hrest with
      | nil => exact congrArg some hf.2
      | cons _ _ => rfl

lemma rest_eq_nil_of_error? {w : ParseResult σ} (h : w.error? = none) : w.reader.rest = [] := by
  by_contra hne
  have hcan : w.isComplete = false := by
    simpa [ParseResult.isComplete, Reader.canRead] using hne
  unfold ParseResult.error? at h
  rw [hcan] at h
  simp only [Bool.false_eq_true, if_false] at h
  split at h <;> cases h

lemma exists_alike_of_mem {l l' : List (Hop σ)} (h : List.Forall₂ (Hop.Alike chars chars') l l') {g : Hop σ}
    (hg : g ∈ l) : ∃ g' ∈ l', g.Alike chars chars' g' := by
  induction h with
  | nil => cases hg
  | @cons x y l l' hxy _ ih =>
    rcases List.mem_cons.1 hg with rfl | hg
    · exact ⟨y, List.mem_cons_self .., hxy⟩
    · obtain ⟨g', hg', halike⟩ := ih hg
      exact ⟨g', List.mem_cons_of_mem _ hg', halike⟩

lemma last_alike {trail trail' : Trail σ} (h : List.Forall₂ (Hop.Alike chars chars') trail.hops trail'.hops) :
    trail.last.Alike chars chars' trail'.last := by
  obtain ⟨first, later⟩ := trail
  obtain ⟨first', later'⟩ := trail'
  obtain ⟨hfirst, hlater⟩ : first.Alike chars chars' first' ∧ List.Forall₂ (Hop.Alike chars chars') later later' :=
    List.forall₂_cons.1 h
  clear h
  induction hlater generalizing first first' with
  | nil => exact hfirst
  | @cons next next' rest rest' hnext _ ih =>
    have hlast : Trail.last ⟨first, next :: rest⟩ = Trail.last ⟨next, rest⟩ := Trail.last_cons first ⟨next, rest⟩
    have hlast' : Trail.last ⟨first', next' :: rest'⟩ = Trail.last ⟨next', rest'⟩ :=
      Trail.last_cons first' ⟨next', rest'⟩
    rw [hlast, hlast']
    exact ih _ _ hnext

/-- The chain of a reading with a given handler. -/
def ParseResult.chain (w : ParseResult σ) (f : Handler σ) : Chain σ :=
  ⟨Chain.stagesOf w.reader.input w.trail.first w.trail.later, w.trail.lastContext w.reader.input, f⟩

/-- The chain behind a hop that only leads on runs like that of a reading that is alike. -/
lemma ParseResult.Alike.run_behind {w w' : ParseResult σ} {h : Hop σ} (hw : w.Alike chars chars' w')
    (hmodifier : h.modifier = none) (hforks : h.forks = false) (hsource : h.source = w'.trail.first.source)
    {f : Handler σ} (hf : Blind f) (hblind : ∀ g ∈ w'.trail.hops, ∀ m ∈ g.modifier, Blind m) :
    (((w.behind h).chain f).run h.source).Agrees ((w'.chain f).run w'.trail.first.source) := by
  have hinput : w.reader.input = String.ofList chars := congrArg String.ofList hw.chars_eq
  have hinput' : w'.reader.input = String.ofList chars' := congrArg String.ofList hw.chars_eq'
  have hends : ((w.behind h).chain f).EndsAlike (w'.chain f) := by
    refine ⟨?_, rfl, hf⟩
    show ((Trail.cons h w.trail).lastContext w.reader.input).Alike (w'.trail.lastContext w'.reader.input)
    rw [Trail.lastContext, Trail.last_cons, hinput, hinput']
    exact context_alike (last_alike hw.hops).toAlike _ _
  have hstages : List.Forall₂ Stage.Alike (Chain.stagesOf w.reader.input w.trail.first w.trail.later)
      (w'.chain f).stages := by
    obtain ⟨hfirst, hlater⟩ := List.forall₂_cons.1 hw.hops
    rw [ParseResult.chain, hinput, hinput']
    refine stagesOf_alike hfirst hlater fun g hg m hm => ?_
    obtain ⟨g', hg', halike⟩ := exists_alike_of_mem hw.hops hg
    exact hblind g' hg' m (halike.modifier ▸ hm)
  have hidle : ((w.behind h).chain f).run h.source = ((w.behind h).chain f).runStages false [h.source]
      (Chain.stagesOf w.reader.input w.trail.first w.trail.later) := by
    apply Chain.runStages_idle
    · exact hmodifier
    · exact hforks
  rw [hidle, hsource]
  exact hends.runStages hstages false _

/-- A reading behind a hop that only leads on runs like one that is alike without such a hop: the outcomes are
equal but for the places of errors, and the same is left in the log. -/
theorem ParseResult.Alike.execute_behind {w w' : ParseResult σ} {h : Hop σ} (hw : w.Alike chars chars' w')
    (hmodifier : h.modifier = none) (hforks : h.forks = false) (hsource : h.source = w'.trail.first.source)
    (hempty : h.span.isEmpty = w'.trail.first.span.isEmpty)
    (hhandler : ∀ f ∈ w'.trail.last.handler, Blind f)
    (hblind : ∀ g ∈ w'.trail.hops, ∀ m ∈ g.modifier, Blind m) :
    (w.behind h).execute.outcome.mapError SyntaxError.reason =
        w'.execute.outcome.mapError SyntaxError.reason ∧
      (w.behind h).execute.trace.filterMap Invocation.entry? = w'.execute.trace.filterMap Invocation.entry? := by
  have herror : (w.behind h).error?.map SyntaxError.reason = w'.error?.map SyntaxError.reason :=
    reason_error? hw.rest hw.failures hempty
  unfold ParseResult.execute
  cases he : (w.behind h).error? with
  | some e =>
    cases he' : w'.error? with
    | none => simp [he, he'] at herror
    | some e' =>
      rw [he, he'] at herror
      exact ⟨congrArg Except.error (Option.some.inj herror), rfl⟩
  | none =>
    cases he' : w'.error? with
    | some e' => simp [he, he'] at herror
    | none =>
      have hlast : (w.behind h).trail.last.handler = w'.trail.last.handler := by
        rw [ParseResult.behind, Trail.last_cons]
        exact hw.handler (hw.rest.trans (rest_eq_nil_of_error? he'))
      simp only [Chain.ofTrail?, hlast]
      cases hf : w'.trail.last.handler with
      | none =>
        have hentry : Invocation.entry? (.unhandled (w.behind h).context) =
            Invocation.entry? (.unhandled w'.context) :=
          congrArg (fun s => some (s, false, 0)) hsource
        refine ⟨rfl, ?_⟩
        show [Invocation.unhandled (w.behind h).context].filterMap Invocation.entry? =
          [Invocation.unhandled w'.context].filterMap Invocation.entry?
        simp only [List.filterMap_cons, hentry]
      | some f =>
        have hruns := hw.run_behind hmodifier hforks hsource (hhandler f hf) hblind
        exact ⟨congrArg (Except.mapError _) hruns.outcome, hruns.entries⟩

end Execute
end CommandEngine
