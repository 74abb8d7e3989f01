import CommandEngine.Proofs.Likeness

/-!
# Trees that differ in the numbers of nodes

A reading is told in numbers of nodes, but does not depend on them.  Keywords are looked up by name, so it does not
depend on where they stand among their siblings either; arguments are tried in order, which therefore has to be
kept.  Two trees are `CommandTree.Renumbered` if they differ in nothing else.  Then every input is read in the same
way in both (`CommandTree.Renumbered.parse`), and a command that is blind to the numbers of nodes runs in the
same way (`CommandTree.Renumbered.execute`).
-/

namespace CommandEngine

variable {σ : Type}

/-! ## Renumbering what was read -/

/-- A reading with other numbers for its nodes. -/
def ParseResult.renumber (f : NodeId → NodeId) (w : ParseResult σ) : ParseResult σ :=
  ⟨⟨w.trail.first.renumber f, w.trail.later.map (Hop.renumber f)⟩, w.reader,
    w.failures.map fun e => (f e.1, e.2)⟩

namespace ParseResult

variable {f : NodeId → NodeId}

lemma renumber_behind (hop : Hop σ) (w : ParseResult σ) :
    (w.behind hop).renumber f = (w.renumber f).behind (hop.renumber f) := rfl

lemma rank_renumber (w : ParseResult σ) : (w.renumber f).rank = w.rank := by
  have hfailures : (w.renumber f).failures.isEmpty = w.failures.isEmpty := by
    rw [renumber, List.isEmpty_map]
  rw [rank, rank, hfailures]
  rfl

lemma hops_renumber (w : ParseResult σ) : (w.renumber f).trail.hops = w.trail.hops.map (Hop.renumber f) := rfl

lemma last_renumber (w : ParseResult σ) : (w.renumber f).trail.last = w.trail.last.renumber f := by
  simp only [renumber, Trail.last, List.getLast?_map]
  cases w.trail.later.getLast? <;> rfl

/-- Why an input was not read to its end does not depend on the numbers. -/
lemma error?_renumber (w : ParseResult σ) : (w.renumber f).error? = w.error? := by
  unfold error? isComplete renumber
  cases hfailures : w.failures with
  | nil => rfl
  | cons e rest => cases rest <;> rfl

end ParseResult

namespace CommandTree

/-- The same tree with nodes under other numbers and keywords in another order. -/
structure Renumbered (f : NodeId → NodeId) (t t' : CommandTree σ) : Prop extends Reordered f t t' where
  ordered : ∀ id, t'.arguments (f id) = (t.arguments id).map fun e => (e.1, f e.2)

variable {t t' : CommandTree σ} {f : NodeId → NodeId} {id : NodeId} {r : Reader} {hop : Hop σ}

namespace Renumbered

lemma candidates (ht : t.WellShaped) (h : Renumbered f t t') (id : NodeId) (text : List Char) :
    t'.candidates (f id) text = (t.candidates id text).map f := by
  unfold CommandTree.candidates
  simp only [h.find?_literals ht]
  cases (t.literals id).find? fun e => e.1.toList = text.takeWhile (· ≠ separator) with
  | some e => simp
  | none => simp [h.ordered, List.map_map, Function.comp_def]

lemma usable (ht : t.WellShaped) (h : Renumbered f t t') (id : NodeId) (text : List Char) (source : σ) :
    t'.usable (f id) text source = (t.usable id text source).map f := by
  simp only [CommandTree.usable, h.candidates ht, List.filter_map, Function.comp_def, (h.node _).canUse]

/-- The same is picked, in the same order. -/
lemma picks_eq (ht : t.WellShaped) (h : Renumbered f t t') (id : NodeId) (r : Reader) (hop : Hop σ) :
    t'.picks (f id) r (hop.renumber f) = (t.picks id r hop).map (Pick.renumber f) := by
  have hsource : (hop.renumber f).source = hop.source := rfl
  simp only [CommandTree.picks, hsource, h.usable ht, List.filterMap_map, List.map_filterMap,
    Function.comp_def, h.pick?]

lemma refusal? (h : Renumbered f t t') (c : NodeId) :
    t'.refusal? r (hop.renumber f) (f c) = (t.refusal? r hop c).map fun e => (f e.1, e.2) := by
  unfold CommandTree.refusal?
  rw [h.matchToken]
  cases t.matchToken r hop c <;> rfl

lemma refusals (ht : t.WellShaped) (h : Renumbered f t t') (id : NodeId) (r : Reader) (hop : Hop σ) :
    t'.refusals (f id) r (hop.renumber f) = (t.refusals id r hop).map fun e => (f e.1, e.2) := by
  have hsource : (hop.renumber f).source = hop.source := rfl
  simp only [CommandTree.refusals, hsource, h.usable ht, List.filterMap_map, List.map_filterMap,
    Function.comp_def, h.refusal?]

end Renumbered

/-! ## Reading -/

/-- A place with other numbers for its nodes. -/
def Place.renumber (f : NodeId → NodeId) (a : Place σ) : Place σ := ⟨f a.node, a.reader, a.hop.renumber f⟩

namespace Renumbered

/-- A pick leads the same way under either number. -/
lemma parallel (h : Renumbered f t t') (a : Place σ) (p : Pick σ) :
    Parallel t t' (fun a b => b = a.renumber f) (fun w w' => w' = w.renumber f) a (a.renumber f) p
      (p.renumber f) := by
  have htarget := (h.node p.node).target?
  by_cases hmore : t.goesOn a.reader p
  · have hmore' : t'.goesOn (a.renumber f).reader (p.renumber f) := (h.goesOn p).2 hmore
    cases hredirect : (t.node p.node).target? with
    | none =>
      rw [hredirect, Option.map_none] at htarget
      exact .onward hmore hmore' hredirect htarget rfl
    | some target =>
      rw [hredirect, Option.map_some] at htarget
      refine .jump hmore hmore' hredirect htarget rfl ?_
      rintro w _ rfl
      exact (ParseResult.renumber_behind p.hop w).symm
  · exact .stop hmore (fun hmore' => hmore ((h.goesOn p).1 hmore')) rfl

lemma simulates (ht : t.WellShaped) (h : Renumbered f t t') :
    Simulates t t' (fun a b => b = a.renumber f) (fun w w' => w' = w.renumber f) := by
  refine ⟨?_, ?_, ?_⟩
  · rintro a _ rfl
    have hpicks : (a.renumber f).picks t' = (a.picks t).map (Pick.renumber f) :=
      h.picks_eq ht a.node a.reader a.hop
    rw [hpicks, List.forall₂_map_right_iff, List.forall₂_same]
    exact fun p _ => h.parallel a p
  · rintro a _ rfl -
    have hrefusals := h.refusals ht a.node a.reader a.hop
    show CommandTree.impasse t' (f a.node) a.reader (a.hop.renumber f) = _
    rw [CommandTree.impasse, hrefusals]
    rfl
  · rintro w _ rfl
    exact w.rank_renumber.symm

/-- An input is read as the same under the other numbers. -/
theorem parse (ht : t.WellShaped) (h : Renumbered f t t') (input : String) (source : σ) :
    t'.parse input source = (t.parse input source).renumber f := by
  have hstart : (⟨rootId, .ofString input, .start source rootId 0⟩ : Place σ).renumber f =
      ⟨rootId, .ofString input, .start source rootId 0⟩ := by
    simp [Place.renumber, Hop.renumber, Hop.start, h.root]
  exact (h.simulates ht).parseFrom hstart.symm

end Renumbered
end CommandTree

/-! ## Running -/

/-- A hop is like itself under other numbers. -/
lemma Hop.alike_renumber (f : NodeId → NodeId) (chars : List Char) (hop : Hop σ) :
    hop.Alike chars chars (hop.renumber f) :=
  ⟨⟨rfl, List.forall₂_same.2 fun _ _ => ⟨rfl, rfl, rfl⟩, rfl⟩, rfl⟩

/-- A reading runs in the same way under other numbers if what is called is blind to them. -/
lemma ParseResult.execute_renumber (f : NodeId → NodeId) {w : ParseResult σ}
    (hhandler : ∀ g ∈ w.trail.last.handler, Blind g)
    (hmodifier : ∀ hop ∈ w.trail.hops, ∀ m ∈ hop.modifier, Blind m) :
    w.execute.Agrees (w.renumber f).execute := by
  have hlast : (w.renumber f).trail.last.handler = w.trail.last.handler := by
    rw [last_renumber]
    rfl
  have halike : List.Forall₂ (Hop.Alike w.reader.chars w.reader.chars) w.trail.hops (w.renumber f).trail.hops := by
    rw [hops_renumber, List.forall₂_map_right_iff, List.forall₂_same]
    exact fun hop _ => hop.alike_renumber f _
  unfold ParseResult.execute
  rw [error?_renumber]
  cases w.error? with
  | some e => exact ⟨rfl, rfl⟩
  | none =>
    simp only [Chain.ofTrail?, hlast]
    cases hg : w.trail.last.handler with
    | none => exact ⟨rfl, rfl⟩
    | some g =>
      have hends : (w.chain g).EndsAlike ((w.renumber f).chain g) :=
        ⟨context_alike (last_alike halike).toAlike _ _, rfl, hhandler g hg⟩
      obtain ⟨hfirst, hlater⟩ := List.forall₂_cons.1 halike
      exact hends.runStages (stagesOf_alike hfirst hlater hmodifier) false [w.trail.first.source]

/-- A command runs in the same way under the other numbers, if the handlers and modifiers that it calls are blind
to them. -/
theorem CommandTree.Renumbered.execute {f : NodeId → NodeId} {t t' : CommandTree σ} (ht : t.WellShaped)
    (h : Renumbered f t t') {input : String} {source : σ}
    (hhandler : ∀ g ∈ (t.parse input source).trail.last.handler, Blind g)
    (hmodifier : ∀ hop ∈ (t.parse input source).trail.hops, ∀ m ∈ hop.modifier, Blind m) :
    (t.execute input source).Agrees (t'.execute input source) := by
  rw [CommandTree.execute, CommandTree.execute, h.parse ht]
  exact ParseResult.execute_renumber f hhandler hmodifier

end CommandEngine
