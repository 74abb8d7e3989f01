import CommandEngine.Proofs.BestWalk
import CommandEngine.Proofs.Tree.Merge

/-!
# Redirects commit

Where a candidate that redirects matches and more input follows, reading goes on at its target and does not
come back for the other candidates.  So a walk that reads the whole input can be missed, namely one that
goes by another candidate there.  This file says which walks count.

* `CommandTree.GuidedWalk` are the walks that follow a rule at every place, and `CommandTree.Commits` is the
  rule that reading follows: where redirects can be taken, take the first of them;
* `CommandTree.isComplete_parseFrom_iff` says that a reading is complete if and only if one of these walks
  is;
* `CommandTree.Unrivalled` is a rule that does not depend on the order of candidates: no other redirect can
  be taken.  Walks that follow it are found however the siblings are ordered and the nodes are numbered,
  which is `CommandTree.isComplete_parse_iff`;
* `CommandTree.isComplete_parse_of_loneRedirects` says that where no two siblings redirect, their order does
  not matter at all;
* `CommandTree.not_losesNothing` has a tree that shows that the other walks can be missed.
-/

namespace CommandEngine

variable {σ : Type}

/-! ## Walks that follow a rule -/

namespace CommandTree

/-- The outcomes of the walks from a node at a place that follow a rule: every candidate that is picked on
the way is one that the rule allows there. -/
inductive GuidedWalk (t : CommandTree σ) (rule : NodeId → Reader → Hop σ → Pick σ → Prop) :
    NodeId → Reader → Hop σ → ParseResult σ → Prop
  | stop {id : NodeId} {r : Reader} {hop : Hop σ} (p : Pick σ) (picked : p ∈ t.picks id r hop)
      (allowed : rule id r hop p) (ends : ¬ t.goesOn r p) : GuidedWalk t rule id r hop (arrival r p)
  | onward {id : NodeId} {r : Reader} {hop : Hop σ} {w : ParseResult σ} (p : Pick σ)
      (picked : p ∈ t.picks id r hop) (allowed : rule id r hop p) (more : t.goesOn r p)
      (plain : (t.node p.node).target? = none)
      (next : GuidedWalk t rule p.node (r.advance (p.passed + 1)) p.hop w) :
      GuidedWalk t rule id r hop w
  | jump {id target : NodeId} {r : Reader} {hop : Hop σ} {w : ParseResult σ} (p : Pick σ)
      (picked : p ∈ t.picks id r hop) (allowed : rule id r hop p) (more : t.goesOn r p)
      (redirects : (t.node p.node).target? = some target)
      (next : GuidedWalk t rule target (r.advance (p.passed + 1))
        (landing hop.source target (r.advance (p.passed + 1))) w) :
      GuidedWalk t rule id r hop (w.behind p.hop)
  | deadEnd {id : NodeId} {r : Reader} {hop : Hop σ} (stuck : t.picks id r hop = []) :
      GuidedWalk t rule id r hop (t.impasse id r hop)

variable {t t' : CommandTree σ} {id : NodeId} {r : Reader} {hop : Hop σ} {w : ParseResult σ}

/-- The walks are those that follow the rule that allows everything. -/
theorem walk_iff_guidedWalk : t.Walk id r hop w ↔ t.GuidedWalk (fun _ _ _ _ => True) id r hop w := by
  constructor
  · intro h
    induction h with
    | stop p hp hends => exact .stop p hp trivial hends
    | onward p hp hmore hplain _ ih => exact .onward p hp trivial hmore hplain ih
    | jump p hp hmore htarget _ ih => exact .jump p hp trivial hmore htarget ih
    | deadEnd hstuck => exact .deadEnd hstuck
  · intro h
    induction h with
    | stop p hp _ hends => exact .stop p hp hends
    | onward p hp _ hmore hplain _ ih => exact .onward p hp hmore hplain ih
    | jump p hp _ hmore htarget _ ih => exact .jump p hp hmore htarget ih
    | deadEnd hstuck => exact .deadEnd hstuck

lemma GuidedWalk.mono {rule rule' : NodeId → Reader → Hop σ → Pick σ → Prop}
    (himp : ∀ id r hop p, rule id r hop p → rule' id r hop p) (h : t.GuidedWalk rule id r hop w) :
    t.GuidedWalk rule' id r hop w := by
  induction h with
  | stop p hp hrule hends => exact .stop p hp (himp _ _ _ _ hrule) hends
  | onward p hp hrule hmore hplain _ ih => exact .onward p hp (himp _ _ _ _ hrule) hmore hplain ih
  | jump p hp hrule hmore htarget _ ih => exact .jump p hp (himp _ _ _ _ hrule) hmore htarget ih
  | deadEnd hstuck => exact .deadEnd hstuck

/-! ## The rule of reading -/

instance (t : CommandTree σ) (r : Reader) (p : Pick σ) : Decidable (t.jumps r p) :=
  inferInstanceAs (Decidable (_ ∧ _))

/-- The first candidate whose redirect can be taken. -/
def commitment? (t : CommandTree σ) (id : NodeId) (r : Reader) (hop : Hop σ) : Option (Pick σ) :=
  (t.picks id r hop).find? fun p => t.jumps r p

/-- Where redirects can be taken, the first of them is. -/
def Commits (t : CommandTree σ) (id : NodeId) (r : Reader) (hop : Hop σ) (p : Pick σ) : Prop :=
  ∀ q ∈ t.commitment? id r hop, q = p

/-- No other redirect can be taken. -/
def Unrivalled (t : CommandTree σ) (id : NodeId) (r : Reader) (hop : Hop σ) (p : Pick σ) : Prop :=
  ∀ q ∈ t.picks id r hop, t.jumps r q → q = p

lemma jumps_of_commitment {p : Pick σ} (h : t.commitment? id r hop = some p) :
    p ∈ t.picks id r hop ∧ t.jumps r p :=
  ⟨List.mem_of_find?_eq_some h, by simpa using List.find?_some h⟩

lemma not_jumps_of_commitment (h : t.commitment? id r hop = none) :
    ∀ p ∈ t.picks id r hop, ¬ t.jumps r p := by
  intro p hp
  simpa using List.find?_eq_none.1 h p hp

lemma Unrivalled.commits {p : Pick σ} (h : t.Unrivalled id r hop p) : t.Commits id r hop p := by
  intro q hq
  obtain ⟨hmem, hjumps⟩ := jumps_of_commitment hq
  exact h q hmem hjumps

/-- Reading goes on at the target of the first redirect that can be taken. -/
lemma parseFrom_of_commitment {p : Pick σ} {target : NodeId} (h : t.commitment? id r hop = some p)
    (htarget : (t.node p.node).target? = some target) :
    t.parseFrom id r hop =
      (t.parseFrom target (r.advance (p.passed + 1))
        (landing hop.source target (r.advance (p.passed + 1)))).behind p.hop := by
  obtain ⟨-, hjumps⟩ := jumps_of_commitment h
  obtain ⟨-, before, after, hpicks, hbefore⟩ := List.find?_eq_some_iff_append.1 h
  cases hjump : (stepOf t r p).jump? with
  | none => exact absurd hjumps (not_jumps_iff.2 hjump)
  | some j =>
    obtain ⟨-, hj, hhop, hpassed⟩ := stepOf_jump hjump
    have hfirst : ((t.picks id r hop).findSome? fun p => (stepOf t r p).jump?) = some j := by
      refine List.findSome?_eq_some_iff.2 ⟨before, p, after, hpicks, hjump, fun q hq => ?_⟩
      exact not_jumps_iff.1 (by simpa using hbefore q hq)
    obtain rfl : target = j.target := Option.some.inj (htarget.symm.trans hj)
    rw [parseFrom, findSome?_jump, hfirst]
    simp only [hhop, hpassed]
    rfl

/-- Reading follows its rule. -/
theorem guidedWalk_parseFrom (t : CommandTree σ) (id : NodeId) (r : Reader) (hop : Hop σ) :
    t.GuidedWalk t.Commits id r hop (t.parseFrom id r hop) := by
  induction hlength : r.rest.length using Nat.strongRecOn generalizing id r hop with
  | ind n ih =>
    subst hlength
    cases hcommitment : t.commitment? id r hop with
    | some p =>
      obtain ⟨hp, hmore, hsome⟩ := jumps_of_commitment hcommitment
      obtain ⟨target, htarget⟩ := Option.isSome_iff_exists.1 hsome
      have hrule : t.Commits id r hop p := by
        intro q hq
        exact Option.some.inj (hq.symm.trans hcommitment)
      rw [parseFrom_of_commitment hcommitment htarget]
      exact .jump p hp hrule hmore htarget
        (ih _ (Reader.length_rest_advance_lt hmore.passed_lt) _ _ _ rfl)
    | none =>
      have hnot := not_jumps_of_commitment hcommitment
      have hrule : ∀ p, t.Commits id r hop p := by
        intro p q hq
        rw [hcommitment] at hq
        cases hq
      rw [parseFrom_of_not_jump hnot]
      cases hbest : ParseResult.best? ((t.picks id r hop).map (reading t r)) with
      | none => exact .deadEnd (List.map_eq_nil_iff.1 (ParseResult.best?_eq_none hbest))
      | some w =>
        obtain ⟨p, hp, rfl⟩ := List.mem_map.1 (ParseResult.mem_of_best? hbest)
        rw [Option.getD_some]
        unfold reading
        split
        · next hmore =>
          have hplain : (t.node p.node).target? = none := by
            by_contra hsome
            exact hnot p hp ⟨hmore, Option.isSome_iff_ne_none.2 hsome⟩
          exact .onward p hp (hrule p) hmore hplain
            (ih _ (Reader.length_rest_advance_lt hmore.passed_lt) _ _ _ rfl)
        · next hends => exact .stop p hp (hrule p) hends

end CommandTree

/-- Of several readings a complete one is kept if there is one. -/
lemma ParseResult.isComplete_best {l : List (ParseResult σ)} {w default : ParseResult σ} (hw : w ∈ l)
    (hcomplete : w.isComplete = true) : ((best? l).getD default).isComplete = true := by
  have hrank : ∀ s : ParseResult σ, s.isComplete = true ↔ s.rank < 2 := by
    intro s
    unfold isComplete rank
    cases s.reader.canRead <;> cases s.failures.isEmpty <;> decide
  cases hbest : best? l with
  | none =>
    rw [best?_eq_none hbest] at hw
    cases hw
  | some b =>
    have hle : ¬ w.rank < b.rank := by
      rw [rank_lt_rank, not_lt]
      exact List.le_of_mem_argmin hw (best?_eq_argmin l ▸ hbest)
    rw [hrank] at hcomplete
    rw [Option.getD_some, hrank]
    omega

namespace CommandTree

variable {t t' : CommandTree σ} {id : NodeId} {r : Reader} {hop : Hop σ} {w : ParseResult σ}

/-- What a walk by the rule of reading reads to its end, reading reads to its end. -/
lemma GuidedWalk.isComplete (h : t.GuidedWalk t.Commits id r hop w) (hcomplete : w.isComplete = true) :
    (t.parseFrom id r hop).isComplete = true := by
  -- a pick that takes no redirect is allowed only where none can be taken, so it is among the readings
  have hkept : ∀ {id : NodeId} {r : Reader} {hop : Hop σ} {p : Pick σ}, p ∈ t.picks id r hop →
      t.Commits id r hop p → ¬ t.jumps r p → (reading t r p).isComplete = true →
        (t.parseFrom id r hop).isComplete = true := by
    intro id r hop p hp hrule hstays hreading
    have hnone : t.commitment? id r hop = none := by
      cases hcommitment : t.commitment? id r hop with
      | none => rfl
      | some q =>
        have hjumps := (jumps_of_commitment hcommitment).2
        rw [hrule q hcommitment] at hjumps
        exact absurd hjumps hstays
    rw [parseFrom_of_not_jump (not_jumps_of_commitment hnone)]
    exact ParseResult.isComplete_best (List.mem_map_of_mem hp) hreading
  induction h with
  | stop p hp hrule hends =>
    refine hkept hp hrule (fun hjumps => hends hjumps.1) ?_
    rw [reading, if_neg hends]
    exact hcomplete
  | onward p hp hrule hmore hplain _ ih =>
    refine hkept hp hrule (fun hjumps => ?_) ?_
    · simpa [hplain] using hjumps.2
    · rw [reading, if_pos hmore]
      exact ih hcomplete
  | @jump id target r hop w p hp hrule hmore htarget _ ih =>
    have hjumps : t.jumps r p := ⟨hmore, by simp [htarget]⟩
    cases hcommitment : t.commitment? id r hop with
    | none => exact absurd hjumps (not_jumps_of_commitment hcommitment p hp)
    | some q =>
      obtain rfl : q = p := hrule q hcommitment
      rw [parseFrom_of_commitment hcommitment htarget]
      exact ih hcomplete
  | @deadEnd id r hop hstuck =>
    have hnot : ∀ p ∈ t.picks id r hop, ¬ t.jumps r p := by
      rw [hstuck]
      simp
    rw [parseFrom_of_not_jump hnot, hstuck]
    exact hcomplete

/-- A reading is complete if and only if some walk by its rule is. -/
theorem isComplete_parseFrom_iff (t : CommandTree σ) (id : NodeId) (r : Reader) (hop : Hop σ) :
    (t.parseFrom id r hop).isComplete = true ↔
      ∃ w, t.GuidedWalk t.Commits id r hop w ∧ w.isComplete = true := by
  constructor
  · intro hcomplete
    exact ⟨_, t.guidedWalk_parseFrom id r hop, hcomplete⟩
  · rintro ⟨w, hwalk, hcomplete⟩
    exact hwalk.isComplete hcomplete

end CommandTree

/-! ## The order of siblings -/

/-- A hop with other numbers for its nodes. -/
def Hop.renumber (f : NodeId → NodeId) (hop : Hop σ) : Hop σ :=
  { hop with root := f hop.root, nodes := hop.nodes.map fun m => { m with node := f m.node } }

/-- A pick with other numbers for its nodes. -/
def Pick.renumber (f : NodeId → NodeId) (p : Pick σ) : Pick σ := ⟨f p.node, p.hop.renumber f, p.passed⟩

lemma Hop.renumber_withNode (f : NodeId → NodeId) (hop : Hop σ) (id : NodeId) (span : Span)
    (modifier : Option (Modifier σ)) (forks : Bool) :
    (hop.withNode id span modifier forks).renumber f =
      (hop.renumber f).withNode (f id) span modifier forks := by
  simp [Hop.renumber, Hop.withNode]

/-- What is looked for in a list is found wherever it stands, if nothing else is like it. -/
lemma find?_eq_of_perm {α : Type} {l m : List α} {p : α → Bool} (h : l.Perm m)
    (hsole : ∀ a ∈ l, ∀ b ∈ l, p a = true → p b = true → a = b) : l.find? p = m.find? p := by
  cases hl : l.find? p with
  | none =>
    refine (List.find?_eq_none.2 fun a ha => ?_).symm
    exact List.find?_eq_none.1 hl a (h.mem_iff.2 ha)
  | some a =>
    have ha := List.mem_of_find?_eq_some hl
    cases hm : m.find? p with
    | none => exact absurd (List.find?_some hl) (List.find?_eq_none.1 hm a (h.mem_iff.1 ha))
    | some b =>
      have hb := h.mem_iff.2 (List.mem_of_find?_eq_some hm)
      rw [hsole a ha b hb (List.find?_some hl) (List.find?_some hm)]

/-- The same node where nodes have other numbers, with its children in another order. -/
structure Node.Reordered (f : NodeId → NodeId) (n n' : Node σ) : Prop where
  pattern : n'.pattern = n.pattern
  handler : n'.handler = n.handler
  requirement : n'.requirement = n.requirement
  redirect : n'.redirect = n.redirect.map fun r => { r with target := f r.target }
  children : n'.children.Perm (n.children.map fun e => (e.1, f e.2))

namespace Node.Reordered

variable {f : NodeId → NodeId} {n n' : Node σ}

lemma isLiteral (h : Reordered f n n') : n'.isLiteral = n.isLiteral := by
  rw [Node.isLiteral, Node.isLiteral, h.pattern]

lemma target? (h : Reordered f n n') : n'.target? = n.target?.map f := by
  simp only [Node.target?, h.redirect, Option.map_map]
  rfl

lemma modifier? (h : Reordered f n n') : n'.modifier? = n.modifier? := by
  rw [Node.modifier?, Node.modifier?, h.redirect]
  cases n.redirect <;> rfl

lemma forks (h : Reordered f n n') : n'.forks = n.forks := by
  rw [Node.forks, Node.forks, h.redirect]
  cases n.redirect <;> rfl

lemma canUse (h : Reordered f n n') (source : σ) : n'.canUse source = n.canUse source := by
  rw [Node.canUse, Node.canUse, h.requirement]

end Node.Reordered

namespace CommandTree

/-- The same tree with siblings in another order and nodes under other numbers, as it comes about when
siblings are registered in another order. -/
structure Reordered (f : NodeId → NodeId) (t t' : CommandTree σ) : Prop where
  root : f rootId = rootId
  node : ∀ id, (t.node id).Reordered f (t'.node (f id))

variable {t t' : CommandTree σ} {f : NodeId → NodeId} {id : NodeId} {r : Reader} {hop : Hop σ}

namespace Reordered

lemma matchNode (h : Reordered f t t') (c : NodeId) :
    t'.matchNode r (hop.renumber f) (f c) =
      (t.matchNode r hop c).map fun taken => (taken.1.renumber f, taken.2) := by
  unfold CommandTree.matchNode
  simp only [(h.node c).pattern, (h.node c).modifier?, (h.node c).forks]
  cases (t.node c).pattern with
  | none => rfl
  | some p =>
    cases p with
    | literal keyword =>
      cases hscan : (Scan.keyword keyword r.rest).outcome with
      | error e => simp [hscan, Except.map]
      | ok _ => simp [hscan, Except.map, Hop.renumber_withNode]
    | argument name type provider =>
      have hsource : (hop.renumber f).source = hop.source := rfl
      rw [hsource]
      cases hscan : (type.scan (some hop.source) r.rest).outcome with
      | error e => simp [hscan, Except.map]
      | ok value =>
        simp only [hscan, Except.map, Hop.renumber_withNode]
        rfl

lemma matchToken (h : Reordered f t t') (c : NodeId) :
    t'.matchToken r (hop.renumber f) (f c) =
      (t.matchToken r hop c).map fun taken => (taken.1.renumber f, taken.2) := by
  unfold CommandTree.matchToken
  rw [h.matchNode]
  cases t.matchNode r hop c with
  | error e => rfl
  | ok taken =>
    obtain ⟨reached, passed⟩ := taken
    simp only [Except.map, (h.node c).handler]
    split <;> rfl

lemma pick? (h : Reordered f t t') (c : NodeId) :
    t'.pick? r (hop.renumber f) (f c) = (t.pick? r hop c).map (Pick.renumber f) := by
  unfold CommandTree.pick?
  rw [h.matchToken]
  cases t.matchToken r hop c <;> rfl

lemma literals (h : Reordered f t t') (id : NodeId) :
    (t'.literals (f id)).Perm ((t.literals id).map fun e => (e.1, f e.2)) := by
  have hperm := (h.node id).children.filter fun e => (t'.node e.2).isLiteral
  rw [List.filter_map] at hperm
  simpa only [CommandTree.literals, Function.comp_def, (h.node _).isLiteral] using hperm

lemma arguments (h : Reordered f t t') (id : NodeId) :
    (t'.arguments (f id)).Perm ((t.arguments id).map fun e => (e.1, f e.2)) := by
  have hperm := (h.node id).children.filter fun e => !(t'.node e.2).isLiteral
  rw [List.filter_map] at hperm
  simpa only [CommandTree.arguments, Function.comp_def, (h.node _).isLiteral] using hperm

/-- Names are distinct, so the order in which keywords stand does not matter. -/
lemma find?_literals (ht : t.WellShaped) (h : Reordered f t t') (id : NodeId) (token : List Char) :
    ((t'.literals (f id)).find? fun e => e.1.toList = token) =
      ((t.literals id).find? fun e => e.1.toList = token).map fun e => (e.1, f e.2) := by
  rw [← find?_eq_of_perm (h.literals id).symm, List.find?_map]
  · rfl
  · intro a ha b hb hpa hpb
    obtain ⟨e, he, rfl⟩ := List.mem_map.1 ha
    obtain ⟨e', he', rfl⟩ := List.mem_map.1 hb
    have hname : e.1 = e'.1 := by
      simp only [decide_eq_true_eq] at hpa hpb
      exact String.toList_inj.1 (hpa.trans hpb.symm)
    rw [List.inj_on_of_nodup_map (ht.distinct id) (List.mem_of_mem_filter he)
      (List.mem_of_mem_filter he') hname]

lemma candidates (ht : t.WellShaped) (h : Reordered f t t') (id : NodeId) (text : List Char) :
    (t'.candidates (f id) text).Perm ((t.candidates id text).map f) := by
  unfold CommandTree.candidates
  simp only [h.find?_literals ht]
  cases (t.literals id).find? fun e => e.1.toList = text.takeWhile (· ≠ separator) with
  | some e => simp
  | none =>
    have hperm := (h.arguments id).map Prod.snd
    simpa [List.map_map, Function.comp_def] using hperm

lemma picks (ht : t.WellShaped) (h : Reordered f t t') (id : NodeId) (r : Reader) (hop : Hop σ) :
    (t'.picks (f id) r (hop.renumber f)).Perm ((t.picks id r hop).map (Pick.renumber f)) := by
  have husable : (t'.usable (f id) r.rest hop.source).Perm ((t.usable id r.rest hop.source).map f) := by
    have hperm := (h.candidates ht id r.rest).filter fun c => (t'.node c).canUse hop.source
    rw [List.filter_map] at hperm
    simpa only [usable, Function.comp_def, (h.node _).canUse] using hperm
  have hpicks := husable.filterMap (t'.pick? r (hop.renumber f))
  have hsource : (hop.renumber f).source = hop.source := rfl
  rw [List.filterMap_map] at hpicks
  rw [CommandTree.picks, hsource]
  simpa only [CommandTree.picks, List.map_filterMap, Function.comp_def, h.pick?] using hpicks

lemma goesOn (h : Reordered f t t') (p : Pick σ) : t'.goesOn r (p.renumber f) ↔ t.goesOn r p := by
  simp only [CommandTree.goesOn, needs, Pick.renumber, (h.node p.node).target?, Option.isSome_map]

lemma jumps (h : Reordered f t t') (p : Pick σ) : t'.jumps r (p.renumber f) ↔ t.jumps r p := by
  have hsome : (t'.node (p.renumber f).node).target?.isSome = (t.node p.node).target?.isSome := by
    rw [Pick.renumber, (h.node p.node).target?, Option.isSome_map]
  rw [CommandTree.jumps, CommandTree.jumps, h.goesOn, hsome]

lemma unrivalled (ht : t.WellShaped) (h : Reordered f t t') {p : Pick σ} (hp : t.Unrivalled id r hop p) :
    t'.Unrivalled (f id) r (hop.renumber f) (p.renumber f) := by
  intro q hq hjumps
  obtain ⟨q', hq', rfl⟩ := List.mem_map.1 ((h.picks ht id r hop).mem_iff.1 hq)
  rw [hp q' hq' ((h.jumps q').1 hjumps)]

/-- A walk without rivals leads as far in the reordered tree. -/
theorem guidedWalk (ht : t.WellShaped) (h : Reordered f t t') {w : ParseResult σ}
    (hwalk : t.GuidedWalk t.Unrivalled id r hop w) :
    ∃ w', t'.GuidedWalk t'.Unrivalled (f id) r (hop.renumber f) w' ∧ w'.reader = w.reader := by
  have hmem : ∀ {id : NodeId} {r : Reader} {hop : Hop σ} {p : Pick σ}, p ∈ t.picks id r hop →
      p.renumber f ∈ t'.picks (f id) r (hop.renumber f) := by
    intro id r hop p hp
    exact (h.picks ht id r hop).mem_iff.2 (List.mem_map_of_mem hp)
  induction hwalk with
  | stop p hp hrule hends =>
    exact ⟨_, .stop _ (hmem hp) (h.unrivalled ht hrule) (fun hmore => hends ((h.goesOn p).1 hmore)), rfl⟩
  | onward p hp hrule hmore hplain _ ih =>
    obtain ⟨w', hwalk', hreader⟩ := ih
    refine ⟨w', .onward _ (hmem hp) (h.unrivalled ht hrule) ((h.goesOn p).2 hmore) ?_ hwalk', hreader⟩
    rw [Pick.renumber, (h.node p.node).target?, hplain]
    rfl
  | jump p hp hrule hmore htarget _ ih =>
    obtain ⟨w', hwalk', hreader⟩ := ih
    refine ⟨_, .jump _ (hmem hp) (h.unrivalled ht hrule) ((h.goesOn p).2 hmore) ?_ hwalk', hreader⟩
    rw [Pick.renumber, (h.node p.node).target?, htarget]
    rfl
  | @deadEnd id r hop hstuck =>
    refine ⟨_, .deadEnd ?_, rfl⟩
    have hperm := h.picks ht id r hop
    rw [hstuck, List.map_nil] at hperm
    exact hperm.eq_nil

end Reordered

/-- A walk without rivals that reads everything is not lost by the reordering of siblings. -/
theorem Reordered.isComplete_parse (ht : t.WellShaped) (h : Reordered f t t') {input : String} {source : σ}
    {w : ParseResult σ}
    (hwalk : t.GuidedWalk t.Unrivalled rootId (.ofString input) (.start source rootId 0) w)
    (hcomplete : w.isComplete = true) : (t'.parse input source).isComplete = true := by
  obtain ⟨w', hwalk', hreader⟩ := h.guidedWalk ht hwalk
  have hstart : (Hop.start source rootId 0).renumber f = .start source rootId 0 := by
    simp [Hop.renumber, Hop.start, h.root]
  rw [h.root, hstart] at hwalk'
  have hcomplete' : w'.isComplete = true := by
    rw [ParseResult.isComplete, hreader]
    exact hcomplete
  exact (hwalk'.mono fun _ _ _ _ => Unrivalled.commits).isComplete hcomplete'

/-- No two children of a node redirect. -/
def LoneRedirects (t : CommandTree σ) : Prop :=
  ∀ id < t.size, ∀ c ∈ t.children id, ∀ d ∈ t.children id,
    (t.node c).target?.isSome → (t.node d).target?.isSome → c = d

/-- Then the rule of reading does not depend on the order of siblings. -/
lemma Commits.unrivalled (ht : t.LoneRedirects) {p : Pick σ} (h : t.Commits id r hop p) :
    t.Unrivalled id r hop p := by
  intro q hq hjumps
  have hchild : ∀ p ∈ t.picks id r hop, p.node ∈ t.children id := fun p hp =>
    mem_children_of_mem_candidates (mem_usable.1 (mem_picks.1 hp).1).1
  cases hcommitment : t.commitment? id r hop with
  | none => exact absurd hjumps (not_jumps_of_commitment hcommitment q hq)
  | some first =>
    obtain ⟨hfirst, hjumps'⟩ := jumps_of_commitment hcommitment
    have hnode : q.node = first.node := by
      by_cases hlt : id < t.size
      · exact ht id hlt _ (hchild q hq) _ (hchild first hfirst) hjumps.2 hjumps'.2
      · have hmem := hchild q hq
        rw [children, node_of_size_le (Nat.le_of_not_lt hlt)] at hmem
        cases hmem
    -- both picks are what the one node matches
    have htaken := (mem_picks.1 hq).2
    rw [hnode, (mem_picks.1 hfirst).2, Except.ok.injEq, Prod.mk.injEq] at htaken
    obtain ⟨node, reached, passed⟩ := q
    obtain ⟨rfl, rfl⟩ := htaken
    obtain rfl := hnode
    exact h first hcommitment

/-- Where no two siblings redirect, their order does not decide whether an input is read to its end. -/
theorem isComplete_parse_of_loneRedirects (ht : t.WellShaped) (hlone : t.LoneRedirects)
    (h : Reordered f t t') {input : String} {source : σ}
    (hcomplete : (t.parse input source).isComplete = true) : (t'.parse input source).isComplete = true :=
  h.isComplete_parse ht ((t.guidedWalk_parseFrom ..).mono fun _ _ _ _ => Commits.unrivalled hlone) hcomplete

/-- An input is read to its end if and only if some walk from the root reads it to its end that takes,
wherever redirects can be taken, the first of them.  So a walk that reads everything and meets no other
redirect on its way is not lost, whatever the order of siblings. -/
theorem isComplete_parse_iff (ht : t.Reachable) (input : String) (source : σ) :
    ((t.parse input source).isComplete = true ↔
        ∃ w, t.GuidedWalk t.Commits rootId (.ofString input) (.start source rootId 0) w ∧
          w.isComplete = true) ∧
      ∀ f t', Reordered f t t' →
        (∃ w, t.GuidedWalk t.Unrivalled rootId (.ofString input) (.start source rootId 0) w ∧
          w.isComplete = true) →
        (t'.parse input source).isComplete = true := by
  refine ⟨t.isComplete_parseFrom_iff rootId (.ofString input) (.start source rootId 0), ?_⟩
  rintro f t' h ⟨w, hwalk, hcomplete⟩
  exact h.isComplete_parse ht.wellShaped hwalk hcomplete

/-! ## Walks that are missed -/

/-- An argument that leads back to the root, and beside it one that takes all the text. -/
def errand : CommandTree Unit :=
  ⟨#[{ Node.root with children := [("ask", 1)] },
    ⟨some (.literal "ask"), [("times", 2), ("text", 3)], none, none, none⟩,
    ⟨some (.argument "times" (.integer .full) none), [], none, none, some ⟨rootId, none, false⟩⟩,
    ⟨some (.argument "text" (.text .greedy) none), [], some fun _ => .ok 1, none, none⟩]⟩

/-- The same with the two arguments in the other order. -/
def errandTurned : CommandTree Unit :=
  ⟨#[{ Node.root with children := [("ask", 1)] },
    ⟨some (.literal "ask"), [("text", 2), ("times", 3)], none, none, none⟩,
    ⟨some (.argument "text" (.text .greedy) none), [], some fun _ => .ok 1, none, none⟩,
    ⟨some (.argument "times" (.integer .full) none), [], none, none, some ⟨rootId, none, false⟩⟩]⟩

/-- The argument that leads back. -/
def timesSpec : NodeSpec Unit :=
  { NodeSpec.ofPattern (.argument "times" (.integer .full) none) with
    redirect := some ⟨rootId, none, false⟩ }

/-- The argument that takes all the text. -/
def textSpec : NodeSpec Unit :=
  { NodeSpec.ofPattern (.argument "text" (.text .greedy) none) with handler := some fun _ => .ok 1 }

lemma errand_reachable : errand.Reachable :=
  .register (s := { NodeSpec.ofPattern (.literal "ask") with children := [timesSpec, textSpec] }) .empty rfl

lemma errandTurned_reachable : errandTurned.Reachable :=
  .register (s := { NodeSpec.ofPattern (.literal "ask") with children := [textSpec, timesSpec] }) .empty rfl

/-- The numbers of the two arguments swapped. -/
def turn : NodeId → NodeId
  | 2 => 3
  | 3 => 2
  | id => id

lemma errand_reordered : Reordered turn errand errandTurned := by
  refine ⟨rfl, fun id => ?_⟩
  match id with
  | 0 => exact ⟨rfl, rfl, rfl, rfl, .refl _⟩
  | 1 => exact ⟨rfl, rfl, rfl, rfl, .swap _ _ _⟩
  | 2 => exact ⟨rfl, rfl, rfl, rfl, .refl _⟩
  | 3 => exact ⟨rfl, rfl, rfl, rfl, .refl _⟩
  | n + 4 =>
    have hn : errand.node (n + 4) = .root := node_of_size_le (Nat.le_add_left 4 n)
    have hturned : errandTurned.node (turn (n + 4)) = .root := node_of_size_le (Nat.le_add_left 4 n)
    rw [hn, hturned]
    exact ⟨rfl, rfl, rfl, rfl, .refl _⟩

lemma errand_loneRedirects : errand.LoneRedirects := by
  unfold LoneRedirects
  decide

/-- No number follows the keyword, so nothing keeps the walk by the text from being found. -/
theorem isComplete_parse_iff_errand :
    errand.Reachable ∧ Reordered turn errand errandTurned ∧
      (errandTurned.parse "ask me now" ()).isComplete = true := by
  refine ⟨errand_reachable, errand_reordered, ?_⟩
  refine (isComplete_parse_iff errand_reachable "ask me now" ()).2 _ _ errand_reordered
    ⟨errand.parse "ask me now" (), ?_, ?_⟩
  · exact (errand.guidedWalk_parseFrom ..).mono fun _ _ _ _ => Commits.unrivalled errand_loneRedirects
  · decide +kernel

/-- Whatever some walk from the root reads to its end is read to its end. -/
def LosesNothing (t : CommandTree σ) : Prop :=
  ∀ (input : String) (source : σ),
    (∃ w, t.Walk rootId (.ofString input) (.start source rootId 0) w ∧ w.isComplete = true) →
      (t.parse input source).isComplete = true

lemma not_losesNothing_of_walks (input : String) (source : σ)
    (hwalks : ((t.walks rootId (.ofString input) (.start source rootId 0)).any ParseResult.isComplete) = true)
    (hparse : (t.parse input source).isComplete = false) : ¬ t.LosesNothing := by
  intro h
  obtain ⟨w, hw, hcomplete⟩ := List.any_eq_true.1 hwalks
  have hread := h input source ⟨w, walk_of_mem_walks hw, hcomplete⟩
  rw [hparse] at hread
  cases hread

/-- A number commits the reading to the root again, where nothing matches; the walk by the text, which
reads everything, is missed, in either order of the two. -/
theorem not_losesNothing :
    (errand.Reachable ∧ ¬ errand.LosesNothing) ∧ errandTurned.Reachable ∧ ¬ errandTurned.LosesNothing := by
  refine ⟨⟨errand_reachable, ?_⟩, errandTurned_reachable, ?_⟩
  · exact not_losesNothing_of_walks "ask 5 now" () (by decide +kernel) (by decide +kernel)
  · exact not_losesNothing_of_walks "ask 5 now" () (by decide +kernel) (by decide +kernel)

end CommandTree
end CommandEngine
