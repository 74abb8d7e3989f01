import CommandEngine.Parse
import Mathlib.Data.List.Basic

/-!
# Walks through a command tree

`CommandTree.parseFrom` follows one redirect or chooses among several readings.  This file describes
what it chooses from.  A *walk* from a node at a place picks a candidate whose token matches; if
enough input follows, it skips the separator and goes on, at the target of the candidate if that
redirects and at the candidate itself otherwise; else it ends there.  Where no candidate matches, the
walk is at a dead end and carries the errors of the candidates.

* `CommandTree.picks` are the matching candidates at a place, in the order of registration, and
  `CommandTree.refusals` are the errors of the others;
* `CommandTree.Walk` is the relation between a node, a place, what the current hop has matched so far and
  the outcome of a walk from there;
* `CommandTree.parseFrom_of_jump` and `CommandTree.parseFrom_of_not_jump` say what reading does in terms of
  the picks;
* `CommandTree.walk_parseFrom` says that reading follows a walk, whatever the tree looks like.

Nothing here assumes anything about the tree: redirects may form cycles, since every step of a walk
takes at least the separator from the input.
-/

namespace CommandEngine

variable {σ : Type}

/-! ## Matching candidates -/

/-- A candidate whose token matches: the hop with the node recorded, and the number of characters of
the token. -/
structure Pick (σ : Type) where
  node : NodeId
  hop : Hop σ
  passed : Nat

namespace CommandTree

variable (t : CommandTree σ)

/-- A candidate as a pick, if its token matches. -/
def pick? (r : Reader) (hop : Hop σ) (c : NodeId) : Option (Pick σ) :=
  match t.matchToken r hop c with
  | .ok (reached, passed) => some ⟨c, reached, passed⟩
  | .error _ => none

/-- A candidate with its error, if its token does not match. -/
def refusal? (r : Reader) (hop : Hop σ) (c : NodeId) : Option (NodeId × SyntaxError) :=
  match t.matchToken r hop c with
  | .ok _ => none
  | .error e => some (c, e)

/-- The candidates that the source may use and whose token matches, in order. -/
def picks (id : NodeId) (r : Reader) (hop : Hop σ) : List (Pick σ) :=
  (t.usable id r.rest hop.source).filterMap (t.pick? r hop)

/-- The errors of the candidates that the source may use and whose token does not match, in order. -/
def refusals (id : NodeId) (r : Reader) (hop : Hop σ) : List (NodeId × SyntaxError) :=
  (t.usable id r.rest hop.source).filterMap (t.refusal? r hop)

/-- The characters that have to be left after a token for reading to go on: the separator, and one more
unless the node redirects. -/
def needs (c : NodeId) : Nat := if (t.node c).target?.isSome then 1 else 2

/-- Whether enough is left after a pick for reading to go on. -/
def goesOn (r : Reader) (p : Pick σ) : Prop := p.passed + t.needs p.node ≤ r.rest.length

instance (r : Reader) (p : Pick σ) : Decidable (t.goesOn r p) :=
  inferInstanceAs (Decidable (_ ≤ _))

variable {t}

lemma mem_picks {id : NodeId} {r : Reader} {hop : Hop σ} {p : Pick σ} :
    p ∈ t.picks id r hop ↔
      p.node ∈ t.usable id r.rest hop.source ∧ t.matchToken r hop p.node = .ok (p.hop, p.passed) := by
  obtain ⟨c, reached, passed⟩ := p
  simp only [picks, pick?, List.mem_filterMap]
  constructor
  · rintro ⟨d, hd, hpick⟩
    split at hpick
    · next h =>
      simp only [Option.some.injEq, Pick.mk.injEq] at hpick
      obtain ⟨rfl, rfl, rfl⟩ := hpick
      exact ⟨hd, h⟩
    · simp at hpick
  · rintro ⟨hc, htoken⟩
    exact ⟨c, hc, by simp [htoken]⟩

lemma goesOn.passed_lt {r : Reader} {p : Pick σ} (h : t.goesOn r p) : p.passed < r.rest.length := by
  unfold goesOn needs at h
  split at h <;> omega

lemma goesOn_of_target {r : Reader} {p : Pick σ} {target : NodeId}
    (htarget : (t.node p.node).target? = some target) :
    t.goesOn r p ↔ p.passed < r.rest.length := by
  simp only [goesOn, needs, htarget, Option.isSome_some, if_true]
  omega

lemma goesOn_of_no_target {r : Reader} {p : Pick σ} (htarget : (t.node p.node).target? = none) :
    t.goesOn r p ↔ p.passed + 1 < r.rest.length := by
  simp only [goesOn, needs, htarget, Option.isSome_none]
  rfl

/-! ## What a token records -/

/-- What the hop looks like after a token: the node is recorded with the text it covers, and brings along
its handler, its modifier and its fork flag. -/
structure Takes (t : CommandTree σ) (r : Reader) (hop : Hop σ) (c : NodeId) (reached : Hop σ)
    (passed : Nat) : Prop where
  ends : endsToken (r.rest.drop passed) = true
  source_eq : reached.source = hop.source
  root_eq : reached.root = hop.root
  nodes_eq : reached.nodes = hop.nodes ++ [⟨c, r.ahead passed⟩]
  span_eq : reached.span = hop.span.union (r.ahead passed)
  handler_eq : reached.handler = (t.node c).handler
  modifier_eq : reached.modifier = (t.node c).modifier?
  forks_eq : reached.forks = (t.node c).forks
  keyword : ∀ k, (t.node c).pattern = some (.literal k) → r.rest.take passed = k.toList

lemma take_of_keyword {k : String} {text : List Char}
    (h : (Scan.keyword k text).outcome = .ok ()) :
    text.take (Scan.keyword k text).passed = k.toList := by
  unfold Scan.keyword at h ⊢
  split
  · next hfound =>
    rw [Bool.and_eq_true, List.isPrefixOf_iff_prefix] at hfound
    exact (List.prefix_iff_eq_take.1 hfound.1).symm
  · next hnot =>
    rw [if_neg hnot] at h
    cases h

lemma takes_of_matchToken {r : Reader} {hop reached : Hop σ} {c : NodeId} {passed : Nat}
    (hpattern : ∃ p, (t.node c).pattern = some p)
    (h : t.matchToken r hop c = .ok (reached, passed)) : t.Takes r hop c reached passed := by
  obtain ⟨p, hp⟩ := hpattern
  unfold matchToken at h
  split at h
  · cases h
  · next hop' passed' hmatch =>
    split at h
    · next hends =>
      simp only [Except.ok.injEq, Prod.mk.injEq] at h
      obtain ⟨rfl, rfl⟩ := h
      unfold matchNode at hmatch
      simp only [hp] at hmatch
      cases p with
      | literal k =>
        simp only at hmatch
        split at hmatch
        · cases hmatch
        · next hscan =>
          simp only [Except.ok.injEq, Prod.mk.injEq] at hmatch
          obtain ⟨rfl, rfl⟩ := hmatch
          refine ⟨hends, rfl, rfl, rfl, rfl, rfl, rfl, rfl, fun k' hk => ?_⟩
          rw [hp] at hk
          cases hk
          exact take_of_keyword hscan
      | argument name type provider =>
        simp only at hmatch
        split at hmatch
        · cases hmatch
        · simp only [Except.ok.injEq, Prod.mk.injEq] at hmatch
          obtain ⟨rfl, rfl⟩ := hmatch
          refine ⟨hends, rfl, rfl, rfl, rfl, rfl, rfl, rfl, fun k' hk => ?_⟩
          rw [hp] at hk
          cases hk
    · cases h

/-! ## Candidates are children -/

lemma mem_children_of_mem_candidates {id c : NodeId} {text : List Char}
    (h : c ∈ t.candidates id text) : c ∈ t.children id := by
  unfold candidates at h
  simp only at h
  split at h
  · next name literal hfind =>
    have hmem := List.mem_of_find?_eq_some hfind
    rw [List.mem_singleton] at h
    subst h
    exact List.mem_map.2 ⟨_, List.mem_of_mem_filter hmem, rfl⟩
  · obtain ⟨entry, hmem, rfl⟩ := List.mem_map.1 h
    exact List.mem_map.2 ⟨entry, List.mem_of_mem_filter hmem, rfl⟩

lemma mem_usable {id c : NodeId} {text : List Char} {source : σ} :
    c ∈ t.usable id text source ↔ c ∈ t.candidates id text ∧ (t.node c).canUse source = true :=
  List.mem_filter

end CommandTree

/-! ## Walks -/

namespace CommandTree

/-- The hop that a redirect starts at a place. -/
def landing (source : σ) (target : NodeId) (r : Reader) : Hop σ := .start source target r.cursor

/-- The outcome of a walk that ends with a pick. -/
def arrival (r : Reader) (p : Pick σ) : ParseResult σ := ⟨.single p.hop, r.advance p.passed, []⟩

/-- The outcome of a walk at a place where no candidate matches. -/
def impasse (t : CommandTree σ) (id : NodeId) (r : Reader) (hop : Hop σ) : ParseResult σ :=
  ⟨.single hop, r, t.refusals id r hop⟩

end CommandTree

/-- A hop put in front of the hops of an outcome. -/
def ParseResult.behind (hop : Hop σ) (w : ParseResult σ) : ParseResult σ :=
  { w with trail := .cons hop w.trail }

namespace CommandTree

/-- The outcomes of the walks from a node at a place, with what the current hop has matched so far. -/
inductive Walk (t : CommandTree σ) : NodeId → Reader → Hop σ → ParseResult σ → Prop
  /-- Not enough is left to go on. -/
  | stop {id : NodeId} {r : Reader} {hop : Hop σ} (p : Pick σ) (picked : p ∈ t.picks id r hop)
      (ends : ¬ t.goesOn r p) : Walk t id r hop (arrival r p)
  /-- The walk goes on below the candidate. -/
  | onward {id : NodeId} {r : Reader} {hop : Hop σ} {w : ParseResult σ} (p : Pick σ)
      (picked : p ∈ t.picks id r hop) (more : t.goesOn r p) (plain : (t.node p.node).target? = none)
      (next : Walk t p.node (r.advance (p.passed + 1)) p.hop w) : Walk t id r hop w
  /-- The walk goes on at the target of the candidate, in a new hop. -/
  | jump {id target : NodeId} {r : Reader} {hop : Hop σ} {w : ParseResult σ} (p : Pick σ)
      (picked : p ∈ t.picks id r hop) (more : t.goesOn r p)
      (redirects : (t.node p.node).target? = some target)
      (next : Walk t target (r.advance (p.passed + 1))
        (landing hop.source target (r.advance (p.passed + 1))) w) :
      Walk t id r hop (w.behind p.hop)
  /-- No candidate matches. -/
  | deadEnd {id : NodeId} {r : Reader} {hop : Hop σ} (stuck : t.picks id r hop = []) :
      Walk t id r hop (t.impasse id r hop)

/-! ## Reading in terms of picks -/

section Steps

variable {t : CommandTree σ} {id : NodeId} {r : Reader} {hop : Hop σ}

/-- How things stand after a pick. -/
def stepOf (t : CommandTree σ) (r : Reader) (p : Pick σ) : Step σ r :=
  match (t.node p.node).target? with
  | some target =>
    if h : p.passed < r.rest.length then .jump target p.hop p.passed h else .arrived p.hop p.passed
  | none =>
    if h : p.passed + 1 < r.rest.length then .onward p.node p.hop p.passed (Nat.lt_of_succ_lt h)
    else .arrived p.hop p.passed

lemma stepAt_of_ok {c : NodeId} {taken : Hop σ × Nat} (h : t.matchToken r hop c = .ok taken) :
    t.stepAt r hop c = stepOf t r ⟨c, taken.1, taken.2⟩ := by
  rw [stepAt, h]
  rfl

lemma stepAt_of_error {c : NodeId} {e : SyntaxError} (h : t.matchToken r hop c = .error e) :
    t.stepAt r hop c = .failed c e := by
  rw [stepAt, h]

/-- What a function that ignores failures collects from the steps, it collects from the picks. -/
lemma filterMap_steps {β : Type} (f : Step σ r → Option β) (hf : ∀ d e, f (.failed d e) = none) :
    ((t.usable id r.rest hop.source).map (t.stepAt r hop)).filterMap f =
      (t.picks id r hop).filterMap fun p => f (stepOf t r p) := by
  rw [picks, List.filterMap_map, List.filterMap_filterMap]
  congr 1
  funext c
  simp only [Function.comp_apply, pick?]
  cases htoken : t.matchToken r hop c with
  | ok taken => simp [stepAt_of_ok htoken]
  | error e => simp [stepAt_of_error htoken, hf]

lemma stepOf_failure (p : Pick σ) : (stepOf t r p).failure? = none := by
  unfold stepOf
  cases (t.node p.node).target? <;> simp only <;> split <;> rfl

lemma filterMap_failures :
    ((t.usable id r.rest hop.source).map (t.stepAt r hop)).filterMap Step.failure? =
      t.refusals id r hop := by
  rw [refusals, List.filterMap_map]
  congr 1
  funext c
  simp only [Function.comp_apply, refusal?]
  cases htoken : t.matchToken r hop c with
  | ok taken => simp [stepAt_of_ok htoken, stepOf_failure]
  | error e => simp [stepAt_of_error htoken, Step.failure?]

/-- A pick takes a redirect if it has one and enough is left. -/
lemma stepOf_jump {p : Pick σ} {j : Step.Jump σ r} (h : (stepOf t r p).jump? = some j) :
    t.goesOn r p ∧ (t.node p.node).target? = some j.target ∧ j.hop = p.hop ∧ j.passed = p.passed := by
  unfold stepOf at h
  cases htarget : (t.node p.node).target? with
  | none =>
    rw [htarget] at h
    simp only at h
    split at h <;> simp [Step.jump?] at h
  | some target =>
    rw [htarget] at h
    simp only at h
    split at h
    · next hmore =>
      simp only [Step.jump?, Option.some.injEq] at h
      subst h
      exact ⟨(goesOn_of_target htarget).2 hmore, rfl, rfl, rfl⟩
    · simp [Step.jump?] at h

/-- A pick that takes no redirect ends the walk or leads on below the node. -/
lemma stepOf_of_no_jump {p : Pick σ} (h : (stepOf t r p).jump? = none) :
    (¬ t.goesOn r p ∧ stepOf t r p = .arrived p.hop p.passed) ∨
      ∃ hmore : t.goesOn r p, (t.node p.node).target? = none ∧
        stepOf t r p = .onward p.node p.hop p.passed hmore.passed_lt := by
  unfold stepOf at h ⊢
  cases htarget : (t.node p.node).target? with
  | none =>
    simp only
    split
    · next hmore => exact .inr ⟨(goesOn_of_no_target htarget).2 hmore, trivial, rfl⟩
    · next hmore => exact .inl ⟨fun hgo => hmore ((goesOn_of_no_target htarget).1 hgo), rfl⟩
  | some target =>
    simp only [htarget] at h ⊢
    split
    · next hmore => simp [hmore, Step.jump?] at h
    · next hmore => exact .inl ⟨fun hgo => hmore ((goesOn_of_target htarget).1 hgo), rfl⟩

end Steps

section Reading

variable {t : CommandTree σ} {id : NodeId} {r : Reader} {hop : Hop σ}

/-- What reading makes of a pick that takes no redirect. -/
def reading (t : CommandTree σ) (r : Reader) (p : Pick σ) : ParseResult σ :=
  if t.goesOn r p then t.parseFrom p.node (r.advance (p.passed + 1)) p.hop else arrival r p

/-- Whether a pick takes a redirect. -/
def jumps (t : CommandTree σ) (r : Reader) (p : Pick σ) : Prop :=
  t.goesOn r p ∧ (t.node p.node).target?.isSome

lemma findSome?_jump :
    ((t.usable id r.rest hop.source).map (t.stepAt r hop)).findSome? Step.jump? =
      (t.picks id r hop).findSome? fun p => (stepOf t r p).jump? := by
  rw [← List.head?_filterMap, ← List.head?_filterMap, filterMap_steps Step.jump? fun _ _ => rfl]

lemma not_jumps_iff {p : Pick σ} : ¬ t.jumps r p ↔ (stepOf t r p).jump? = none := by
  constructor
  · intro hnot
    cases hjump : (stepOf t r p).jump? with
    | none => rfl
    | some j =>
      obtain ⟨hmore, htarget, -, -⟩ := stepOf_jump hjump
      exact absurd ⟨hmore, by simp [htarget]⟩ hnot
  · rintro hnone ⟨hmore, hsome⟩
    rcases stepOf_of_no_jump hnone with ⟨hends, -⟩ | ⟨-, hplain, -⟩
    · exact hends hmore
    · simp [hplain] at hsome

/-- The first redirect that is taken decides. -/
lemma parseFrom_of_jump (h : ∃ p ∈ t.picks id r hop, t.jumps r p) :
    ∃ p ∈ t.picks id r hop, ∃ target, t.goesOn r p ∧ (t.node p.node).target? = some target ∧
      t.parseFrom id r hop =
        (t.parseFrom target (r.advance (p.passed + 1))
          (landing hop.source target (r.advance (p.passed + 1)))).behind p.hop := by
  cases hfind : (t.picks id r hop).findSome? fun p => (stepOf t r p).jump? with
  | none =>
    obtain ⟨p, hp, hjumps⟩ := h
    exact absurd hjumps (not_jumps_iff.2 (List.findSome?_eq_none_iff.1 hfind p hp))
  | some j =>
    obtain ⟨p, hp, hjump⟩ := List.exists_of_findSome?_eq_some hfind
    obtain ⟨hmore, htarget, hhop, hpassed⟩ := stepOf_jump hjump
    refine ⟨p, hp, j.target, hmore, htarget, ?_⟩
    rw [parseFrom, findSome?_jump, hfind]
    simp only [hhop, hpassed]
    rfl

/-- Where no redirect is taken, the best of the readings of all picks is chosen. -/
lemma parseFrom_of_not_jump (h : ∀ p ∈ t.picks id r hop, ¬ t.jumps r p) :
    t.parseFrom id r hop =
      (ParseResult.best? ((t.picks id r hop).map (reading t r))).getD (t.impasse id r hop) := by
  have hfind : ((t.picks id r hop).findSome? fun p => (stepOf t r p).jump?) = none :=
    List.findSome?_eq_none_iff.2 fun p hp => not_jumps_iff.1 (h p hp)
  rw [parseFrom, findSome?_jump, hfind]
  simp only
  rw [filterMap_failures, filterMap_steps _ fun _ _ => rfl]
  congr 2
  -- every pick now arrives or leads on, so none is left out
  rw [← List.filterMap_eq_map]
  refine List.filterMap_congr fun p hp => ?_
  rcases stepOf_of_no_jump (not_jumps_iff.1 (h p hp)) with ⟨hends, hstep⟩ | ⟨hmore, -, hstep⟩
  · rw [hstep]
    simp [reading, hends, arrival]
  · rw [hstep]
    simp [reading, hmore]

end Reading
end CommandTree

/-! ## Reading follows a walk -/

lemma ParseResult.mem_of_best? {l : List (ParseResult σ)} {w : ParseResult σ}
    (h : ParseResult.best? l = some w) : w ∈ l := by
  induction l with
  | nil => simp [best?] at h
  | cons a l ih =>
    simp only [best?] at h
    split at h
    · simp_all
    · next s hs =>
      split at h
      · exact List.mem_cons_of_mem _ (ih (hs.trans h))
      · simp_all

lemma ParseResult.best?_eq_none {l : List (ParseResult σ)} (h : ParseResult.best? l = none) :
    l = [] := by
  cases l with
  | nil => rfl
  | cons a l =>
    simp only [best?] at h
    split at h
    · simp at h
    · split at h <;> simp at h

namespace CommandTree

/-- Reading follows a walk. -/
theorem walk_parseFrom (t : CommandTree σ) (id : NodeId) (r : Reader) (hop : Hop σ) :
    t.Walk id r hop (t.parseFrom id r hop) := by
  -- every step takes at least the separator, so the text ahead gets shorter
  induction hlength : r.rest.length using Nat.strongRecOn generalizing id r hop with
  | ind n ih =>
    subst hlength
    by_cases hjump : ∃ p ∈ t.picks id r hop, t.jumps r p
    · obtain ⟨p, hp, target, hmore, htarget, heq⟩ := parseFrom_of_jump hjump
      rw [heq]
      exact .jump p hp hmore htarget
        (ih _ (Reader.length_rest_advance_lt hmore.passed_lt) _ _ _ rfl)
    · have hnot : ∀ p ∈ t.picks id r hop, ¬ t.jumps r p := fun p hp h => hjump ⟨p, hp, h⟩
      rw [parseFrom_of_not_jump hnot]
      cases hbest : ParseResult.best? ((t.picks id r hop).map (reading t r)) with
      | none =>
        exact .deadEnd (List.map_eq_nil_iff.1 (ParseResult.best?_eq_none hbest))
      | some w =>
        obtain ⟨p, hp, rfl⟩ := List.mem_map.1 (ParseResult.mem_of_best? hbest)
        rw [Option.getD_some]
        unfold reading
        split
        · next hmore =>
          have hplain : (t.node p.node).target? = none := by
            by_contra hsome
            exact hnot p hp ⟨hmore, Option.isSome_iff_ne_none.2 hsome⟩
          exact .onward p hp hmore hplain
            (ih _ (Reader.length_rest_advance_lt hmore.passed_lt) _ _ _ rfl)
        · next hends => exact .stop p hp hends

end CommandTree
end CommandEngine
