import CommandEngine.Proofs.Commitment
import Mathlib.Data.List.Forall2

/-!
# Readings that go the same way

Reading decides at every place by what can be picked there and by how the readings of the picks compare.  So two
readings, of different inputs or in different trees, go the same way if at related places the same is picked, in
the same order, and each pick leads to related places again.  `CommandTree.Simulates` collects what has to be
shown of a relation between places and one between outcomes, place by place, and
`CommandTree.Simulates.parseFrom` is what follows for whole readings.
-/

namespace CommandEngine

variable {σ : Type}

/-! ## Choosing from related outcomes -/

lemma ParseResult.best?_related {W : ParseResult σ → ParseResult σ → Prop}
    (hrank : ∀ {w w'}, W w w' → w.rank = w'.rank) {l l' : List (ParseResult σ)} (h : List.Forall₂ W l l') :
    Option.Rel W (best? l) (best? l') := by
  induction h with
  | nil => exact .none
  | @cons a b l l' hab _ ih =>
    simp only [best?]
    cases hl : best? l with
    | none =>
      cases hl' : best? l' with
      | none => exact .some hab
      | some w' =>
        rw [hl, hl'] at ih
        cases ih
    | some w =>
      cases hl' : best? l' with
      | none =>
        rw [hl, hl'] at ih
        cases ih
      | some w' =>
        rw [hl, hl'] at ih
        obtain ⟨hw⟩ := ih
        simp only [hrank hab, hrank hw]
        split
        · exact .some hw
        · exact .some hab

namespace CommandTree

/-! ## Related places -/

/-- Where reading has come to: below a node, at a place of the input, with what the current hop has matched. -/
structure Place (σ : Type) where
  node : NodeId
  reader : Reader
  hop : Hop σ

namespace Place

variable (t : CommandTree σ) (a : Place σ)

def picks : List (Pick σ) := t.picks a.node a.reader a.hop

/-- The place below a pick, after the separator. -/
def below (p : Pick σ) : Place σ := ⟨p.node, a.reader.advance (p.passed + 1), p.hop⟩

/-- The place at the target of a pick, after the separator. -/
def across (p : Pick σ) (target : NodeId) : Place σ :=
  ⟨target, a.reader.advance (p.passed + 1), landing a.hop.source target (a.reader.advance (p.passed + 1))⟩

/-- What reading makes of the rest of the input. -/
def outcome : ParseResult σ := t.parseFrom a.node a.reader a.hop

def impasse : ParseResult σ := t.impasse a.node a.reader a.hop

end Place

variable (t t' : CommandTree σ) (P : Place σ → Place σ → Prop) (W : ParseResult σ → ParseResult σ → Prop)

/-- Two picks lead the same way: both end the reading, both lead on below their nodes, or both redirect. -/
inductive Parallel (a b : Place σ) (p q : Pick σ) : Prop
  | stop (ends : ¬ t.goesOn a.reader p) (ends' : ¬ t'.goesOn b.reader q)
      (related : W (arrival a.reader p) (arrival b.reader q))
  | onward (more : t.goesOn a.reader p) (more' : t'.goesOn b.reader q)
      (plain : (t.node p.node).target? = none) (plain' : (t'.node q.node).target? = none)
      (related : P (a.below p) (b.below q))
  | jump {target target' : NodeId} (more : t.goesOn a.reader p) (more' : t'.goesOn b.reader q)
      (redirects : (t.node p.node).target? = some target)
      (redirects' : (t'.node q.node).target? = some target')
      (related : P (a.across p target) (b.across q target'))
      (carried : ∀ {w w'}, W w w' → W (w.behind p.hop) (w'.behind q.hop))

/-- At related places the same is picked, in the same order; where nothing is, the outcomes are related; and
related outcomes are equally good. -/
structure Simulates : Prop where
  picks : ∀ {a b}, P a b → List.Forall₂ (Parallel t t' P W a b) (a.picks t) (b.picks t')
  stuck : ∀ {a b}, P a b → a.picks t = [] → W (a.impasse t) (b.impasse t')
  rank : ∀ {w w'}, W w w' → w.rank = w'.rank

variable {t t' P W} {a b : Place σ} {p q : Pick σ}

lemma Parallel.jumps_iff (h : Parallel t t' P W a b p q) : t.jumps a.reader p ↔ t'.jumps b.reader q := by
  cases h with
  | stop ends ends' => exact ⟨fun hp => absurd hp.1 ends, fun hq => absurd hq.1 ends'⟩
  | onward _ _ plain plain' => simp [jumps, plain, plain']
  | jump more more' redirects redirects' => simp [jumps, more, more', redirects, redirects']

lemma forall₂_find? {α β : Type} {R : α → β → Prop} {f : α → Bool} {g : β → Bool}
    (hfg : ∀ {x y}, R x y → f x = g y) {l : List α} {l' : List β} (h : List.Forall₂ R l l') :
    Option.Rel R (l.find? f) (l'.find? g) := by
  induction h with
  | nil => exact .none
  | @cons x y l l' hxy _ ih =>
    rw [List.find?_cons, List.find?_cons, ← hfg hxy]
    cases f x with
    | true => exact .some hxy
    | false => exact ih

/-- The first redirects that can be taken stand at the same position. -/
lemma Simulates.commitment (h : Simulates t t' P W) (hab : P a b) :
    Option.Rel (Parallel t t' P W a b) (t.commitment? a.node a.reader a.hop)
      (t'.commitment? b.node b.reader b.hop) :=
  forall₂_find? (fun hpq => decide_eq_decide.2 hpq.jumps_iff) (h.picks hab)

/-- Picks that take no redirect lead to related outcomes if that is known of the places below them. -/
lemma Parallel.reading (h : Parallel t t' P W a b p q) (hnot : ¬ t.jumps a.reader p)
    (hbelow : t.goesOn a.reader p → P (a.below p) (b.below q) →
      W ((a.below p).outcome t) ((b.below q).outcome t')) :
    W (t.reading a.reader p) (t'.reading b.reader q) := by
  cases h with
  | stop ends ends' related =>
    rw [CommandTree.reading, CommandTree.reading, if_neg ends, if_neg ends']
    exact related
  | onward more more' _ _ related =>
    rw [CommandTree.reading, CommandTree.reading, if_pos more, if_pos more']
    exact hbelow more related
  | jump more _ redirects => exact absurd ⟨more, by rw [redirects]; rfl⟩ hnot

/-- From related places reading comes to related outcomes. -/
theorem Simulates.parseFrom (h : Simulates t t' P W) (hab : P a b) : W (a.outcome t) (b.outcome t') := by
  -- every pick takes at least the separator, so the text ahead gets shorter
  induction hlength : a.reader.rest.length using Nat.strongRecOn generalizing a b with
  | ind n ih =>
    subst hlength
    unfold Place.outcome
    have hcommitment := h.commitment hab
    generalize hp : t.commitment? a.node a.reader a.hop = first at hcommitment
    generalize hq : t'.commitment? b.node b.reader b.hop = first' at hcommitment
    cases hcommitment with
    | some hpq =>
      obtain ⟨-, hmore, hsome⟩ := jumps_of_commitment hp
      cases hpq with
      | stop ends => exact absurd hmore ends
      | onward _ _ plain => simp [plain] at hsome
      | jump more more' redirects redirects' related carried =>
        rw [parseFrom_of_commitment hp redirects, parseFrom_of_commitment hq redirects']
        exact carried (ih _ (Reader.length_rest_advance_lt hmore.passed_lt) related rfl)
    | none =>
      have hnot := not_jumps_of_commitment hp
      rw [parseFrom_of_not_jump hnot, parseFrom_of_not_jump (not_jumps_of_commitment hq)]
      have hreadings : List.Forall₂ W ((a.picks t).map (reading t a.reader))
          ((b.picks t').map (reading t' b.reader)) := by
        rw [List.forall₂_map_left_iff, List.forall₂_map_right_iff]
        refine ((List.forall₂_and_left _ _).2 ⟨hnot, h.picks hab⟩).imp fun p q ⟨hp, hpq⟩ => ?_
        exact hpq.reading hp fun hmore hbelow =>
          ih _ (Reader.length_rest_advance_lt hmore.passed_lt) hbelow rfl
      have hbest := ParseResult.best?_related h.rank hreadings
      generalize hl : ParseResult.best? ((a.picks t).map (reading t a.reader)) = best at hbest
      generalize hl' : ParseResult.best? ((b.picks t').map (reading t' b.reader)) = best' at hbest
      unfold Place.picks at hl hl'
      rw [hl, hl']
      cases hbest with
      | some hw => exact hw
      | none => exact h.stuck hab (List.map_eq_nil_iff.1 (ParseResult.best?_eq_none hl))

end CommandTree
end CommandEngine
