import CommandEngine.Proofs.Tree.Shape
import CommandEngine.Proofs.Walk
import Mathlib.Data.List.MinMax
import Mathlib.Data.Prod.Lex

/-!
# The best walk

Reading chooses at every place the best of the readings of the candidates there, and where a redirect is
taken it does not even look at the other candidates.  This file shows that the local choices amount to
a global one: where no argument that redirects has another argument beside it, the result is the
outcome of the first best walk among all walks from the root.

* `ParseResult.cost` is what a walk is judged by: input that is left over, then errors;
* `CommandTree.walks` lists the outcomes of all walks from a place, depth first and in the order of
  registration, and `CommandTree.mem_walks` says that it lists just the walks;
* `CommandTree.argmin_walks` is the result for every place on the way, and
  `CommandTree.parse_eq_best_walk` the one for whole inputs.
-/

namespace CommandEngine

variable {σ : Type}

/-! ## First minima of joined lists -/

section Argmin

variable {α β γ : Type} [LinearOrder γ] {key : β → γ}

/-- The first minimum of two joined lists is one of theirs, the first list having precedence. -/
lemma argmin_append (l m : List β) :
    (l ++ m).argmin key =
      match l.argmin key, m.argmin key with
      | none, b => b
      | some a, none => some a
      | some a, some b => if key b < key a then some b else some a := by
  induction l with
  | nil => rfl
  | cons x l ih =>
    rw [List.cons_append, List.argmin_cons, List.argmin_cons, ih]
    cases l.argmin key with
    | none => cases m.argmin key <;> rfl
    | some a =>
      cases m.argmin key with
      | none => by_cases hax : key a < key x <;> simp [hax]
      | some b =>
        -- whichever of the three keys is least, both sides keep its first holder
        by_cases hba : key b < key a <;> by_cases hax : key a < key x <;> by_cases hbx : key b < key x
        all_goals simp only [hba, hax, hbx, if_true, if_false]
        · exact absurd (hba.trans hax) hbx
        · exact absurd (lt_of_lt_of_le hbx (not_lt.1 hax)) hba

/-- The first minimum of lists joined in order is that of their own first minima. -/
lemma argmin_flatMap {l : List α} {f : α → List β} {g : α → β}
    (h : ∀ a ∈ l, (f a).argmin key = some (g a)) :
    (l.flatMap f).argmin key = (l.map g).argmin key := by
  induction l with
  | nil => rfl
  | cons a l ih =>
    have hrest := ih fun b hb => h b (List.mem_cons_of_mem _ hb)
    rw [List.flatMap_cons, argmin_append, h a (List.mem_cons_self ..), hrest, List.map_cons,
      List.argmin_cons]
    cases (l.map g).argmin key <;> rfl

lemma argmin_map {f : β → β} (h : ∀ b, key (f b) = key b) (l : List β) :
    (l.map f).argmin key = (l.argmin key).map f := by
  induction l with
  | nil => rfl
  | cons b l ih =>
    rw [List.map_cons, List.argmin_cons, List.argmin_cons, ih]
    cases l.argmin key with
    | none => rfl
    | some a => by_cases hlt : key a < key b <;> simp [h, hlt]

end Argmin

/-! ## What a walk is judged by -/

namespace ParseResult

/-- Whether input is left over, then whether there are errors. -/
def cost (r : ParseResult σ) : Bool ×ₗ Bool := toLex (r.reader.canRead, !r.failures.isEmpty)

lemma rank_lt_rank {r s : ParseResult σ} : s.rank < r.rank ↔ s.cost < r.cost := by
  unfold rank cost
  cases s.reader.canRead <;> cases s.failures.isEmpty <;> cases r.reader.canRead <;>
    cases r.failures.isEmpty <;> decide

/-- The reading that is kept is the first one of least cost. -/
lemma best?_eq_argmin (l : List (ParseResult σ)) : best? l = l.argmin cost := by
  induction l with
  | nil => rfl
  | cons r l ih =>
    rw [best?, ih, List.argmin_cons]
    cases l.argmin cost with
    | none => rfl
    | some s => simp only [rank_lt_rank]

@[simp] lemma cost_behind (hop : Hop σ) (w : ParseResult σ) : (w.behind hop).cost = w.cost := rfl

end ParseResult

/-! ## All walks in order -/

namespace CommandTree

/-- The outcomes of all walks from a node at a place, depth first and in the order of registration. -/
def walks (t : CommandTree σ) (id : NodeId) (r : Reader) (hop : Hop σ) : List (ParseResult σ) :=
  if (t.picks id r hop).isEmpty then [t.impasse id r hop]
  else (t.picks id r hop).flatMap fun p =>
    if h : t.goesOn r p then
      have := Reader.length_rest_advance_lt h.passed_lt
      let next := r.advance (p.passed + 1)
      match (t.node p.node).target? with
      | some target => (walks t target next (landing hop.source target next)).map (.behind p.hop)
      | none => walks t p.node next p.hop
    else [arrival r p]
termination_by r.rest.length
decreasing_by all_goals assumption

/-- The outcomes of the walks that begin with a pick. -/
def walksBy (t : CommandTree σ) (r : Reader) (hop : Hop σ) (p : Pick σ) : List (ParseResult σ) :=
  if t.goesOn r p then
    match (t.node p.node).target? with
    | some target =>
      (t.walks target (r.advance (p.passed + 1))
        (landing hop.source target (r.advance (p.passed + 1)))).map (.behind p.hop)
    | none => t.walks p.node (r.advance (p.passed + 1)) p.hop
  else [arrival r p]

variable {t : CommandTree σ} {id : NodeId} {r : Reader} {hop : Hop σ}

lemma walks_of_stuck (h : t.picks id r hop = []) : t.walks id r hop = [t.impasse id r hop] := by
  rw [walks, h]
  rfl

lemma walks_of_picks (h : t.picks id r hop ≠ []) :
    t.walks id r hop = (t.picks id r hop).flatMap (t.walksBy r hop) := by
  have hne : (t.picks id r hop).isEmpty = false := by simpa using h
  rw [walks, hne]
  rfl

lemma walk_of_mem_walks {w : ParseResult σ} (hw : w ∈ t.walks id r hop) : t.Walk id r hop w := by
  induction hlength : r.rest.length using Nat.strongRecOn generalizing id r hop w with
  | ind n ih =>
    subst hlength
    by_cases hstuck : t.picks id r hop = []
    · rw [walks_of_stuck hstuck, List.mem_singleton] at hw
      exact hw ▸ .deadEnd hstuck
    · rw [walks_of_picks hstuck, List.mem_flatMap] at hw
      obtain ⟨p, hp, hw⟩ := hw
      unfold walksBy at hw
      split at hw
      · next hmore =>
        have hless := Reader.length_rest_advance_lt hmore.passed_lt
        cases htarget : (t.node p.node).target? with
        | some target =>
          rw [htarget] at hw
          obtain ⟨w', hw', rfl⟩ := List.mem_map.1 hw
          exact .jump p hp hmore htarget (ih _ hless hw' rfl)
        | none =>
          rw [htarget] at hw
          exact .onward p hp hmore htarget (ih _ hless hw rfl)
      · next hends =>
        rw [List.mem_singleton] at hw
        exact hw ▸ .stop p hp hends

lemma mem_walks_of_walk {w : ParseResult σ} (hw : t.Walk id r hop w) : w ∈ t.walks id r hop := by
  -- a walk that begins with a pick is among the walks by that pick
  have hby : ∀ {id : NodeId} {r : Reader} {hop : Hop σ} {w : ParseResult σ} (p : Pick σ),
      p ∈ t.picks id r hop → w ∈ t.walksBy r hop p → w ∈ t.walks id r hop := by
    intro id r hop w p hp hw
    rw [walks_of_picks (List.ne_nil_of_mem hp)]
    exact List.mem_flatMap.2 ⟨p, hp, hw⟩
  induction hw with
  | stop p hp hends =>
    refine hby p hp ?_
    simp [walksBy, hends]
  | onward p hp hmore hplain _ ih =>
    refine hby p hp ?_
    simpa [walksBy, hmore, hplain] using ih
  | jump p hp hmore htarget _ ih =>
    refine hby p hp ?_
    simp only [walksBy, if_pos hmore, htarget]
    exact List.mem_map_of_mem ih
  | deadEnd hstuck => simp [walks_of_stuck hstuck]

/-- The list has the outcomes of walks and nothing else. -/
theorem mem_walks {w : ParseResult σ} : w ∈ t.walks id r hop ↔ t.Walk id r hop w :=
  ⟨walk_of_mem_walks, mem_walks_of_walk⟩

/-! ## Local choices and the global one -/

/-- An argument that redirects is the only argument of its parent. -/
def SoleRedirects (t : CommandTree σ) : Prop :=
  ∀ id < t.size, ∀ c ∈ t.arguments id, (t.node c.2).redirect.isSome → t.arguments id = [c]

/-- Then a candidate that redirects has no other candidate beside it. -/
lemma SoleRedirects.usable_eq (h : t.SoleRedirects) {c : NodeId} {text : List Char} {source : σ}
    (hc : c ∈ t.usable id text source) (hredirect : (t.node c).redirect.isSome) :
    t.usable id text source = [c] := by
  obtain ⟨hcandidate, hcanUse⟩ := mem_usable.1 hc
  have hall : t.candidates id text = [c] := by
    unfold candidates at hcandidate ⊢
    simp only at hcandidate ⊢
    split at hcandidate
    · rw [List.mem_singleton] at hcandidate
      rw [hcandidate]
    · obtain ⟨entry, hentry, rfl⟩ := List.mem_map.1 hcandidate
      have hlt : id < t.size := by
        by_contra hge
        have hroot : t.node id = .root := node_of_size_le (Nat.le_of_not_lt hge)
        simp [arguments, hroot, Node.root] at hentry
      rw [h id hlt entry hentry hredirect]
      rfl
  simp [usable, hall, hcanUse]

lemma SoleRedirects.picks_eq (h : t.SoleRedirects) {p : Pick σ} (hp : p ∈ t.picks id r hop)
    (hredirect : (t.node p.node).redirect.isSome) : t.picks id r hop = [p] := by
  obtain ⟨husable, htoken⟩ := mem_picks.1 hp
  rw [picks, h.usable_eq husable hredirect]
  simp [pick?, htoken]

/-- The reading from a place is the first best walk from there. -/
theorem argmin_walks (h : t.SoleRedirects) (id : NodeId) (r : Reader) (hop : Hop σ) :
    (t.walks id r hop).argmin ParseResult.cost = some (t.parseFrom id r hop) := by
  induction hlength : r.rest.length using Nat.strongRecOn generalizing id r hop with
  | ind n ih =>
    subst hlength
    by_cases hjump : ∃ p ∈ t.picks id r hop, t.jumps r p
    · -- the redirect that is taken is the only candidate, so nothing is passed over
      obtain ⟨p, hp, target, hmore, htarget, heq⟩ := parseFrom_of_jump hjump
      have hredirect : (t.node p.node).redirect.isSome := by
        unfold Node.target? at htarget
        cases hr : (t.node p.node).redirect with
        | none => simp [hr] at htarget
        | some _ => rfl
      have honly := h.picks_eq hp hredirect
      have hinner := ih _ (Reader.length_rest_advance_lt hmore.passed_lt) target _
        (landing hop.source target (r.advance (p.passed + 1))) rfl
      have hby : (t.walksBy r hop p).argmin ParseResult.cost = some (t.parseFrom id r hop) := by
        rw [walksBy, if_pos hmore, htarget, heq]
        simp only
        rw [argmin_map (ParseResult.cost_behind p.hop), hinner, Option.map_some]
      rw [walks_of_picks (by simp [honly]), honly]
      simpa using hby
    · have hnot : ∀ p ∈ t.picks id r hop, ¬ t.jumps r p := fun p hp h => hjump ⟨p, hp, h⟩
      rw [parseFrom_of_not_jump hnot]
      by_cases hstuck : t.picks id r hop = []
      · rw [walks_of_stuck hstuck, hstuck]
        rfl
      · have hby : ∀ p ∈ t.picks id r hop,
            (t.walksBy r hop p).argmin ParseResult.cost = some (reading t r p) := by
          intro p hp
          unfold walksBy reading
          split
          · next hmore =>
            have hplain : (t.node p.node).target? = none := by
              by_contra hsome
              exact hnot p hp ⟨hmore, Option.isSome_iff_ne_none.2 hsome⟩
            rw [hplain]
            exact ih _ (Reader.length_rest_advance_lt hmore.passed_lt) _ _ _ rfl
          · rfl
        rw [walks_of_picks hstuck, argmin_flatMap hby, ParseResult.best?_eq_argmin]
        cases hbest : ((t.picks id r hop).map (reading t r)).argmin ParseResult.cost with
        | none => exact absurd (List.map_eq_nil_iff.1 (List.argmin_eq_none.1 hbest)) hstuck
        | some w => rfl

/-- Reading a whole input gives the outcome of the first walk of least cost, in depth-first order of
registration, among all walks from the root.  So an input is read to its end if and only if some walk
consumes it. -/
theorem parse_eq_best_walk (h : t.SoleRedirects) (input : String) (source : σ) :
    (t.walks rootId (.ofString input) (.start source rootId 0)).argmin ParseResult.cost =
        some (t.parse input source) ∧
      ((t.parse input source).isComplete = true ↔
        ∃ w, t.Walk rootId (.ofString input) (.start source rootId 0) w ∧ w.isComplete = true) := by
  have hbest := argmin_walks h rootId (.ofString input) (.start source rootId 0)
  refine ⟨hbest, fun hcomplete => ⟨_, t.walk_parseFrom .., hcomplete⟩, ?_⟩
  rintro ⟨w, hwalk, hcomplete⟩
  have hle : (t.parse input source).cost ≤ w.cost := List.le_of_mem_argmin (mem_walks.2 hwalk) hbest
  unfold ParseResult.isComplete at hcomplete ⊢
  unfold ParseResult.cost at hle
  rw [Bool.not_eq_true'] at hcomplete ⊢
  rw [hcomplete, Prod.Lex.toLex_le_toLex] at hle
  rcases hle with hlt | ⟨heq, -⟩
  · exact absurd hlt (by simp)
  · exact heq

/-- An argument that leads back to the root, and two arguments that accept the same token. -/
def relay : CommandTree Unit :=
  ⟨#[{ Node.root with children := [("as", 1), ("give", 3)] },
    ⟨some (.literal "as"), [("who", 2)], none, none, none⟩,
    ⟨some (.argument "who" (.text .word) none), [], none, none, some ⟨rootId, none, false⟩⟩,
    ⟨some (.literal "give"), [("count", 4), ("item", 5)], none, none, none⟩,
    ⟨some (.argument "count" (.integer .full) none), [], some fun _ => .ok 1, none, none⟩,
    ⟨some (.argument "item" (.text .word) none), [("now", 6)], none, none, none⟩,
    ⟨some (.literal "now"), [], some fun _ => .ok 2, none, none⟩]⟩

lemma relay_soleRedirects : relay.SoleRedirects := by
  unfold SoleRedirects
  decide

/-- The walk by the number comes first and gets stuck; the one by the word reads everything. -/
theorem parse_eq_best_walk_relay :
    relay.SoleRedirects ∧
      ((relay.walks rootId (.ofString "as bob give 5 now") (.start () rootId 0)).map
        ParseResult.isComplete) = [false, true] ∧
      (relay.walks rootId (.ofString "as bob give 5 now") (.start () rootId 0)).argmin
        ParseResult.cost = some (relay.parse "as bob give 5 now" ()) :=
  ⟨relay_soleRedirects, by decide +kernel, (parse_eq_best_walk relay_soleRedirects _ _).1⟩

end CommandTree
end CommandEngine
