import CommandEngine.Proofs.Completion.Anchor
import CommandEngine.Proofs.Settling

/-!
# Completion does not look past the offset

What is completed at an offset depends on the input up to there only (`CommandTree.anchor?_parse_cut`): an input
that is cut off at the offset has the same anchor.

The two readings are compared token by token.  As long as tokens end before the cut, they are settled and both
readings take them.  The first token that does not end before the cut may be read differently, since a keyword
may lose its end, a phrase its closing quote and a number its last digits, but whatever becomes of it, all
further anchors are past the offset.

This needs that a node has at most one argument, so that there is at most one candidate at every place
(`CommandTree.LoneArguments`): of several readings the whole input decides which is the best.
-/

namespace CommandEngine

variable {σ : Type}

/-! ## Inputs that are continued -/

namespace Reader

/-- The same place in an input that is continued. -/
def extend (r : Reader) (after : List Char) : Reader := ⟨r.past, r.rest ++ after⟩

@[simp] lemma extend_nil (r : Reader) : r.extend [] = r := by
  simp [extend]

@[simp] lemma cursor_extend (r : Reader) (after : List Char) : (r.extend after).cursor = r.cursor := rfl

@[simp] lemma rest_extend (r : Reader) (after : List Char) : (r.extend after).rest = r.rest ++ after := rfl

lemma advance_extend {r : Reader} {n : Nat} (h : n ≤ r.rest.length) (after : List Char) :
    (r.extend after).advance n = (r.advance n).extend after := by
  simp [extend, advance, List.take_append_of_le_length h, List.drop_append_of_le_length h]

lemma totalWidth_advance (r : Reader) (n : Nat) : (r.advance n).totalWidth = r.totalWidth := by
  rw [totalWidth_eq, chars_advance, ← totalWidth_eq]

/-- A place that has left the input behind, as far as it was there before it was continued. -/
lemma totalWidth_le_cursor_advance {r : Reader} {n : Nat} (h : r.rest.length ≤ n) (after : List Char) :
    r.totalWidth ≤ ((r.extend after).advance n).cursor := by
  rw [cursor_advance, cursor_extend, rest_extend, List.take_append, List.take_of_length_le h,
    Text.width_append, totalWidth, remainingWidth]
  omega

end Reader

namespace CommandTree

variable {t : CommandTree σ} {id : NodeId} {r : Reader} {hop : Hop σ}

/-- A token that ends before the end of the input is followed by a separator. -/
lemma exists_token_of_endsToken {rest after : List Char} {n : Nat} (hn : n < rest.length)
    (hends : endsToken ((rest ++ after).drop n) = true) :
    ∃ token x, rest = token ++ separator :: x ∧ token.length = n := by
  rw [List.drop_append_of_le_length (Nat.le_of_lt hn), List.drop_eq_getElem_cons hn] at hends
  have hsep : rest[n] = separator := beq_iff_eq.1 hends
  refine ⟨rest.take n, rest.drop (n + 1), ?_, List.length_take_of_le (Nat.le_of_lt hn)⟩
  rw [← hsep, ← List.drop_eq_getElem_cons hn, List.take_append_drop]

/-- What is picked before the end of the input is picked however the input is continued. -/
lemma mem_picks_extend (ht : t.WellShaped) (hbuiltIn : t.BuiltIn) {p : Pick σ} {x : List Char}
    (hp : p ∈ t.picks id (r.extend x) hop) (hpassed : p.passed < r.rest.length) (y : List Char) :
    p ∈ t.picks id (r.extend y) hop := by
  obtain ⟨token, more, hrest, hlength⟩ :=
    exists_token_of_endsToken hpassed (takes_of_mem_picks ht hp).ends
  have hextend : ∀ z, r.extend z = ⟨r.past, token ++ separator :: (more ++ z)⟩ := by
    intro z
    simp [Reader.extend, hrest]
  rw [hextend] at hp ⊢
  exact mem_picks_of_settled hbuiltIn.settling hp hlength.symm (more ++ y)

/-! ## Trees with one candidate at a place -/

/-- No node has more than one argument. -/
def LoneArguments (t : CommandTree σ) : Prop := ∀ id < t.size, (t.arguments id).length ≤ 1

lemma LoneArguments.candidates_length (h : t.LoneArguments) (id : NodeId) (text : List Char) :
    (t.candidates id text).length ≤ 1 := by
  unfold candidates
  simp only
  split
  · exact Nat.le_refl 1
  · rw [List.length_map]
    by_cases hid : id < t.size
    · exact h id hid
    · simp [arguments, node_of_size_le (Nat.le_of_not_lt hid), Node.root]

lemma LoneArguments.picks_length (h : t.LoneArguments) (id : NodeId) (r : Reader) (hop : Hop σ) :
    (t.picks id r hop).length ≤ 1 :=
  calc (t.picks id r hop).length
      ≤ (t.usable id r.rest hop.source).length := List.length_filterMap_le _ _
    _ ≤ (t.candidates id r.rest).length := List.length_filter_le _ _
    _ ≤ 1 := h.candidates_length id r.rest

lemma LoneArguments.picks_eq (h : t.LoneArguments) {p : Pick σ} (hp : p ∈ t.picks id r hop) :
    t.picks id r hop = [p] := by
  obtain ⟨q, hq⟩ := List.length_eq_one_iff.1
    (Nat.le_antisymm (h.picks_length id r hop) (List.length_pos_of_mem hp))
  rw [hq] at hp ⊢
  rw [List.mem_singleton.1 hp]

/-! ## Readings that agree -/

/-- What two readings have matched after some nodes leads to the same anchors up to an offset. -/
def AgreeUpTo (t : CommandTree σ) (offset : Nat) (nodes : List MatchedNode) (w w' : ParseResult σ) : Prop :=
  ∃ l l', w.trail.matched = nodes ++ l ∧ w'.trail.matched = nodes ++ l' ∧
    ∀ a, Anchor.upTo offset a (l.map t.anchorAfter) = .upTo offset a (l'.map t.anchorAfter)

section Agree

variable {offset : Nat} {nodes : List MatchedNode} {w w' : ParseResult σ}

/-- A token that both readings have taken may be counted among the further ones. -/
lemma AgreeUpTo.of_takes {c : NodeId} {reached : Hop σ} {passed : Nat} (htakes : t.Takes r hop c reached passed)
    (h : t.AgreeUpTo offset reached.nodes w w') : t.AgreeUpTo offset hop.nodes w w' := by
  obtain ⟨l, l', hl, hl', hupTo⟩ := h
  rw [htakes.nodes_eq, List.append_assoc, List.singleton_append] at hl hl'
  refine ⟨_, _, hl, hl', fun a => ?_⟩
  rw [List.map_cons, List.map_cons, Anchor.upTo, Anchor.upTo, hupTo]

lemma AgreeUpTo.behind (h : t.AgreeUpTo offset [] w w') (hop : Hop σ) :
    t.AgreeUpTo offset hop.nodes (w.behind hop) (w'.behind hop) := by
  obtain ⟨l, l', hl, hl', hupTo⟩ := h
  refine ⟨l, l', ?_, ?_, hupTo⟩
  · rw [ParseResult.behind, Trail.matched_cons, hl, List.nil_append]
  · rw [ParseResult.behind, Trail.matched_cons, hl', List.nil_append]

/-- After some nodes a reading has matched nothing that ends before an offset. -/
def PastAfter (offset : Nat) (nodes : List MatchedNode) (w : ParseResult σ) : Prop :=
  ∃ l, w.trail.matched = nodes ++ l ∧ ∀ m ∈ l.head?, offset ≤ m.span.stop

/-- Past nodes that do not end before an offset, no anchor is reached. -/
lemma upTo_of_past {l : List MatchedNode} (hpast : ∀ m ∈ l.head?, offset ≤ m.span.stop) (a : Anchor) :
    Anchor.upTo offset a (l.map t.anchorAfter) = a := by
  cases l with
  | nil => rfl
  | cons m rest =>
    have hbeyond : ¬ (t.anchorAfter m).start ≤ offset := Nat.not_le.2 (Nat.lt_succ_of_le (hpast m rfl))
    rw [List.map_cons, Anchor.upTo, if_neg hbeyond]

/-- Readings that match nothing more before the offset agree. -/
lemma PastAfter.agree (h : PastAfter offset nodes w) (h' : PastAfter offset nodes w') :
    t.AgreeUpTo offset nodes w w' := by
  obtain ⟨l, hl, hpast⟩ := h
  obtain ⟨l', hl', hpast'⟩ := h'
  exact ⟨l, l', hl, hl', fun a => by rw [upTo_of_past hpast a, upTo_of_past hpast' a]⟩

lemma pastAfter_arrival (p : Pick σ) : PastAfter offset p.hop.nodes (arrival r p) := by
  refine ⟨[], ?_, ?_⟩
  · rw [arrival, Trail.matched_single, List.append_nil]
  · simp

/-- A walk first matches one of the candidates that are picked at its start. -/
lemma Walk.exists_matched (ht : t.WellShaped) (hwalk : t.Walk id r hop w) :
    ∃ l, w.trail.matched = hop.nodes ++ l ∧
      ∀ m ∈ l.head?, ∃ p ∈ t.picks id r hop, m = ⟨p.node, r.ahead p.passed⟩ := by
  induction hwalk with
  | @stop id r hop p hp hends =>
    refine ⟨[⟨p.node, r.ahead p.passed⟩], ?_, ?_⟩
    · rw [arrival, Trail.matched_single, (takes_of_mem_picks ht hp).nodes_eq]
    · rintro m ⟨⟩
      exact ⟨p, hp, rfl⟩
  | @onward id r hop w p hp hmore hplain _ ih =>
    obtain ⟨l, hl, -⟩ := ih
    refine ⟨⟨p.node, r.ahead p.passed⟩ :: l, ?_, ?_⟩
    · rw [hl, (takes_of_mem_picks ht hp).nodes_eq, List.append_assoc, List.singleton_append]
    · rintro m ⟨⟩
      exact ⟨p, hp, rfl⟩
  | @jump id target r hop w p hp hmore htarget _ ih =>
    refine ⟨⟨p.node, r.ahead p.passed⟩ :: w.trail.matched, ?_, ?_⟩
    · rw [ParseResult.behind, Trail.matched_cons, (takes_of_mem_picks ht hp).nodes_eq, List.append_assoc,
        List.singleton_append]
    · rintro m ⟨⟩
      exact ⟨p, hp, rfl⟩
  | @deadEnd id r hop _ =>
    refine ⟨[], ?_, ?_⟩
    · rw [impasse, Trail.matched_single, List.append_nil]
    · simp

/-- A walk matches nothing before an offset if none of the picks at its start ends before it. -/
lemma Walk.pastAfter (ht : t.WellShaped) (hwalk : t.Walk id r hop w)
    (h : ∀ p ∈ t.picks id r hop, offset ≤ (r.advance p.passed).cursor) : PastAfter offset hop.nodes w := by
  obtain ⟨l, hl, hhead⟩ := hwalk.exists_matched ht
  refine ⟨l, hl, fun m hm => ?_⟩
  obtain ⟨p, hp, rfl⟩ := hhead m hm
  exact h p hp

end Agree

/-! ## Reading on after the cut -/

section Cut

variable {after : List Char} {w w' : ParseResult σ}

/-- Where no token ends before the cut, the walks agree, whatever they make of the token. -/
lemma Walk.agree_of_unsettled (ht : t.WellShaped) (hbuiltIn : t.BuiltIn) (hwalk : t.Walk id r hop w)
    (hwalk' : t.Walk id (r.extend after) hop w')
    (hunsettled : ∀ p ∈ t.picks id r hop, r.rest.length ≤ p.passed) :
    t.AgreeUpTo r.totalWidth hop.nodes w w' := by
  refine (hwalk.pastAfter ht fun p hp => ?_).agree (hwalk'.pastAfter ht fun p hp => ?_)
  · simpa using Reader.totalWidth_le_cursor_advance (hunsettled p hp) []
  · refine Reader.totalWidth_le_cursor_advance (Nat.le_of_not_lt fun hpassed => ?_) after
    -- a token that ends before the cut would have been picked there too
    have hsettled := mem_picks_extend ht hbuiltIn hp hpassed []
    rw [r.extend_nil] at hsettled
    exact absurd hpassed (Nat.not_lt.2 (hunsettled p hsettled))

/-- Past the end of the input, a walk matches nothing before it. -/
lemma Walk.pastAfter_end (ht : t.WellShaped) (hwalk : t.Walk id (r.extend after) hop w) (hend : r.rest = []) :
    PastAfter r.totalWidth hop.nodes w := by
  refine hwalk.pastAfter ht fun p _ => Reader.totalWidth_le_cursor_advance ?_ after
  rw [hend]
  exact Nat.zero_le _

lemma goesOn.extend {p : Pick σ} (h : t.goesOn r p) (after : List Char) : t.goesOn (r.extend after) p := by
  unfold goesOn at h ⊢
  rw [Reader.rest_extend, List.length_append]
  omega

/-- A walk from a place where one candidate is picked takes that one. -/
lemma Walk.of_sole {p : Pick σ} (hwalk : t.Walk id r hop w) (hsole : t.picks id r hop = [p]) :
    (¬ t.goesOn r p ∧ w = arrival r p) ∨
      (t.goesOn r p ∧ (t.node p.node).target? = none ∧ t.Walk p.node (r.advance (p.passed + 1)) p.hop w) ∨
      ∃ target v, t.goesOn r p ∧ (t.node p.node).target? = some target ∧
        t.Walk target (r.advance (p.passed + 1)) (landing hop.source target (r.advance (p.passed + 1))) v ∧
        w = v.behind p.hop := by
  have heq : ∀ {q : Pick σ}, q ∈ t.picks id r hop → q = p := by
    intro q hq
    rw [hsole] at hq
    exact List.mem_singleton.1 hq
  cases hwalk with
  | stop q hq hends =>
    obtain rfl := heq hq
    exact .inl ⟨hends, rfl⟩
  | onward q hq hmore hplain hnext =>
    obtain rfl := heq hq
    exact .inr (.inl ⟨hmore, hplain, hnext⟩)
  | jump q hq hmore htarget hnext =>
    obtain rfl := heq hq
    exact .inr (.inr ⟨_, _, hmore, htarget, hnext, rfl⟩)
  | deadEnd hstuck =>
    rw [hstuck] at hsole
    cases hsole

/-- Where a settled token ends a walk, the other one ends too or goes on from the cut. -/
lemma Walk.agree_arrival (ht : t.WellShaped) {p : Pick σ} (hends : ¬ t.goesOn r p)
    (hpassed : p.passed < r.rest.length) (hwalk : t.Walk id (r.extend after) hop w)
    (hsole : t.picks id (r.extend after) hop = [p]) :
    t.AgreeUpTo r.totalWidth p.hop.nodes (arrival r p) w := by
  have hplain : (t.node p.node).target? = none := by
    by_contra hsome
    obtain ⟨target, htarget⟩ := Option.ne_none_iff_exists'.1 hsome
    exact hends ((goesOn_of_target htarget).2 hpassed)
  refine (pastAfter_arrival p).agree ?_
  rcases hwalk.of_sole hsole with ⟨-, rfl⟩ | ⟨-, -, hnext⟩ | ⟨target, v, -, htarget, -⟩
  · exact pastAfter_arrival p
  · rw [Reader.advance_extend hpassed] at hnext
    have hend : (r.advance (p.passed + 1)).rest = [] := by
      rw [goesOn_of_no_target hplain] at hends
      rw [Reader.rest_advance, List.drop_eq_nil_iff]
      omega
    have hpast := hnext.pastAfter_end ht hend
    rwa [Reader.totalWidth_advance] at hpast
  · rw [hplain] at htarget
    cases htarget

/-- A walk through an input and one through its continuation agree up to the end of the former. -/
theorem Walk.agree_extend (ht : t.WellShaped) (hbuiltIn : t.BuiltIn) (hlone : t.LoneArguments)
    (hwalk : t.Walk id r hop w) (hwalk' : t.Walk id (r.extend after) hop w') :
    t.AgreeUpTo r.totalWidth hop.nodes w w' := by
  -- a token that ends before the cut is the only pick of both walks
  have hsettled : ∀ {id : NodeId} {r : Reader} {hop : Hop σ} {p : Pick σ}, p ∈ t.picks id r hop →
      p.passed < r.rest.length → t.picks id (r.extend after) hop = [p] := by
    intro id r hop p hp hpassed
    rw [← r.extend_nil] at hp
    exact hlone.picks_eq (mem_picks_extend ht hbuiltIn hp hpassed after)
  induction hwalk generalizing w' with
  | @stop id r hop p hp hends =>
    by_cases hpassed : p.passed < r.rest.length
    · exact (hwalk'.agree_arrival ht hends hpassed (hsettled hp hpassed)).of_takes (takes_of_mem_picks ht hp)
    · refine Walk.agree_of_unsettled ht hbuiltIn (.stop p hp hends) hwalk' fun q hq => ?_
      rw [hlone.picks_eq hp] at hq
      rw [List.mem_singleton.1 hq]
      exact Nat.le_of_not_lt hpassed
  | @onward id r hop w p hp hmore hplain _ ih =>
    rcases hwalk'.of_sole (hsettled hp hmore.passed_lt) with
      ⟨hends, -⟩ | ⟨-, -, hnext⟩ | ⟨target, v, -, htarget, -⟩
    · exact absurd (hmore.extend after) hends
    · rw [Reader.advance_extend hmore.passed_lt] at hnext
      have hagree := ih hnext
      rw [Reader.totalWidth_advance] at hagree
      exact hagree.of_takes (takes_of_mem_picks ht hp)
    · rw [hplain] at htarget
      cases htarget
  | @jump id target r hop w p hp hmore htarget _ ih =>
    rcases hwalk'.of_sole (hsettled hp hmore.passed_lt) with
      ⟨hends, -⟩ | ⟨-, hplain, -⟩ | ⟨target', v, -, htarget', hnext, rfl⟩
    · exact absurd (hmore.extend after) hends
    · rw [hplain] at htarget
      cases htarget
    · obtain rfl : target = target' := Option.some.inj (htarget.symm.trans htarget')
      rw [Reader.advance_extend hmore.passed_lt] at hnext
      have hagree := ih hnext
      rw [Reader.totalWidth_advance] at hagree
      exact (hagree.behind p.hop).of_takes (takes_of_mem_picks ht hp)
  | @deadEnd id r hop hstuck =>
    refine Walk.agree_of_unsettled ht hbuiltIn (.deadEnd hstuck) hwalk' fun q hq => ?_
    rw [hstuck] at hq
    cases hq

/-- At the end of an input, the anchor is the same however the input is continued. -/
lemma anchor?_parseReader_extend (ht : t.WellShaped) (hbuiltIn : t.BuiltIn) (hlone : t.LoneArguments)
    (r : Reader) (source : σ) (after : List Char) :
    (t.parseReader (r.extend after) source).trail.anchor? r.totalWidth =
      some (t.lastAnchor (t.parseReader r source).trail r.totalWidth) := by
  have hlegal := (legal_parseReader ht r source).1
  have hlegal' := (legal_parseReader ht (r.extend after) source).1
  obtain ⟨l, l', hl, hl', hupTo⟩ : t.AgreeUpTo r.totalWidth [] (t.parseReader r source)
      (t.parseReader (r.extend after) source) :=
    (t.walk_parseReader r source).agree_extend ht hbuiltIn hlone (t.walk_parseReader (r.extend after) source)
  have hwithin : r.totalWidth ≤ (r.extend after).totalWidth := by
    simp only [Reader.totalWidth, Reader.cursor_extend, Reader.remainingWidth, Reader.rest_extend,
      Text.width_append]
    omega
  rw [anchor?_parseReader_eq ht (r.extend after) source hwithin, Reader.cursor_extend,
    if_neg (Nat.not_lt.2 r.cursor_le_totalWidth), lastAnchor, lastAnchor, hlegal.root_eq, hlegal.start_eq,
    hlegal'.root_eq, hlegal'.start_eq, Reader.cursor_extend, hl, hl', List.nil_append, List.nil_append, hupTo]

end Cut

/-- Completion at an offset does not depend on what follows the offset: in a tree of built-in arguments, at most
one below each node, the anchor is the same as in the input that is cut off there. -/
theorem anchor?_parse_cut (ht : t.Reachable) (hbuiltIn : t.BuiltIn) (hlone : t.LoneArguments) (source : σ)
    {input : String} {offset : Nat} {before after : List Char}
    (hcut : Text.splitAt? input.toList offset = some (before, after)) :
    ∃ a, (t.parse input source).trail.anchor? offset = some a ∧
      (t.parse (String.ofList before) source).trail.anchor? offset = some a := by
  have hwhole : Reader.ofString input = (Reader.ofString (String.ofList before)).extend after := by
    simp [Reader.ofString, Reader.extend, Text.append_of_splitAt? hcut]
  have hwidth : (Reader.ofString (String.ofList before)).totalWidth = offset := by
    simp [Reader.totalWidth_eq, Reader.ofString, Reader.chars, Text.width_of_splitAt? hcut]
  have hanchor := anchor?_parseReader_extend ht.wellShaped hbuiltIn hlone
    (.ofString (String.ofList before)) source
  rw [hwidth] at hanchor
  refine ⟨t.lastAnchor (t.parse (String.ofList before) source).trail offset, ?_, ?_⟩
  · rw [parse, hwhole]
    exact hanchor after
  · simpa [parse] using hanchor []

/-- A keyword with a phrase that leads back to the root. -/
def echo : CommandTree Unit :=
  ⟨#[{ Node.root with children := [("say", 1)] },
    ⟨some (.literal "say"), [("text", 2)], none, none, none⟩,
    ⟨some (.argument "text" (.text .phrase) none), [], none, none, some ⟨rootId, none, false⟩⟩]⟩

lemma echo_reachable : echo.Reachable := by
  let say : NodeSpec Unit := { NodeSpec.ofPattern (.literal "say") with
    children := [.ofPattern (.argument "text" (.text .phrase) none)] }
  have hsay := Reachable.register (s := say) .empty rfl
  exact .setRedirect (r := ⟨rootId, none, false⟩) hsay (by decide : 2 < 3) rfl

lemma echo_builtIn : echo.BuiltIn := by
  unfold BuiltIn
  decide

lemma echo_loneArguments : echo.LoneArguments := by
  unfold LoneArguments
  decide

/-- The phrase is closed after the offset only, and so the cut-off input is not read as far as the whole one. -/
theorem anchor?_parse_cut_echo :
    echo.Reachable ∧ echo.BuiltIn ∧ echo.LoneArguments ∧
      Text.splitAt? "say hi say \"a b\" say".toList 13 = some ("say hi say \"a".toList, " b\" say".toList) ∧
      (echo.parse "say hi say \"a b\" say" ()).trail.matched.length = 5 ∧
      (echo.parse "say hi say \"a" ()).trail.matched.length = 3 ∧
      (echo.parse "say hi say \"a b\" say" ()).trail.anchor? 13 = some ⟨1, 11⟩ ∧
      (echo.parse "say hi say \"a" ()).trail.anchor? 13 = some ⟨1, 11⟩ := by
  have hcut : Text.splitAt? "say hi say \"a b\" say".toList 13 =
      some ("say hi say \"a".toList, " b\" say".toList) := by decide +kernel
  have hcutoff : (echo.parse "say hi say \"a" ()).trail.anchor? 13 = some ⟨1, 11⟩ := by decide +kernel
  refine ⟨echo_reachable, echo_builtIn, echo_loneArguments, hcut, by decide +kernel, by decide +kernel, ?_,
    hcutoff⟩
  obtain ⟨a, hwhole, hbefore⟩ := anchor?_parse_cut echo_reachable echo_builtIn echo_loneArguments () hcut
  rw [String.ofList_toList, hcutoff] at hbefore
  rw [hwhole, hbefore]

end CommandTree
end CommandEngine
