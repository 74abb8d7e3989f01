import CommandEngine.Completion
import CommandEngine.Proofs.Stopping

/-!
# Where completion happens

The places at which a reading has tried candidates are its anchors: the root at the start, and behind every
matched node, one separator further on, the node that the command goes on at.  Completion at an offset
takes the last anchor that is not past the offset.  `Trail.anchor?` finds it by looking through the hops and the
spans of their nodes, and `CommandTree.LegalTrail.anchor?_eq` says that the two are the same.

From this follows what completion may rely on (`CommandTree.anchor?_parseReader`): there is an anchor for
every offset from the start on, it is not past the offset, it stands at the start or behind a separator, and the
spans that suggestions are made for are in order.
-/

namespace CommandEngine

variable {σ : Type}

/-! ## Following anchors -/

/-- Follows anchors in order, starting from one, as long as they are not past the offset. -/
def Anchor.upTo (offset : Nat) (a : Anchor) : List Anchor → Anchor
  | [] => a
  | b :: rest => if b.start ≤ offset then upTo offset b rest else a

namespace Anchor

variable {offset : Nat} {a : Anchor} {l : List Anchor}

/-- Anchors that are not past the offset are followed to the last of them. -/
lemma upTo_append (h : ∀ b ∈ l, b.start ≤ offset) (more : List Anchor) :
    upTo offset a (l ++ more) = upTo offset (l.getLastD a) more := by
  induction l generalizing a with
  | nil => rfl
  | cons b rest ih =>
    rw [List.cons_append, upTo, if_pos (h b (List.mem_cons_self ..)), List.getLastD_cons]
    exact ih fun c hc => h c (List.mem_cons_of_mem _ hc)

/-- The anchor that is reached is the first one or one of the others, and then it is not past the offset. -/
lemma upTo_eq_or_mem (offset : Nat) (a : Anchor) (l : List Anchor) :
    upTo offset a l = a ∨ upTo offset a l ∈ l ∧ (upTo offset a l).start ≤ offset := by
  induction l generalizing a with
  | nil => exact .inl rfl
  | cons b rest ih =>
    rw [upTo]
    split
    · next hb =>
      rcases ih b with heq | ⟨hmem, hle⟩
      · rw [heq]
        exact .inr ⟨List.mem_cons_self .., hb⟩
      · exact .inr ⟨List.mem_cons_of_mem _ hmem, hle⟩
    · exact .inl rfl

end Anchor

/-! ## Spans that tile -/

section Tiled

variable {chars : List Char} {l : List MatchedNode}

lemma pairwise_of_tiled (h : l.IsChain (MatchedNode.Precedes chars)) :
    l.Pairwise fun m n => m.span.stop < n.span.start := by
  have htrans : IsTrans MatchedNode fun m n => m.span.stop < n.span.start :=
    ⟨fun a b c hab hbc => Nat.lt_of_lt_of_le hab (Nat.le_trans b.span.ordered (Nat.le_of_lt hbc))⟩
  refine List.isChain_iff_pairwise.1 (h.imp fun m n hmn => ?_)
  rw [hmn.next_eq]
  exact Nat.lt_succ_self _

lemma stop_le_of_tiled (h : l.IsChain (MatchedNode.Precedes chars)) {last : MatchedNode}
    (hlast : l.getLast? = some last) {m : MatchedNode} (hm : m ∈ l) : m.span.stop ≤ last.span.stop := by
  obtain ⟨init, rfl⟩ := List.getLast?_eq_some_iff.1 hlast
  rcases List.mem_append.1 hm with hm | hm
  · have hlt := (List.pairwise_append.1 (pairwise_of_tiled h)).2.2 m hm last (List.mem_singleton_self _)
    exact Nat.le_of_lt (Nat.lt_of_lt_of_le hlt last.span.ordered)
  · rw [List.mem_singleton.1 hm]

lemma start_le_of_tiled (h : l.IsChain (MatchedNode.Precedes chars)) {start : Nat}
    (hstart : ∀ m ∈ l.head?, m.span.start = start) {m : MatchedNode} (hm : m ∈ l) :
    start ≤ m.span.start := by
  cases l with
  | nil => cases hm
  | cons first rest =>
    rw [← hstart first rfl]
    rcases List.mem_cons.1 hm with rfl | hm
    · exact Nat.le_refl _
    · have hlt := (List.pairwise_cons.1 (pairwise_of_tiled h)).1 m hm
      exact Nat.le_of_lt (Nat.lt_of_le_of_lt first.span.ordered hlt)

/-- A matched node is followed by a separator, unless it is the last one. -/
lemma separates_or_last_of_tiled (h : l.IsChain (MatchedNode.Precedes chars)) {m : MatchedNode} (hm : m ∈ l) :
    Separates chars m.span.stop (m.span.stop + 1) ∨ l.getLast? = some m := by
  induction l with
  | nil => cases hm
  | cons first rest ih =>
    cases rest with
    | nil => exact .inr (by rw [List.mem_singleton.1 hm]; rfl)
    | cons next rest =>
      obtain ⟨hfirst, hrest⟩ := List.isChain_cons_cons.1 h
      rw [List.getLast?_cons_cons]
      rcases List.mem_cons.1 hm with rfl | hm
      · exact .inl (hfirst.next_eq ▸ hfirst)
      · exact ih hrest hm

end Tiled

namespace CommandTree

variable {t : CommandTree σ} {chars : List Char} {source : σ}

/-! ## The anchors of a trail -/

/-- The anchor behind a matched node. -/
def anchorAfter (t : CommandTree σ) (m : MatchedNode) : Anchor :=
  ⟨(t.node m.node).target?.getD m.node, m.span.stop + 1⟩

/-- The last anchor of a trail that is not past an offset. -/
def lastAnchor (t : CommandTree σ) (trail : Trail σ) (offset : Nat) : Anchor :=
  .upTo offset ⟨trail.first.root, trail.first.span.start⟩ (trail.matched.map t.anchorAfter)

/-- Only the last node of a hop may redirect. -/
def Unbroken (t : CommandTree σ) (hop : Hop σ) : Prop :=
  ∀ m ∈ hop.nodes.dropLast, (t.node m.node).target? = none

/-- Within the nodes of a hop that reach the offset. -/
lemma amongNodes_eq_upTo {nodes : List MatchedNode} {offset fallback start : Nat} {previous : NodeId}
    {last : MatchedNode} (htiled : nodes.IsChain (MatchedNode.Precedes chars))
    (hplain : ∀ m ∈ nodes.dropLast, (t.node m.node).target? = none)
    (hfirst : ∀ m ∈ nodes.head?, m.span.start = start) (hlast : nodes.getLast? = some last)
    (hstart : start ≤ offset) (hstop : offset ≤ last.span.stop) (more : List Anchor) :
    Anchor.amongNodes offset fallback previous nodes =
      .upTo offset ⟨previous, start⟩ (nodes.map t.anchorAfter ++ more) := by
  induction nodes generalizing previous start with
  | nil => cases hlast
  | cons m rest ih =>
    obtain rfl := hfirst m rfl
    rw [List.map_cons, List.cons_append, Anchor.amongNodes, Anchor.upTo]
    by_cases hcovers : offset ≤ m.span.stop
    · have hpast : ¬ (t.anchorAfter m).start ≤ offset := Nat.not_le.2 (Nat.lt_succ_of_le hcovers)
      rw [if_pos ⟨hstart, hcovers⟩, if_neg hpast]
    · have hreached : (t.anchorAfter m).start ≤ offset := Nat.lt_of_not_le hcovers
      rw [if_neg fun h => hcovers h.2, if_pos hreached]
      cases rest with
      | nil =>
        obtain rfl : m = last := Option.some.inj hlast
        exact absurd hstop hcovers
      | cons n rest =>
        obtain ⟨hnext, hrest⟩ := List.isChain_cons_cons.1 htiled
        rw [List.dropLast_cons_cons] at hplain
        have hafter : t.anchorAfter m = ⟨m.node, m.span.stop + 1⟩ := by
          rw [anchorAfter, hplain m (List.mem_cons_self ..)]
          rfl
        rw [hafter]
        refine ih hrest (fun m' hm' => hplain m' (List.mem_cons_of_mem _ hm')) ?_ ?_ ?_
        · intro n' hn'
          cases hn'
          exact hnext.next_eq
        · rwa [List.getLast?_cons_cons] at hlast
        · exact hreached

/-- Past all the nodes of a hop the anchor behind the last of them is reached. -/
lemma upTo_nodes {nodes : List MatchedNode} {offset : Nat} {a : Anchor} {last : MatchedNode}
    (htiled : nodes.IsChain (MatchedNode.Precedes chars)) (hlast : nodes.getLast? = some last)
    (hstop : last.span.stop < offset) (more : List Anchor) :
    Anchor.upTo offset a (nodes.map t.anchorAfter ++ more) = .upTo offset (t.anchorAfter last) more := by
  have hle : ∀ b ∈ nodes.map t.anchorAfter, b.start ≤ offset := by
    intro b hb
    obtain ⟨m, hm, rfl⟩ := List.mem_map.1 hb
    exact Nat.lt_of_le_of_lt (stop_le_of_tiled htiled hlast hm) hstop
  have hend : (nodes.map t.anchorAfter).getLastD a = t.anchorAfter last := by
    rw [List.getLastD_eq_getLast?, List.getLast?_map, hlast]
    rfl
  rw [Anchor.upTo_append hle, hend]

/-- Within a hop the anchor that is found is the last one that is not past the offset. -/
lemma LegalHop.amongNodes_eq {hop : Hop σ} {offset : Nat} (h : t.LegalHop chars source hop)
    (hunbroken : t.Unbroken hop) (hstart : hop.span.start ≤ offset) (hstop : offset ≤ hop.span.stop)
    {more : List Anchor} (hmore : hop.nodes = [] → more = []) :
    Anchor.amongNodes offset hop.span.start hop.root hop.nodes =
      .upTo offset ⟨hop.root, hop.span.start⟩ (hop.nodes.map t.anchorAfter ++ more) := by
  cases hlast : hop.nodes.getLast? with
  | none =>
    have hnil := List.getLast?_eq_none_iff.1 hlast
    rw [hmore hnil, hnil]
    rfl
  | some last =>
    exact amongNodes_eq_upTo h.tiled hunbroken h.first hlast hstart (h.last last hlast ▸ hstop) more

/-- Past a hop that does not redirect, the last anchor is the one past all its nodes. -/
lemma LegalHop.past_eq {hop : Hop σ} {offset : Nat} (h : t.LegalHop chars source hop) (hpast : hop.span.stop < offset)
    (hplain : ∀ m ∈ hop.nodes.getLast?, (t.node m.node).target? = none) :
    Anchor.past hop = .upTo offset ⟨hop.root, hop.span.start⟩ (hop.nodes.map t.anchorAfter) := by
  rw [Anchor.past]
  cases hlast : hop.nodes.getLast? with
  | none =>
    rw [List.getLast?_eq_none_iff.1 hlast]
    rfl
  | some last =>
    have hstop : last.span.stop < offset := h.last last hlast ▸ hpast
    rw [← List.append_nil (hop.nodes.map t.anchorAfter), upTo_nodes h.tiled hlast hstop, anchorAfter,
      hplain last hlast]
    rfl

/-- Past a hop that leads on, the next hop has started, and the last anchor is found from there on. -/
lemma LegalHop.upTo_eq_of_leadsTo {hop next : Hop σ} {offset : Nat} (h : t.LegalHop chars source hop)
    (hleads : t.LeadsTo chars hop next) (hpast : hop.span.stop < offset) (more : List Anchor) :
    next.span.start ≤ offset ∧
      Anchor.upTo offset ⟨hop.root, hop.span.start⟩ (hop.nodes.map t.anchorAfter ++ more) =
        .upTo offset ⟨next.root, next.span.start⟩ more := by
  obtain ⟨last, hlast, htarget, hsep⟩ := hleads
  have hstop : last.span.stop < offset := h.last last hlast ▸ hpast
  -- the anchor behind the redirect is where the next hop starts
  have hafter : t.anchorAfter last = ⟨next.root, next.span.start⟩ := by
    rw [anchorAfter, htarget, hsep.next_eq]
    rfl
  refine ⟨?_, ?_⟩
  · rw [hsep.next_eq]
    exact hstop
  · rw [upTo_nodes h.tiled hlast hstop, hafter]

/-- The anchor that is found for an offset is the last one that is not past it, provided that the offset is not
past a redirect that was not taken. -/
theorem LegalTrail.anchor?_eq {root : NodeId} {start offset : Nat} {trail : Trail σ}
    (h : t.LegalTrail chars source root start trail) (hunbroken : ∀ hop ∈ trail.hops, t.Unbroken hop)
    (hend : ∀ m ∈ trail.last.nodes.getLast?, (t.node m.node).target? = none ∨ offset ≤ m.span.stop) :
    trail.anchor? offset = if offset < start then none else some (t.lastAnchor trail offset) := by
  obtain ⟨first, later⟩ := trail
  induction later generalizing first root start with
  | nil =>
    have hfirst := h.head
    have hplain := hunbroken first (List.mem_cons_self ..)
    obtain rfl : first.span.start = start := h.start_eq
    have hlastAnchor : t.lastAnchor ⟨first, []⟩ offset =
        .upTo offset ⟨first.root, first.span.start⟩ (first.nodes.map t.anchorAfter) := by
      simp [lastAnchor, Trail.matched, Trail.hops]
    rw [Trail.anchor?, Anchor.ofHops?, hlastAnchor]
    split
    · rfl
    · next hbefore =>
      split
      · next hpast =>
        rw [hfirst.past_eq hpast fun m hm => (hend m hm).resolve_right (Nat.not_le.2 (hfirst.last m hm ▸ hpast))]
      · next hpast =>
        rw [hfirst.amongNodes_eq hplain (Nat.le_of_not_lt hbefore) (Nat.le_of_not_lt hpast) fun _ => rfl,
          List.append_nil]
  | cons next rest ih =>
    have hfirst := h.head
    have hplain := hunbroken first (List.mem_cons_self ..)
    obtain rfl : first.span.start = start := h.start_eq
    have hlastAnchor : t.lastAnchor ⟨first, next :: rest⟩ offset =
        .upTo offset ⟨first.root, first.span.start⟩
          (first.nodes.map t.anchorAfter ++ (Trail.matched ⟨next, rest⟩).map t.anchorAfter) := by
      rw [← List.map_append]
      rfl
    rw [Trail.anchor?, Anchor.ofHops?, hlastAnchor]
    split
    · rfl
    · next hbefore =>
      split
      · next hpast =>
        obtain ⟨hreached, hfrom⟩ := hfirst.upTo_eq_of_leadsTo h.leadsTo hpast
          ((Trail.matched ⟨next, rest⟩).map t.anchorAfter)
        have hinner := ih next h.tail (fun hop hmem => hunbroken hop (List.mem_cons_of_mem _ hmem))
          (by simpa [Trail.last, List.getLast?_cons] using hend)
        rw [if_neg (Nat.not_lt.2 hreached)] at hinner
        rw [hfrom]
        exact hinner
      · next hpast =>
        rw [hfirst.amongNodes_eq hplain (Nat.le_of_not_lt hbefore) (Nat.le_of_not_lt hpast)
          fun hnil => absurd hnil h.leadsTo.nodes_ne_nil]

/-! ## The anchors of a reading -/

/-- A walk leaves a hop at the first node that redirects. -/
theorem Walk.unbroken (ht : t.WellShaped) {id : NodeId} {r : Reader} {hop : Hop σ} {w : ParseResult σ}
    (hwalk : t.Walk id r hop w) (hplain : t.Plain hop) : ∀ h ∈ w.trail.hops, t.Unbroken h := by
  -- a token adds one node, so all nodes before it were there already
  have hpick : ∀ {id : NodeId} {r : Reader} {hop : Hop σ} {p : Pick σ}, p ∈ t.picks id r hop →
      t.Plain hop → t.Unbroken p.hop := by
    intro id r hop p hp hplain m hm
    rw [(takes_of_mem_picks ht hp).nodes_eq, List.dropLast_concat] at hm
    exact hplain m hm
  induction hwalk with
  | @stop id r hop p hp hends =>
    intro h hh
    obtain rfl : h = p.hop := by simpa [arrival, Trail.single, Trail.hops] using hh
    exact hpick hp hplain
  | @onward id r hop w p hp hmore hnode _ ih =>
    exact ih ((takes_of_mem_picks ht hp).plain hplain hnode)
  | @jump id target r hop w p hp hmore htarget _ ih =>
    intro h hh
    rcases List.mem_cons.1 hh with rfl | hh
    · exact hpick hp hplain
    · exact ih plain_start h hh
  | @deadEnd id r hop _ =>
    intro h hh m hm
    obtain rfl : h = hop := by simpa [impasse, Trail.single, Trail.hops] using hh
    exact hplain m (List.dropLast_subset _ hm)

/-- A matched node of a trail is followed by a separator, unless it is the last node of the innermost hop. -/
lemma LegalTrail.separates_or_last {root : NodeId} {start : Nat} {trail : Trail σ}
    (h : t.LegalTrail chars source root start trail) {m : MatchedNode} (hm : m ∈ trail.matched) :
    Separates chars m.span.stop (m.span.stop + 1) ∨ trail.last.nodes.getLast? = some m := by
  obtain ⟨hop, hhop, hm⟩ := List.mem_flatMap.1 hm
  rcases separates_or_last_of_tiled (h.hops hop hhop).tiled hm with hsep | hlast
  · exact .inl hsep
  · obtain ⟨before, after, hsplit⟩ := List.append_of_mem hhop
    cases after with
    | nil =>
      -- the hop is the innermost one
      have hinnermost : trail.last = hop := by
        have hgetLast : trail.hops.getLast? = some hop := by rw [hsplit, List.getLast?_concat]
        rw [Trail.hops, List.getLast?_cons] at hgetLast
        exact Option.some.inj hgetLast
      exact .inr (hinnermost ▸ hlast)
    | cons next rest =>
      have hlinked := h.linked
      rw [hsplit] at hlinked
      obtain ⟨m', hlast', -, hsep⟩ :=
        (List.isChain_cons_cons.1 (List.isChain_append.1 hlinked).2.1).1
      obtain rfl : m = m' := Option.some.inj (hlast.symm.trans hlast')
      exact .inl (hsep.next_eq ▸ hsep)

end CommandTree

lemma Separates.splitAt? {chars : List Char} {stop next : Nat} (h : Separates chars stop next) :
    (Text.splitAt? chars next).isSome := by
  have hslice := h.text
  unfold Text.slice? at hslice
  rw [if_pos (h.next_eq ▸ Nat.le_succ _)] at hslice
  obtain ⟨⟨before, after⟩, hbefore, hslice⟩ := Option.bind_eq_some_iff.1 hslice
  obtain ⟨⟨part, rest⟩, hpart, hslice⟩ := Option.bind_eq_some_iff.1 hslice
  have hchars : (before ++ part) ++ rest = chars := by
    rw [List.append_assoc, Text.append_of_splitAt? hpart, Text.append_of_splitAt? hbefore]
  have hwidth : Text.width (before ++ part) = next := by
    rw [Text.width_append, Text.width_of_splitAt? hbefore, Text.width_of_splitAt? hpart, h.next_eq]
    omega
  rw [← hchars, ← hwidth, Text.splitAt?_append]
  rfl

lemma Reader.le_totalWidth_of_splitAt? {r : Reader} {offset : Nat} {before after : List Char}
    (hcut : Text.splitAt? r.chars offset = some (before, after)) : offset ≤ r.totalWidth := by
  rw [r.totalWidth_eq, ← Text.append_of_splitAt? hcut, Text.width_append, Text.width_of_splitAt? hcut]
  exact Nat.le_add_right _ _

namespace CommandTree

variable {t : CommandTree σ} {chars : List Char} {source : σ}

/-- After the last node of a reading nothing follows; or a separator does, and the node does not redirect. -/
lemma parseReader_last (ht : t.WellShaped) (r : Reader) (source : σ) {m : MatchedNode}
    (hm : (t.parseReader r source).trail.last.nodes.getLast? = some m) :
    m.span.stop = r.totalWidth ∨
      Separates r.chars m.span.stop (m.span.stop + 1) ∧ (t.node m.node).target? = none := by
  have hchars := (legal_parseReader ht r source).2.chars_eq
  rcases arrived_or_stuck_parseReader ht r source with harrived | hstuck
  · obtain ⟨m', hm', hstop, hrest⟩ := harrived.place
    obtain rfl : m = m' := Option.some.inj (hm.symm.trans hm')
    rcases hrest with hrest | ⟨hrest, hplain⟩
    · left
      rw [hstop, Reader.totalWidth_eq, ← hchars, ← Reader.totalWidth_eq, Reader.totalWidth,
        Reader.remainingWidth, hrest, Text.width_nil, Nat.add_zero]
    · right
      have hslice := (t.parseReader r source).reader.slice?_advance 1
      have hcursor := (t.parseReader r source).reader.cursor_advance 1
      rw [hrest] at hslice hcursor
      have hnext : ((t.parseReader r source).reader.advance 1).cursor = m.span.stop + 1 := by
        rw [hcursor, hstop]
        rfl
      rw [hnext, hchars, ← hstop] at hslice
      exact ⟨⟨rfl, hslice⟩, hplain⟩
  · right
    rcases hstuck.place with ⟨hnil, -⟩ | ⟨m', hm', hsep⟩
    · simp [hnil] at hm
    · obtain rfl : m = m' := Option.some.inj (hm.symm.trans hm')
      rw [hchars] at hsep
      exact ⟨hsep.next_eq ▸ hsep, hstuck.plain m (List.mem_of_getLast? hm)⟩

/-- For an offset of the input, the anchor of a reading is the last one that is not past it. -/
theorem anchor?_parseReader_eq (ht : t.WellShaped) (r : Reader) (source : σ) {offset : Nat}
    (hoffset : offset ≤ r.totalWidth) :
    (t.parseReader r source).trail.anchor? offset =
      if offset < r.cursor then none else some (t.lastAnchor (t.parseReader r source).trail offset) := by
  have hunbroken := (t.walk_parseReader r source).unbroken ht plain_start
  refine (legal_parseReader ht r source).1.anchor?_eq hunbroken fun m hm => ?_
  rcases parseReader_last ht r source hm with hend | ⟨-, hplain⟩
  · exact .inr (hend ▸ hoffset)
  · exact .inl hplain

/-- What completion may rely on of the anchor for an offset: it is between the start of the reading and the offset,
between two characters, and it is the root at the start, or else stands behind a separator that follows a
matched node, at the target of that node or, if it does not redirect, at the node itself. -/
structure AnchorsAt (t : CommandTree σ) (r : Reader) (trail : Trail σ) (offset : Nat) (a : Anchor) : Prop where
  not_before : r.cursor ≤ a.start
  not_past : a.start ≤ offset
  boundary : (Text.splitAt? r.chars a.start).isSome
  parent : (a.start = r.cursor ∧ a.parent = trail.first.root) ∨
    r.cursor < a.start ∧ ∃ m ∈ trail.matched, Separates r.chars m.span.stop a.start ∧
      a.parent = (t.node m.node).target?.getD m.node

lemma anchorsAt_lastAnchor (ht : t.WellShaped) (r : Reader) (source : σ) {offset : Nat}
    (hstart : r.cursor ≤ offset) (hoffset : offset ≤ r.totalWidth) :
    t.AnchorsAt r (t.parseReader r source).trail offset
      (t.lastAnchor (t.parseReader r source).trail offset) := by
  have hlegal := (legal_parseReader ht r source).1
  have hfirst : (t.parseReader r source).trail.first.span.start = r.cursor := hlegal.start_eq
  unfold lastAnchor
  rw [hfirst]
  rcases Anchor.upTo_eq_or_mem offset ⟨(t.parseReader r source).trail.first.root, r.cursor⟩
    ((t.parseReader r source).trail.matched.map t.anchorAfter) with heq | ⟨hmem, hle⟩
  · rw [heq]
    exact ⟨Nat.le_refl _, hstart, by rw [r.splitAt?_cursor]; rfl, .inl ⟨rfl, rfl⟩⟩
  · obtain ⟨m, hm, hafter⟩ := List.mem_map.1 hmem
    rw [← hafter] at hle ⊢
    -- more text follows the node, so a separator does
    have hsep : Separates r.chars m.span.stop (m.span.stop + 1) := by
      rcases hlegal.separates_or_last hm with hsep | hlast
      · exact hsep
      · rcases parseReader_last ht r source hlast with hend | ⟨hsep, -⟩
        · have hlt : m.span.stop < r.totalWidth := Nat.lt_of_lt_of_le hle hoffset
          exact absurd hend (Nat.ne_of_lt hlt)
        · exact hsep
    have hbelow : r.cursor ≤ m.span.stop :=
      Nat.le_trans (start_le_of_tiled hlegal.matched_isChain hlegal.matched_head hm) m.span.ordered
    exact ⟨Nat.le_succ_of_le hbelow, hle, hsep.splitAt?,
      .inr ⟨Nat.lt_succ_of_le hbelow, m, hm, hsep, rfl⟩⟩

/-- The anchor that is found for an offset of the input is as completion needs it. -/
lemma anchorsAt_of_anchor? (ht : t.WellShaped) (r : Reader) (source : σ) {offset : Nat} {a : Anchor}
    (hoffset : offset ≤ r.totalWidth) (h : (t.parseReader r source).trail.anchor? offset = some a) :
    t.AnchorsAt r (t.parseReader r source).trail offset a := by
  rw [anchor?_parseReader_eq ht r source hoffset] at h
  split at h
  · cases h
  · next hstart =>
    obtain rfl := Option.some.inj h
    exact anchorsAt_lastAnchor ht r source (Nat.le_of_not_lt hstart) hoffset

/-! ## Completion -/

/-- For every offset between two characters of the input there is an anchor unless the offset is before the
start of the reading.  It is as completion needs it, so that it does not have to be moved to the offset, and
whatever is gathered for the text between the anchor and the offset has a span. -/
theorem anchor?_parseReader (ht : t.Reachable) (r : Reader) (source : σ) {offset : Nat}
    {before after : List Char} (hcut : Text.splitAt? r.chars offset = some (before, after)) :
    ((t.parseReader r source).trail.anchor? offset = none ↔ offset < r.cursor) ∧
      (r.cursor ≤ offset → ∃ a, (t.parseReader r source).trail.anchor? offset = some a ∧
        t.AnchorsAt r (t.parseReader r source).trail offset a ∧
        t.completeAt (t.parseReader r source) offset =
          ((t.suggestBelow a.parent ((t.parseReader r source).trail.context (String.ofList before))
            (.new (String.ofList before) a.start)).bind fun results =>
              Suggestions.orDisordered (Suggestions.merge? r.input results)) ∧
        ∀ c : Collector, c.input = String.ofList before → c.start = a.start →
          ∃ span, c.span = .ok span ∧ span.start = a.start ∧ span.stop = offset) := by
  have hshape := ht.wellShaped
  have hchars := (legal_parseReader hshape r source).2.chars_eq
  have hwidth : Text.width before = offset := Text.width_of_splitAt? hcut
  have hoffset : offset ≤ r.totalWidth := by
    rw [r.totalWidth_eq, ← Text.append_of_splitAt? hcut, Text.width_append, hwidth]
    exact Nat.le_add_right _ _
  have hanchor := anchor?_parseReader_eq hshape r source hoffset
  constructor
  · rw [hanchor]
    split
    · next hbefore => simp [hbefore]
    · next hbefore => simp [hbefore]
  · intro hstart
    rw [if_neg (Nat.not_lt.2 hstart)] at hanchor
    have hat := anchorsAt_lastAnchor hshape r source hstart hoffset
    refine ⟨_, hanchor, hat, ?_, fun c hinput hc => ?_⟩
    · simp only [completeAt, hanchor, hchars, hcut, Nat.min_eq_left hat.not_past, Reader.input]
    · have hordered : c.start ≤ Text.width c.input.toList := by
        rw [hinput, hc, String.toList_ofList, hwidth]
        exact hat.not_past
      refine ⟨⟨c.start, Text.width c.input.toList, hordered⟩, dif_pos hordered, hc, ?_⟩
      change Text.width c.input.toList = offset
      rw [hinput, String.toList_ofList, hwidth]

/-- Behind a keyword that leads back to the root, the root is completed again. -/
theorem anchor?_parseReader_roundabout :
    roundabout.Reachable ∧
      Text.splitAt? (Reader.ofString "again st").chars 8 = some ("again st".toList, []) ∧
      (roundabout.parseReader (.ofString "again st") ()).trail.anchor? 8 = some ⟨rootId, 6⟩ ∧
      roundabout.AnchorsAt (.ofString "again st") (roundabout.parseReader (.ofString "again st") ()).trail 8
        ⟨rootId, 6⟩ := by
  have hcut : Text.splitAt? (Reader.ofString "again st").chars 8 = some ("again st".toList, []) := by
    decide +kernel
  have hanchor : (roundabout.parseReader (.ofString "again st") ()).trail.anchor? 8 = some ⟨rootId, 6⟩ := by
    decide +kernel
  refine ⟨roundabout_reachable, hcut, hanchor, ?_⟩
  obtain ⟨a, ha, hat, -⟩ :=
    (anchor?_parseReader roundabout_reachable (.ofString "again st") () hcut).2 (Nat.zero_le 8)
  obtain rfl : a = ⟨rootId, 6⟩ := Option.some.inj (ha.symm.trans hanchor)
  exact hat

end CommandTree
end CommandEngine
