import CommandEngine.Proofs.Tree.Merge
import CommandEngine.Proofs.Walk
import Mathlib.Data.List.Chain

/-!
# What a reading looks like

The hops of a reading describe a legal way through the tree that tiles the input.  `CommandTree.LegalHop`
says this of one hop: its nodes go down along child edges, their spans follow one another with one
separator in between, the span of the hop runs from the first to the last of them, each node may be used
by the source and a keyword covers exactly its own text.  `CommandTree.LegalTrail` adds that a later hop
starts at the target of the node that the hop before it ends with, one separator further on.

A walk has matched a part of its current hop and stands behind a separator; that is
`CommandTree.Ready`, the invariant that carries the proof.  One pick keeps a hop legal
(`CommandTree.Ready.legal_pick`), and with the separator after it, it makes the next place ready
(`CommandTree.Ready.onward`).  `CommandTree.parseReader_legal` is the result for whole readings.
-/

namespace CommandEngine

variable {σ : Type}

/-! ## Legal hops and trails -/

/-- Exactly one separator stands between two byte offsets of a text. -/
structure Separates (chars : List Char) (stop next : Nat) : Prop where
  next_eq : next = stop + 1
  text : Text.slice? chars stop next = some [separator]

/-- The second node begins one separator after the first ends. -/
def MatchedNode.Precedes (chars : List Char) (m n : MatchedNode) : Prop :=
  Separates chars m.span.stop n.span.start

/-- All matched nodes of all hops, in order. -/
def Trail.matched (trail : Trail σ) : List MatchedNode := trail.hops.flatMap fun h => h.nodes

@[simp] lemma Trail.matched_single (h : Hop σ) : (Trail.single h).matched = h.nodes := by
  simp [matched, single, hops]

@[simp] lemma Trail.matched_cons (h : Hop σ) (trail : Trail σ) :
    (Trail.cons h trail).matched = h.nodes ++ trail.matched := rfl

@[simp] lemma Trail.last_cons (h : Hop σ) (trail : Trail σ) :
    (Trail.cons h trail).last = trail.last := by
  simp [cons, last, hops, List.getLast?_cons]

lemma Trail.last_mem_hops (trail : Trail σ) : trail.last ∈ trail.hops := by
  rw [Trail.last, Trail.hops]
  cases hlast : trail.later.getLast? with
  | none => exact List.mem_cons_self ..
  | some h => exact List.mem_cons_of_mem _ (List.mem_of_getLast? hlast)

namespace CommandTree

/-- A matched node may be used by the source, its span fits the text, and a keyword covers its own
text. -/
structure Fits (t : CommandTree σ) (chars : List Char) (source : σ) (m : MatchedNode) : Prop where
  usable : (t.node m.node).canUse source = true
  sliced : ∃ text, Text.slice? chars m.span.start m.span.stop = some text
  keyword : ∀ k, (t.node m.node).pattern = some (.literal k) →
    Text.slice? chars m.span.start m.span.stop = some k.toList

/-- The matched nodes of a hop lead down from its root, tile the span of the hop, and the last one
decides on the handler, the modifier and the fork flag. -/
structure LegalHop (t : CommandTree σ) (chars : List Char) (source : σ) (h : Hop σ) : Prop where
  source_eq : h.source = source
  descends : (h.root :: h.nodes.map MatchedNode.node).IsChain fun a b => b ∈ t.children a
  tiled : h.nodes.IsChain (MatchedNode.Precedes chars)
  first : ∀ m ∈ h.nodes.head?, m.span.start = h.span.start
  last : ∀ m ∈ h.nodes.getLast?, m.span.stop = h.span.stop
  empty : h.nodes = [] → h.span.stop = h.span.start
  fits : ∀ m ∈ h.nodes, t.Fits chars source m
  handler_eq : h.handler = h.nodes.getLast?.bind fun m => (t.node m.node).handler
  modifier_eq : h.modifier = h.nodes.getLast?.bind fun m => (t.node m.node).modifier?
  forks_eq : h.forks = (h.nodes.getLast?.map fun m => (t.node m.node).forks).getD false

/-- A hop starts at the target of the node that the hop before it ends with, one separator after it. -/
def LeadsTo (t : CommandTree σ) (chars : List Char) (a b : Hop σ) : Prop :=
  ∃ m, a.nodes.getLast? = some m ∧ (t.node m.node).target? = some b.root ∧
    Separates chars m.span.stop b.span.start

/-- The hops of a trail are legal, the first one starts at a given node and offset, and each leads to
the next. -/
structure LegalTrail (t : CommandTree σ) (chars : List Char) (source : σ) (root : NodeId) (start : Nat)
    (trail : Trail σ) : Prop where
  root_eq : trail.first.root = root
  start_eq : trail.first.span.start = start
  hops : ∀ h ∈ trail.hops, t.LegalHop chars source h
  linked : trail.hops.IsChain (t.LeadsTo chars)

variable {t : CommandTree σ} {chars : List Char} {source : σ}

lemma legalHop_start (root : NodeId) (offset : Nat) : t.LegalHop chars source (.start source root offset) := by
  constructor <;> simp [Hop.start, Span.point]

lemma LegalHop.trail {h : Hop σ} (hlegal : t.LegalHop chars source h) :
    t.LegalTrail chars source h.root h.span.start (.single h) := by
  refine ⟨rfl, rfl, fun h' hmem => ?_, List.isChain_singleton _⟩
  have heq : h' = h := by simpa [Trail.single, Trail.hops] using hmem
  exact heq ▸ hlegal

lemma LegalTrail.cons {root : NodeId} {start : Nat} {trail : Trail σ} {h : Hop σ} {m : MatchedNode}
    (hlegal : t.LegalHop chars source h) (hlast : h.nodes.getLast? = some m)
    (htarget : (t.node m.node).target? = some root) (hsep : Separates chars m.span.stop start)
    (htrail : t.LegalTrail chars source root start trail) :
    t.LegalTrail chars source h.root h.span.start (.cons h trail) := by
  refine ⟨rfl, rfl, fun h' hmem => ?_, ?_⟩
  · rcases List.mem_cons.1 hmem with rfl | hmem
    · exact hlegal
    · exact htrail.hops h' hmem
  · refine List.IsChain.cons_cons ⟨m, hlast, ?_, ?_⟩ htrail.linked
    · rw [htarget, htrail.root_eq]
    · rwa [htrail.start_eq]

/-! ### The nodes of all hops together -/

lemma LeadsTo.nodes_ne_nil {a b : Hop σ} (h : t.LeadsTo chars a b) : a.nodes ≠ [] := by
  obtain ⟨m, hlast, -⟩ := h
  rintro hnil
  simp [hnil] at hlast

lemma LegalTrail.head {root : NodeId} {start : Nat} {trail : Trail σ}
    (h : t.LegalTrail chars source root start trail) : t.LegalHop chars source trail.first :=
  h.hops trail.first (List.mem_cons_self ..)

lemma LegalTrail.leadsTo {root : NodeId} {start : Nat} {first next : Hop σ} {rest : List (Hop σ)}
    (h : t.LegalTrail chars source root start ⟨first, next :: rest⟩) : t.LeadsTo chars first next :=
  (List.isChain_cons_cons.1 h.linked).1

/-- What comes after the first hop of a trail is a trail of its own. -/
lemma LegalTrail.tail {root : NodeId} {start : Nat} {first next : Hop σ} {rest : List (Hop σ)}
    (h : t.LegalTrail chars source root start ⟨first, next :: rest⟩) :
    t.LegalTrail chars source next.root next.span.start ⟨next, rest⟩ :=
  ⟨rfl, rfl, fun hop hmem => h.hops hop (List.mem_cons_of_mem _ hmem), (List.isChain_cons_cons.1 h.linked).2⟩

lemma LegalTrail.matched_head {root : NodeId} {start : Nat} {trail : Trail σ}
    (h : t.LegalTrail chars source root start trail) :
    ∀ m ∈ trail.matched.head?, m.span.start = start := by
  obtain ⟨first, later⟩ := trail
  intro m hm
  rw [← h.start_eq]
  refine h.head.first m ?_
  cases later with
  | nil => simpa [Trail.matched, Trail.hops] using hm
  | cons next rest =>
    -- a hop that leads on is not empty, so its own first node comes first
    obtain ⟨m', nodes, hnodes⟩ := List.exists_cons_of_ne_nil h.leadsTo.nodes_ne_nil
    simpa [Trail.matched, Trail.hops, hnodes] using hm

lemma LegalTrail.matched_isChain {root : NodeId} {start : Nat} {trail : Trail σ}
    (h : t.LegalTrail chars source root start trail) :
    trail.matched.IsChain (MatchedNode.Precedes chars) := by
  obtain ⟨first, later⟩ := trail
  induction later generalizing first root start with
  | nil => simpa [Trail.matched, Trail.hops] using h.head.tiled
  | cons next rest ih =>
    have hmatched : Trail.matched ⟨first, next :: rest⟩ = first.nodes ++ Trail.matched ⟨next, rest⟩ := rfl
    obtain ⟨m, hlast, -, hsep⟩ := h.leadsTo
    rw [hmatched]
    refine List.IsChain.append h.head.tiled (ih next h.tail) ?_
    intro m' hm' n hn
    have heq : m = m' := Option.some.inj (hlast.symm.trans hm')
    rw [← heq, MatchedNode.Precedes, h.tail.matched_head n hn]
    exact hsep

/-! ## The invariant of a walk -/

/-- The hop so far is legal, it has arrived at `id`, and the place is where the next token begins: at the
start of the hop, or one separator after its last node. -/
structure Ready (t : CommandTree σ) (chars : List Char) (source : σ) (id : NodeId) (r : Reader)
    (hop : Hop σ) : Prop where
  legal : t.LegalHop chars source hop
  chars_eq : r.chars = chars
  current : hop.current = id
  fresh : hop.nodes = [] → r.cursor = hop.span.start
  behind : ∀ m ∈ hop.nodes.getLast?, Separates chars m.span.stop r.cursor

lemma ready_start {r : Reader} (root : NodeId) (hchars : r.chars = chars) :
    t.Ready chars source root r (.start source root r.cursor) := by
  refine ⟨legalHop_start root r.cursor, hchars, rfl, fun _ => rfl, ?_⟩
  simp [Hop.start]

lemma Ready.stop_le {id : NodeId} {r : Reader} {hop : Hop σ} (h : t.Ready chars source id r hop) :
    hop.span.stop ≤ r.cursor := by
  cases hlast : hop.nodes.getLast? with
  | none =>
    have hnil := List.getLast?_eq_none_iff.1 hlast
    rw [h.legal.empty hnil, h.fresh hnil]
  | some m =>
    rw [← h.legal.last m hlast, (h.behind m hlast).next_eq]
    exact Nat.le_succ _

section Pick

variable {id : NodeId} {r : Reader} {hop : Hop σ} {p : Pick σ}

lemma takes_of_mem_picks (ht : t.WellShaped) (hp : p ∈ t.picks id r hop) :
    t.Takes r hop p.node p.hop p.passed := by
  obtain ⟨husable, htoken⟩ := mem_picks.1 hp
  have hchild := mem_children_of_mem_candidates (mem_usable.1 husable).1
  exact takes_of_matchToken (ht.pattern_of_child hchild) htoken

/-- The span of a hop grows by the token at its end. -/
lemma Ready.span_pick (h : t.Ready chars source id r hop) (htakes : t.Takes r hop p.node p.hop p.passed) :
    p.hop.span.start = hop.span.start ∧ p.hop.span.stop = (r.ahead p.passed).stop := by
  have hstop := h.stop_le
  have hordered := hop.span.ordered
  have hahead := (r.ahead p.passed).ordered
  have hstart : (r.ahead p.passed).start = r.cursor := rfl
  rw [htakes.span_eq]
  simp only [Span.union]
  omega

/-- The token that is taken leads on from the node that the hop has come to. -/
lemma Ready.descends_pick (h : t.Ready chars source id r hop) (htakes : t.Takes r hop p.node p.hop p.passed)
    (hchild : p.node ∈ t.children id) :
    (p.hop.root :: p.hop.nodes.map MatchedNode.node).IsChain fun a b => b ∈ t.children a := by
  rw [htakes.root_eq, htakes.nodes_eq, List.map_append, ← List.cons_append]
  refine List.IsChain.append h.legal.descends (List.isChain_singleton _) ?_
  intro a ha b hb
  have hcurrent : a = id := by
    rw [← h.current, Hop.current]
    rw [List.getLast?_cons, List.getLast?_map] at ha
    exact (Option.some.inj ha).symm
  cases hb
  exact hcurrent ▸ hchild

/-- The first token of a hop begins where the hop does. -/
lemma Ready.first_pick (h : t.Ready chars source id r hop) (htakes : t.Takes r hop p.node p.hop p.passed) :
    ∀ m ∈ p.hop.nodes.head?, m.span.start = p.hop.span.start := by
  intro m hm
  rw [htakes.nodes_eq] at hm
  rw [(h.span_pick htakes).1]
  cases hnodes : hop.nodes with
  | nil =>
    rw [hnodes] at hm
    cases hm
    exact h.fresh hnodes
  | cons m' rest =>
    rw [hnodes] at hm
    cases hm
    exact h.legal.first _ (by rw [hnodes]; rfl)

lemma Ready.fits_pick (h : t.Ready chars source id r hop) (htakes : t.Takes r hop p.node p.hop p.passed)
    (hcanUse : (t.node p.node).canUse hop.source = true) : t.Fits chars source ⟨p.node, r.ahead p.passed⟩ := by
  have hslice : Text.slice? chars (r.ahead p.passed).start (r.ahead p.passed).stop =
      some (r.rest.take p.passed) := h.chars_eq ▸ r.slice?_advance p.passed
  refine ⟨h.legal.source_eq ▸ hcanUse, ⟨_, hslice⟩, fun k hk => ?_⟩
  rw [hslice, htakes.keyword k hk]

lemma Ready.legal_pick (ht : t.WellShaped) (h : t.Ready chars source id r hop)
    (hp : p ∈ t.picks id r hop) : t.LegalHop chars source p.hop := by
  have htakes := takes_of_mem_picks ht hp
  obtain ⟨hcandidate, hcanUse⟩ := mem_usable.1 (mem_picks.1 hp).1
  have hlast : p.hop.nodes.getLast? = some ⟨p.node, r.ahead p.passed⟩ := by
    rw [htakes.nodes_eq, List.getLast?_concat]
  constructor
  case source_eq => rw [htakes.source_eq, h.legal.source_eq]
  case descends => exact h.descends_pick htakes (mem_children_of_mem_candidates hcandidate)
  case tiled =>
    rw [htakes.nodes_eq]
    refine List.IsChain.append h.legal.tiled (List.isChain_singleton _) ?_
    intro m hm n hn
    cases hn
    exact h.behind m hm
  case first => exact h.first_pick htakes
  case last =>
    intro m hm
    rw [hlast] at hm
    cases hm
    exact (h.span_pick htakes).2.symm
  case empty =>
    intro hnil
    simp [htakes.nodes_eq] at hnil
  case fits =>
    intro m hm
    rw [htakes.nodes_eq, List.mem_append, List.mem_singleton] at hm
    rcases hm with hm | rfl
    · exact h.legal.fits m hm
    · exact h.fits_pick htakes hcanUse
  case handler_eq =>
    rw [hlast, htakes.handler_eq]
    rfl
  case modifier_eq =>
    rw [hlast, htakes.modifier_eq]
    rfl
  case forks_eq =>
    rw [hlast, htakes.forks_eq]
    rfl

lemma Takes.rest_eq (htakes : t.Takes r hop p.node p.hop p.passed) (hmore : t.goesOn r p) :
    r.rest.drop p.passed = separator :: r.rest.drop (p.passed + 1) := by
  have hends := htakes.ends
  rw [List.drop_eq_getElem_cons hmore.passed_lt] at hends ⊢
  simp only [endsToken, beq_iff_eq] at hends
  rw [hends]

/-- The separator after a token leads from its end to the next place. -/
lemma Takes.separates (htakes : t.Takes r hop p.node p.hop p.passed) (hmore : t.goesOn r p) :
    Separates r.chars (r.ahead p.passed).stop (r.advance (p.passed + 1)).cursor := by
  have hadvance := r.advance_advance p.passed 1
  have hnext : (r.advance p.passed).rest.take 1 = [separator] := by
    rw [Reader.rest_advance, htakes.rest_eq hmore]
    rfl
  have hslice := (r.advance p.passed).slice?_advance 1
  rw [hadvance, hnext, Reader.chars_advance] at hslice
  refine ⟨?_, hslice⟩
  have hcursor := (r.advance p.passed).cursor_advance 1
  rw [hadvance, hnext] at hcursor
  exact hcursor

/-- Below a pick, after the separator, the next token begins. -/
lemma Ready.onward (ht : t.WellShaped) (h : t.Ready chars source id r hop) (hp : p ∈ t.picks id r hop)
    (hmore : t.goesOn r p) : t.Ready chars source p.node (r.advance (p.passed + 1)) p.hop := by
  have htakes := takes_of_mem_picks ht hp
  refine ⟨h.legal_pick ht hp, ?_, ?_, ?_, ?_⟩
  · rw [Reader.chars_advance, h.chars_eq]
  · simp [Hop.current, htakes.nodes_eq]
  · intro hnil
    simp [htakes.nodes_eq] at hnil
  · intro m hm
    rw [htakes.nodes_eq, List.getLast?_concat] at hm
    cases hm
    exact h.chars_eq ▸ htakes.separates hmore

end Pick

/-! ## Whole walks -/

/-- Reading stopped at the end of the hop, or past the separator after its last node. -/
structure StopsAt (chars : List Char) (hop : Hop σ) (r : Reader) : Prop where
  chars_eq : r.chars = chars
  place : r.cursor = hop.span.stop ∨
    ∃ m, hop.nodes.getLast? = some m ∧ Separates chars m.span.stop r.cursor

lemma Ready.stopsAt {id : NodeId} {r : Reader} {hop : Hop σ} (h : t.Ready chars source id r hop) :
    StopsAt chars hop r := by
  refine ⟨h.chars_eq, ?_⟩
  cases hlast : hop.nodes.getLast? with
  | none =>
    have hnil := List.getLast?_eq_none_iff.1 hlast
    exact .inl ((h.fresh hnil).trans (h.legal.empty hnil).symm)
  | some m => exact .inr ⟨m, rfl, h.behind m hlast⟩

/-- The outcome of a walk is a legal trail, and reading stops where the trail ends. -/
theorem Walk.legal (ht : t.WellShaped) {id : NodeId} {r : Reader} {hop : Hop σ} {w : ParseResult σ}
    (hwalk : t.Walk id r hop w) (h : t.Ready chars source id r hop) :
    t.LegalTrail chars source hop.root hop.span.start w.trail ∧ StopsAt chars w.trail.last w.reader := by
  induction hwalk with
  | @stop id r hop p hp hends =>
    have htakes := takes_of_mem_picks ht hp
    obtain ⟨hstart, hstop⟩ := h.span_pick htakes
    have hlegal := (h.legal_pick ht hp).trail
    rw [htakes.root_eq, hstart] at hlegal
    refine ⟨hlegal, ?_, .inl hstop.symm⟩
    rw [arrival, Reader.chars_advance, h.chars_eq]
  | @onward id r hop w p hp hmore hplain _ ih =>
    have htakes := takes_of_mem_picks ht hp
    obtain ⟨hstart, -⟩ := h.span_pick htakes
    rw [← htakes.root_eq, ← hstart]
    exact ih (h.onward ht hp hmore)
  | @jump id target r hop w p hp hmore htarget _ ih =>
    have htakes := takes_of_mem_picks ht hp
    obtain ⟨hstart, -⟩ := h.span_pick htakes
    have hnext : (r.advance (p.passed + 1)).chars = chars := by
      rw [Reader.chars_advance, h.chars_eq]
    have hready : t.Ready chars source target (r.advance (p.passed + 1))
        (landing hop.source target (r.advance (p.passed + 1))) := by
      rw [h.legal.source_eq]
      exact ready_start target hnext
    obtain ⟨hlegal, hstops⟩ := ih hready
    refine ⟨?_, ?_⟩
    · rw [← htakes.root_eq, ← hstart]
      refine LegalTrail.cons (m := ⟨p.node, r.ahead p.passed⟩) (h.legal_pick ht hp) ?_ htarget ?_ hlegal
      · rw [htakes.nodes_eq, List.getLast?_concat]
      · exact h.chars_eq ▸ htakes.separates hmore
    · rw [ParseResult.behind, Trail.last_cons]
      exact hstops
  | @deadEnd id r hop _ => exact ⟨h.legal.trail, h.stopsAt⟩

/-- Every node that a walk matches after the first one takes a separator. -/
theorem Walk.length_matched_le (ht : t.WellShaped) {id : NodeId} {r : Reader} {hop : Hop σ}
    {w : ParseResult σ} (hwalk : t.Walk id r hop w) :
    w.trail.matched.length ≤ hop.nodes.length + (1 + r.rest.count separator) := by
  -- a separator that is skipped is among the characters ahead, and not among those after it
  have hcount : ∀ {id : NodeId} {r : Reader} {hop : Hop σ} {p : Pick σ}, p ∈ t.picks id r hop →
      t.goesOn r p →
        p.hop.nodes.length = hop.nodes.length + 1 ∧
          (r.advance (p.passed + 1)).rest.count separator + 1 ≤ r.rest.count separator := by
    intro id r hop p hp hmore
    have htakes := takes_of_mem_picks ht hp
    refine ⟨by simp [htakes.nodes_eq], ?_⟩
    rw [← List.take_append_drop p.passed r.rest, List.count_append, htakes.rest_eq hmore]
    simp
  induction hwalk with
  | @stop id r hop p hp hends =>
    have htakes := takes_of_mem_picks ht hp
    rw [arrival, Trail.matched_single, htakes.nodes_eq, List.length_append, List.length_singleton]
    omega
  | @onward id r hop w p hp hmore hplain _ ih =>
    obtain ⟨hlength, hless⟩ := hcount hp hmore
    omega
  | @jump id target r hop w p hp hmore htarget _ ih =>
    obtain ⟨hlength, hless⟩ := hcount hp hmore
    have hlanding : (landing hop.source target (r.advance (p.passed + 1))).nodes.length = 0 := rfl
    rw [ParseResult.behind, Trail.matched_cons, List.length_append]
    omega
  | @deadEnd id r hop _ =>
    rw [impasse, Trail.matched_single]
    omega

/-- A reading of a tree that can come about is a legal way through it.  Its hops begin at the root and
lead from one to the next by redirects; its matched nodes begin at the start of the reading, follow one
another with one separator in between and are therefore at most one more than there are separators;
and reading stops where they end. -/
theorem parseReader_legal (ht : t.Reachable) (r : Reader) (source : σ) :
    t.LegalTrail r.chars source rootId r.cursor (t.parseReader r source).trail ∧
      (∀ m ∈ (t.parseReader r source).trail.matched.head?, m.span.start = r.cursor) ∧
      (t.parseReader r source).trail.matched.IsChain (MatchedNode.Precedes r.chars) ∧
      (t.parseReader r source).trail.matched.length ≤ 1 + r.rest.count separator ∧
      StopsAt r.chars (t.parseReader r source).trail.last (t.parseReader r source).reader := by
  have hshape := ht.wellShaped
  have hwalk := t.walk_parseFrom rootId r (.start source rootId r.cursor)
  obtain ⟨hlegal, hstops⟩ := hwalk.legal hshape (ready_start rootId rfl)
  refine ⟨hlegal, hlegal.matched_head, hlegal.matched_isChain, ?_, hstops⟩
  calc (t.parseReader r source).trail.matched.length
      ≤ (Hop.start source rootId r.cursor).nodes.length + (1 + r.rest.count separator) :=
        hwalk.length_matched_le hshape
    _ = 1 + r.rest.count separator := Nat.zero_add _

/-- A keyword that leads back to the root, and another one that ends a command. -/
def roundabout : CommandTree Unit :=
  ⟨#[{ Node.root with children := [("again", 1), ("stop", 2)] },
    ⟨some (.literal "again"), [], none, none, some ⟨rootId, none, false⟩⟩,
    ⟨some (.literal "stop"), [], some fun _ => .ok 1, none, none⟩]⟩

lemma roundabout_reachable : roundabout.Reachable := by
  let again : NodeSpec Unit := .ofPattern (.literal "again")
  let stop : NodeSpec Unit := { NodeSpec.ofPattern (.literal "stop") with handler := some fun _ => .ok 1 }
  have hagain := Reachable.register (s := again) .empty rfl
  have hstop := hagain.register (s := stop) rfl
  exact .setRedirect (r := ⟨rootId, none, false⟩) hstop (by decide : 1 < 3) rfl

theorem parseReader_legal_roundabout :
    roundabout.Reachable ∧
      ((roundabout.parseReader (.ofString "again again stop") ()).trail.hops.map
        fun h => (h.span.start, h.span.stop)) = [(0, 5), (6, 11), (12, 16)] ∧
      roundabout.LegalTrail (Reader.ofString "again again stop").chars () rootId
        (Reader.ofString "again again stop").cursor
        (roundabout.parseReader (.ofString "again again stop") ()).trail :=
  ⟨roundabout_reachable, by decide +kernel,
    (parseReader_legal roundabout_reachable (.ofString "again again stop") ()).1⟩

end CommandTree
end CommandEngine
