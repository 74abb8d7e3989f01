import CommandEngine.Grammar.Build
import CommandEngine.Proofs.Keywords
import CommandEngine.Proofs.Likeness
import CommandEngine.Proofs.Tree.Arena

/-!
# Lines of keywords

A line of keywords is the names of nodes one below the other, joined by separators.  If the source may use them and
only the last of them redirects, the line is read to its end in one hop, whatever else the tree offers on the way:
the keyword that the next token spells is the only candidate, so no argument beside it is tried
(`CommandTree.KeywordChain.parseFrom_eq`).  A reading in one hop is run without stages, by calling its handler
(`CommandTree.execute_of_single`).  Together, `CommandTree.execute_keywords`: such a line calls the handler of its
last keyword, once.
-/

namespace CommandEngine

variable {σ : Type}

/-! ## Words in a line -/

/-- A name that is one word of an input. -/
def IsWord (k : String) : Prop := k ≠ "" ∧ separator ∉ k.toList

lemma toList_pathText_cons {k : String} {ks : List String} (h : ks ≠ []) :
    (pathText (k :: ks)).toList = k.toList ++ separator :: (pathText ks).toList := by
  obtain ⟨k', ks, rfl⟩ := List.exists_cons_of_ne_nil h
  simp [pathText, Text.join]

lemma toList_pathText_eq_intercalate (ws : List String) :
    (pathText ws).toList = [separator].intercalate (ws.map String.toList) := by
  induction ws with
  | nil => rfl
  | cons k ks ih =>
    cases ks with
    | nil => simp [pathText, Text.join, List.intercalate]
    | cons k' ks =>
      rw [toList_pathText_cons (List.cons_ne_nil _ _), ih]
      simp [List.intercalate]

/-- Words that are joined are the pieces of the line. -/
lemma pieces_pathText {ws : List String} (hne : ws ≠ []) (hws : ∀ w ∈ ws, IsWord w) :
    pieces (pathText ws) = ws := by
  have hunbroken : ∀ l ∈ ws.map String.toList, separator ∉ l := by
    intro l hl
    obtain ⟨w, hw, rfl⟩ := List.mem_map.1 hl
    exact (hws w hw).2
  rw [pieces, toList_pathText_eq_intercalate, List.splitOn_intercalate separator hunbroken (by simpa using hne),
    List.map_map]
  simp [Function.comp_def]

lemma pathText_eq_empty {ws : List String} (hws : ∀ w ∈ ws, IsWord w) : pathText ws = "" ↔ ws = [] := by
  constructor
  · intro hempty
    by_contra hne
    have hpieces := pieces_pathText hne hws
    rw [hempty] at hpieces
    have hblank : ws = [""] := by rw [← hpieces]; decide
    exact (hws "" (by simp [hblank])).1 rfl
  · rintro rfl
    rfl

namespace CommandTree

variable {t : CommandTree σ} {id goal : NodeId} {source : σ} {ns : List NodeId}

/-! ## Keywords one below the other -/

/-- The names of nodes. -/
def words (t : CommandTree σ) (ns : List NodeId) : List String := ns.map fun n => (t.node n).name

/-- A way down from a node along keywords that the source may use and each of which is one token.  None of them
redirects but the last. -/
structure KeywordChain (t : CommandTree σ) (source : σ) (id : NodeId) (ns : List NodeId) : Prop where
  chain : (id :: ns).IsChain fun parent n => n ∈ t.children parent
  keyword : ∀ n ∈ ns, ∃ k, (t.node n).pattern = some (.literal k) ∧ separator ∉ k.toList
  usable : ∀ n ∈ ns, (t.node n).canUse source = true
  plain : ∀ n ∈ ns.dropLast, (t.node n).redirect = none

namespace KeywordChain

variable {n m : NodeId}

lemma tail (h : t.KeywordChain source id (n :: ns)) : t.KeywordChain source n ns := by
  refine ⟨(List.isChain_cons_cons.1 h.chain).2, fun m hm => h.keyword m (List.mem_cons_of_mem _ hm),
    fun m hm => h.usable m (List.mem_cons_of_mem _ hm), fun m hm => h.plain m ?_⟩
  cases ns with
  | nil => cases hm
  | cons k ns => exact List.mem_cons_of_mem _ hm

lemma plain_head (h : t.KeywordChain source id (n :: m :: ns)) : (t.node n).target? = none := by
  rw [Node.target?, h.plain n (List.mem_cons_self ..), Option.map_none]

/-- The first keyword is a child under its own name, which is one word. -/
lemma head (ht : t.Reachable) (h : t.KeywordChain source id (n :: ns)) :
    t.child? id (t.node n).name = some n ∧ (t.node n).isLiteral = true ∧ IsWord (t.node n).name ∧
      (t.node n).canUse source = true := by
  have hmem : n ∈ t.children id := (List.isChain_cons_cons.1 h.chain).1
  obtain ⟨k, hpattern, hunbroken⟩ := h.keyword n (List.mem_cons_self ..)
  obtain ⟨hchild, hliteral⟩ := keyword_of_pattern ht.wellShaped hmem hpattern
  have hentry := ht.wellShaped.child?_eq_some.1 hchild
  have hsize := (ht.wellShaped.ordered hentry).2
  have hnamed := ht.settled.named n hsize (ht.wellShaped.ne_root hentry)
  rw [ht.wellShaped.name_of_mem hentry] at hnamed ⊢
  exact ⟨hchild, hliteral, ⟨hnamed, hunbroken⟩, h.usable n (List.mem_cons_self ..)⟩

lemma isWord (ht : t.Reachable) (h : t.KeywordChain source id ns) : ∀ w ∈ t.words ns, IsWord w := by
  induction ns generalizing id with
  | nil => simp [words]
  | cons n ns ih => exact List.forall_mem_cons.2 ⟨(h.head ht).2.2.1, ih h.tail⟩

end KeywordChain

/-- The keywords of a path stand one below the other. -/
lemma KeywordPath.exists_keywordChain (ht : t.WellShaped) {ks : List String}
    (h : t.KeywordPath source id ks goal) :
    ∃ ns, t.KeywordChain source id ns ∧ t.words ns = ks ∧ (id :: ns).getLast? = some goal := by
  induction h with
  | nil => exact ⟨[], ⟨List.isChain_singleton _, by simp, by simp, by simp⟩, rfl, rfl⟩
  | @cons id c goal k ks hchild hliteral hunbroken hplain hcanUse _ ih =>
    obtain ⟨ns, hchain, rfl, hlast⟩ := ih
    have hentry := ht.child?_eq_some.1 hchild
    have hpattern := pattern_of_keyword ht hchild hliteral
    refine ⟨c :: ns, ?_, by rw [words, List.map_cons, ht.name_of_mem hentry]; rfl,
      by rw [List.getLast?_cons_cons, hlast]⟩
    refine ⟨List.isChain_cons_cons.2 ⟨List.mem_map.2 ⟨(k, c), hentry, rfl⟩, hchain.chain⟩,
      List.forall_mem_cons.2 ⟨⟨k, hpattern, hunbroken⟩, hchain.keyword⟩,
      List.forall_mem_cons.2 ⟨hcanUse, hchain.usable⟩, ?_⟩
    cases ns with
    | nil => simp
    | cons n ns => exact List.forall_mem_cons.2 ⟨Option.map_eq_none_iff.1 hplain, hchain.plain⟩

/-! ## Reading a line -/

/-- What a hop has become by reading keywords: the same hop with their nodes at its end, each with its own word. -/
structure Visits (t : CommandTree σ) (chars : List Char) (hop : Hop σ) (ns : List NodeId) (reached : Hop σ) :
    Prop where
  source : reached.source = hop.source
  root : reached.root = hop.root
  arguments : reached.arguments = hop.arguments
  nodes : reached.nodes.map (fun m => (m.node, m.span.chars chars)) =
    hop.nodes.map (fun m => (m.node, m.span.chars chars)) ++ ns.map fun n => (n, (t.node n).name.toList)

lemma visits_entered {r : Reader} {hop : Hop σ} {n : NodeId} {text : List Char}
    (hrest : r.rest = (t.node n).name.toList ++ text) :
    t.Visits r.chars hop [n] (t.entered hop n (r.ahead (t.node n).name.toList.length)) := by
  refine ⟨rfl, rfl, rfl, ?_⟩
  have hword := chars_ahead r (t.node n).name.toList.length
  rw [hrest, List.take_left] at hword
  simp [entered, Hop.withNode, hword]

lemma Visits.cons {chars : List Char} {hop entered reached : Hop σ} {n : NodeId}
    (h : t.Visits chars hop [n] entered) (h' : t.Visits chars entered ns reached) :
    t.Visits chars hop (n :: ns) reached := by
  refine ⟨h'.source.trans h.source, h'.root.trans h.root, h'.arguments.trans h.arguments, ?_⟩
  rw [h'.nodes, h.nodes, List.append_assoc]
  rfl

/-- A line of keywords is read to its end in one hop, which matches their nodes and nothing else. -/
theorem KeywordChain.parseFrom_eq (ht : t.Reachable) {hop : Hop σ} (h : t.KeywordChain hop.source id ns)
    (hgoal : ns.getLast? = some goal) {r : Reader} (hrest : r.rest = (pathText (t.words ns)).toList) :
    ∃ reached, t.parseFrom id r hop = ⟨.single reached, r.atEnd, []⟩ ∧ t.Visits r.chars hop ns reached ∧
      reached.handler = (t.node goal).handler := by
  induction ns generalizing id r hop with
  | nil => cases hgoal
  | cons n ns ih =>
    obtain ⟨hchild, hliteral, hword, hcanUse⟩ := h.head ht
    cases ns with
    | nil =>
      -- nothing is left after the last keyword, so even if it redirects, reading ends there
      obtain rfl : n = goal := Option.some.inj hgoal
      have hwhole : r.rest = (t.node n).name.toList ++ [] := by
        rw [hrest, List.append_nil]
        rfl
      have htoken : (t.node n).name.toList = r.rest.takeWhile (· ≠ separator) := by
        rw [hwhole, takeWhile_token hword.2 rfl]
      have hlength : (t.node n).name.toList.length = r.rest.length := by rw [hwhole, List.append_nil]
      have hpicks : t.picks id r hop = _ := picks_of_keyword ht.wellShaped hchild hliteral hcanUse htoken
      have hends : ¬ t.goesOn r ⟨n, t.entered hop n (r.ahead (t.node n).name.toList.length),
          (t.node n).name.toList.length⟩ := by
        simp only [goesOn, needs, hlength]
        split <;> omega
      refine ⟨_, ?_, visits_entered hwhole, rfl⟩
      rw [parseFrom_of_sole_ends hpicks hends, arrival, hlength, Reader.advance_length]
    | cons m ns =>
      have hline : r.rest = (t.node n).name.toList ++ separator :: (pathText (t.words (m :: ns))).toList :=
        hrest.trans (toList_pathText_cons (List.cons_ne_nil _ _))
      have hmore : (pathText (t.words (m :: ns))).toList ≠ [] := by
        intro hnil
        exact List.cons_ne_nil _ _ ((pathText_eq_empty (h.tail.isWord ht)).1 (String.toList_injective hnil))
      have hstep : t.parseFrom id r hop = _ :=
        parseFrom_of_keyword ht.wellShaped hchild hliteral hword.2 h.plain_head hcanUse hmore hline
      -- the hop that goes on is for the same source
      have htail : t.KeywordChain (t.entered hop n (r.ahead (t.node n).name.toList.length)).source n (m :: ns) :=
        h.tail
      obtain ⟨reached, heq, hvisits, hhandler⟩ := ih htail hgoal (rest_advance_word hline)
      rw [Reader.chars_advance] at hvisits
      rw [Reader.atEnd_advance] at heq
      exact ⟨reached, hstep.trans heq, (visits_entered hline).cons hvisits, hhandler⟩

/-! ## Running a line -/

/-- A reading in one hop calls the handler of that hop, once. -/
lemma execute_of_single {w : ParseResult σ} {reached : Hop σ} {f : Handler σ} (htrail : w.trail = .single reached)
    (hrest : w.reader.rest = []) (hf : reached.handler = some f) :
    w.execute = ⟨f ⟨w.reader.input, reached.toFrame, []⟩,
      [.handled ⟨w.reader.input, reached.toFrame, []⟩ (f ⟨w.reader.input, reached.toFrame, []⟩)]⟩ := by
  have herror : w.error? = none := by
    simp [ParseResult.error?, ParseResult.isComplete, Reader.canRead, hrest]
  have hchain : Chain.ofTrail? w.trail w.reader.input = some ⟨[], ⟨w.reader.input, reached.toFrame, []⟩, f⟩ := by
    rw [htrail]
    simp [Chain.ofTrail?, Trail.single, Trail.last, Trail.lastContext, Chain.stagesOf, hf]
  rw [ParseResult.execute, herror, hchain, htrail]
  show Chain.handleAll _ _ _ [reached.source] = _
  simp only [Chain.handleAll, Chain.handle, Context.withSource]
  cases f ⟨w.reader.input, reached.toFrame, []⟩ with
  | ok n => simp
  | error e => rfl

/-- A line of keywords calls the handler of its last keyword, once, with what was read in the one hop. -/
lemma KeywordChain.execute_eq (ht : t.Reachable) (h : t.KeywordChain source rootId ns)
    (hgoal : ns.getLast? = some goal) {f : Handler σ} (hf : (t.node goal).handler = some f) :
    ∃ reached : Hop σ, t.Visits (pathText (t.words ns)).toList (.start source rootId 0) ns reached ∧
      t.execute (pathText (t.words ns)) source =
        ⟨f ⟨pathText (t.words ns), reached.toFrame, []⟩,
          [.handled ⟨pathText (t.words ns), reached.toFrame, []⟩
            (f ⟨pathText (t.words ns), reached.toFrame, []⟩)]⟩ := by
  have hstart : t.KeywordChain (Hop.start source rootId 0).source rootId ns := h
  have hwhole : (Reader.ofString (pathText (t.words ns))).rest = (pathText (t.words ns)).toList := rfl
  obtain ⟨reached, hread, hvisits, hhandler⟩ := hstart.parseFrom_eq ht hgoal hwhole
  have hparse : t.parse (pathText (t.words ns)) source =
      ⟨.single reached, (Reader.ofString (pathText (t.words ns))).atEnd, []⟩ := hread
  have hinput : (Reader.ofString (pathText (t.words ns))).atEnd.input = pathText (t.words ns) := by
    simp [Reader.input, Reader.atEnd, Reader.chars, Reader.ofString]
  have hexecute : t.execute (pathText (t.words ns)) source = _ :=
    execute_of_single (congrArg ParseResult.trail hparse) (by rw [hparse]; rfl) (hhandler.trans hf)
  rw [hparse, hinput] at hexecute
  exact ⟨reached, hvisits, hexecute⟩

/-- A line of keywords calls the handler of its last keyword, once, and for the source that it was read for.  What the
handler gets to see is the line, the nodes along it, each with its own word, and no arguments.  Its answer is the
outcome, and the observer is told of that and of nothing else. -/
theorem execute_keywords (ht : t.Reachable) (h : t.KeywordChain source rootId ns)
    (hgoal : ns.getLast? = some goal) {f : Handler σ} (hf : (t.node goal).handler = some f) :
    ∃ c : Context σ, c.input = pathText (t.words ns) ∧ c.source = source ∧ c.frame.root = rootId ∧
      c.frame.nodes.map (fun m => (m.node, m.span.text c.input)) = ns.map (fun n => (n, (t.node n).name)) ∧
      c.frame.arguments = [] ∧ c.onward = [] ∧
      t.execute (pathText (t.words ns)) source = ⟨f c, [.handled c (f c)]⟩ ∧
      (t.execute (pathText (t.words ns)) source).notices = [⟨c, (f c).isOk, (f c).toOption.getD 0⟩] := by
  obtain ⟨reached, hvisits, hexecute⟩ := h.execute_eq ht hgoal hf
  refine ⟨⟨pathText (t.words ns), reached.toFrame, []⟩, rfl, hvisits.source, hvisits.root, ?_, hvisits.arguments, rfl,
    hexecute, ?_⟩
  · have hnodes := congrArg (List.map fun (p : NodeId × List Char) => (p.1, String.ofList p.2)) hvisits.nodes
    simpa [Hop.start, Span.text, Function.comp_def] using hnodes
  · rw [hexecute, Run.notices]
    cases f ⟨pathText (t.words ns), reached.toFrame, []⟩ <;> rfl

/-- A panel with a switch that is jammed.  Its keyword could be read as a value as well, and leads back to the root. -/
def panel : CommandTree Unit :=
  ⟨#[{ Node.root with children := [("set", 1)] },
    ⟨some (.literal "set"), [("value", 2), ("on", 3)], none, none, none⟩,
    ⟨some (.argument "value" (.text .word) none), [], some fun _ => .ok 1, none, none⟩,
    ⟨some (.literal "on"), [], some fun _ => .error (.custom "jammed"), none, some ⟨rootId, none, false⟩⟩]⟩

lemma panel_reachable : panel.Reachable :=
  .register (s := { NodeSpec.ofPattern (.literal "set") with
    children := [{ NodeSpec.ofPattern (.argument "value" (.text .word) none) with handler := some fun _ => .ok 1 },
      { NodeSpec.ofPattern (.literal "on") with
        handler := some fun _ => .error (.custom "jammed")
        redirect := some ⟨rootId, none, false⟩ }] }) .empty rfl

lemma panel_keywordChain : panel.KeywordChain () rootId [1, 3] := by
  refine ⟨by decide, ?_, by decide, ?_⟩
  · rw [List.forall_mem_cons, List.forall_mem_singleton]
    exact ⟨⟨"set", rfl, by decide⟩, "on", rfl, by decide⟩
  · rw [List.dropLast_cons_cons, List.dropLast_singleton, List.forall_mem_singleton]
    rfl

/-- The switch answers with its error, and neither the value beside it nor its redirect matters. -/
theorem execute_keywords_panel :
    panel.Reachable ∧ panel.KeywordChain () rootId [1, 3] ∧
      (panel.execute "set on" ()).outcome = .error (.custom "jammed") ∧
      ∃ c, c.input = "set on" ∧ c.frame.nodes.map MatchedNode.node = [1, 3] ∧
        (panel.execute "set on" ()).trace = [.handled c (.error (.custom "jammed"))] ∧
        (panel.execute "set on" ()).notices = [⟨c, false, 0⟩] := by
  have hgoal : [1, 3].getLast? = some 3 := rfl
  obtain ⟨c, hinput, -, -, hnodes, -, -, hexecute, hnotices⟩ :=
    execute_keywords panel_reachable panel_keywordChain hgoal rfl
  have hline : pathText (panel.words [1, 3]) = "set on" := by decide +kernel
  rw [hline] at hinput hexecute hnotices
  refine ⟨panel_reachable, panel_keywordChain, by rw [hexecute], c, hinput, ?_, by rw [hexecute], hnotices⟩
  have hids := congrArg (List.map Prod.fst) hnodes
  rwa [List.map_map, List.map_map] at hids

end CommandTree
end CommandEngine
