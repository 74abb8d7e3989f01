import CommandEngine.Proofs.Grammar.Declarations
import CommandEngine.Proofs.Schedule
import CommandEngine.Proofs.Tiling

/-!
# Which requirements guard a handler

A requirement is checked where reading steps onto a node, and nowhere else.  A command is read in legs: the
first leg goes down from the root, and a redirect begins a new one below the path that it leads to.  On every
leg the source has to hold what the first declaration of each path on it requires, from below the start
of the leg down to its end.  A handler that is called is declared at the end of the last leg
(`Grammar.route_of_handled`).

So a requirement does not guard everything that is declared below it.  A redirect leads past the requirements
at and above its target, and a declaration that is merged into an earlier one of its path loses its own
(`Grammar.not_enforces`).
-/

namespace CommandEngine

/-! ## Requirements and legs -/

/-- A source holds what a declared node and the nodes above it require. -/
def Declaration.HeldBy (d : Declaration) (s : Source) : Prop :=
  ∀ n ∈ d.lineage, ∀ permission ∈ n.requires, s.holds permission = true

instance (d : Declaration) (s : Source) : Decidable (d.HeldBy s) :=
  inferInstanceAs (Decidable (∀ n ∈ d.lineage, ∀ permission ∈ n.requires, s.holds permission = true))

/-- A stretch of a command between redirects: the path that it starts below and the path where it ends. -/
structure Leg where
  start : List String
  stop : List String

namespace Grammar

/-- The handler that is called for a context is the one that `d` declares: the context ends at the path of
`d`, and there is no later declaration of that path with an action. -/
structure Declares (g : Grammar) (t : CommandTree Source) (c : Context Source) (d : Declaration) : Prop where
  place : c.frame.nodes.getLast?.map MatchedNode.node = t.find? d.path
  acting : g.acting? d.path = some d

/-- A source may take a leg: it goes down at least one node, and on every path below its start the source
holds what the first declaration requires. -/
structure Guards (g : Grammar) (s : Source) (l : Leg) : Prop where
  below : l.start <+: l.stop
  proper : l.start ≠ l.stop
  held : ∀ d, g.opening? d.path = some d → l.start <+: d.path → d.path ≠ l.start → d.path <+: l.stop →
    ∀ permission ∈ d.node.requires, s.holds permission = true

/-- A redirect is declared where the first leg ends, and leads to where the second starts. -/
def Joins (g : Grammar) (a b : Leg) : Prop :=
  ∃ d ∈ g.declarations, d.path = a.stop ∧ d.node.redirect = some b.start

/-- The legs of a command, one for each of its hops, from `start` to `goal`. -/
structure Route (g : Grammar) (t : CommandTree Source) (s : Source) (start goal : List String)
    (hops : List (Hop Source)) (legs : List Leg) : Prop where
  starts : legs.head?.map Leg.start = some start
  joined : legs.IsChain g.Joins
  guarded : ∀ l ∈ legs, g.Guards s l
  taken : List.Forall₂ (fun h l => t.find? l.start = some h.root ∧ t.find? l.stop = some h.current) hops legs
  arrives : legs.getLast?.map Leg.stop = some goal

end Grammar

/-! ## Paths of matched nodes -/

namespace CommandTree

variable {σ : Type} {t : CommandTree σ}

def namesOf (t : CommandTree σ) (h : Hop σ) : List String := h.nodes.map fun m => (t.node m.node).name

/-- Matched nodes that go down from a path stand at the paths that their names spell. -/
lemma find?_of_descends (ht : t.WellShaped) {path : List String} {root : NodeId} {ids : List NodeId}
    (hroot : t.find? path = some root) (hdown : (root :: ids).IsChain fun a b => b ∈ t.children a)
    {i : Nat} {id : NodeId} (hi : ids[i]? = some id) :
    t.find? (path ++ (ids.map fun id => (t.node id).name).take (i + 1)) = some id := by
  induction ids generalizing path root i with
  | nil => cases hi
  | cons first rest ih =>
    obtain ⟨hchild, hrest⟩ := List.isChain_cons_cons.1 hdown
    have hfirst : t.find? (path ++ [(t.node first).name]) = some first := by
      rw [find?_concat_of_some hroot, ht.child?_name hchild]
    cases i with
    | zero =>
      obtain rfl : first = id := by simpa using hi
      simpa using hfirst
    | succ i =>
      have hbelow := ih hfirst hrest (i := i) (by simpa using hi)
      simpa using hbelow

lemma LegalHop.find?_current {chars : List Char} {source : σ} {h : Hop σ} {start : List String}
    (ht : t.WellShaped) (hlegal : t.LegalHop chars source h) (hstart : t.find? start = some h.root) :
    t.find? (start ++ t.namesOf h) = some h.current := by
  cases hlast : h.nodes.getLast? with
  | none =>
    have hnil := List.getLast?_eq_none_iff.1 hlast
    simpa [namesOf, Hop.current, hnil] using hstart
  | some m =>
    have hlength : 0 < h.nodes.length := by
      rw [List.length_pos_iff]
      rintro hnil
      simp [hnil] at hlast
    have hi : (h.nodes.map MatchedNode.node)[h.nodes.length - 1]? = some m.node := by
      rw [List.getElem?_map, ← List.getLast?_eq_getElem?, hlast, Option.map_some]
    have hfind := find?_of_descends ht hstart hlegal.descends hi
    rw [Nat.sub_add_cancel hlength, List.map_map, List.take_of_length_le (by simp)] at hfind
    rw [Hop.current, hlast]
    exact hfind

/-- On every path that a hop passes it has matched a node. -/
lemma LegalHop.exists_matched {chars : List Char} {source : σ} {h : Hop σ} {start path : List String}
    (ht : t.WellShaped) (hlegal : t.LegalHop chars source h) (hstart : t.find? start = some h.root)
    (hbelow : start <+: path) (hproper : path ≠ start) (hpath : path <+: start ++ t.namesOf h) :
    ∃ m ∈ h.nodes, t.find? path = some m.node := by
  obtain ⟨names, rfl⟩ := hbelow
  have hne : names ≠ [] := by
    rintro rfl
    exact hproper (List.append_nil start)
  have hnames : names <+: t.namesOf h := (List.prefix_append_right_inj start).1 hpath
  -- the names are those of the first so many nodes
  have hlength := List.length_pos_iff.2 hne
  have htake := List.prefix_iff_eq_take.1 hnames
  have hlt : names.length - 1 < h.nodes.length := by
    have hle := hnames.length_le
    simp only [namesOf, List.length_map] at hle
    omega
  obtain ⟨m, hm⟩ : ∃ m, h.nodes[names.length - 1]? = some m := ⟨_, List.getElem?_eq_getElem hlt⟩
  have hi : (h.nodes.map MatchedNode.node)[names.length - 1]? = some m.node := by
    rw [List.getElem?_map, hm, Option.map_some]
  have hfind := find?_of_descends ht hstart hlegal.descends hi
  rw [Nat.sub_add_cancel hlength, List.map_map] at hfind
  refine ⟨m, List.mem_of_getElem? hm, ?_⟩
  rw [htake]
  exact hfind

end CommandTree

/-! ## From hops to legs -/

namespace Grammar

variable {g : Grammar} {t : CommandTree Source} {chars : List Char} {s : Source}

lemma Describes.holds_of_canUse (hg : g.Describes t) {d : Declaration} {id : NodeId}
    (hopening : g.opening? d.path = some d) (hid : t.find? d.path = some id)
    (hcanUse : (t.node id).canUse s = true) :
    ∀ permission ∈ d.node.requires, s.holds permission = true := by
  intro permission hpermission
  obtain ⟨d', hd', hrequirement⟩ := hg.opening d.path_ne_nil hid
  obtain rfl : d = d' := Option.some.inj (hopening.symm.trans hd')
  rw [GrammarNode.toSpec_requirement, Option.mem_def.1 hpermission, Option.map_some] at hrequirement
  simpa [Node.canUse, hrequirement] using hcanUse

/-- The leg of a hop that has matched something is guarded. -/
lemma Describes.guards_of_legalHop (hg : g.Describes t) {h : Hop Source} {start : List String}
    (hlegal : t.LegalHop chars s h) (hstart : t.find? start = some h.root) (hmatched : h.nodes ≠ []) :
    g.Guards s ⟨start, start ++ t.namesOf h⟩ := by
  refine ⟨List.prefix_append .., ?_, ?_⟩
  · simpa [CommandTree.namesOf] using hmatched
  · intro d hopening hbelow hproper hpath
    obtain ⟨m, hm, hfind⟩ := hlegal.exists_matched hg.shaped hstart hbelow hproper hpath
    exact hg.holds_of_canUse hopening hfind (hlegal.fits m hm).usable

/-- A trail that ends with a matched node is a route: hop after hop, each begins where a redirect that is
declared at the end of the one before it leads. -/
theorem Describes.exists_route (hg : g.Describes t) {root : NodeId} {offset : Nat} {trail : Trail Source}
    {start : List String} (htrail : t.LegalTrail chars s root offset trail)
    (hstart : t.find? start = some root) (hmatched : trail.last.nodes ≠ []) :
    ∃ goal legs, t.find? goal = some trail.last.current ∧ g.Route t s start goal trail.hops legs := by
  obtain ⟨first, later⟩ := trail
  induction later generalizing first root offset start with
  | nil =>
    have hlegal := htrail.head
    rw [← htrail.root_eq] at hstart
    have hcurrent := hlegal.find?_current hg.shaped hstart
    refine ⟨start ++ t.namesOf first, [⟨start, start ++ t.namesOf first⟩], hcurrent, rfl,
      List.isChain_singleton _, ?_, .cons ⟨hstart, hcurrent⟩ .nil, rfl⟩
    intro l hl
    obtain rfl := List.mem_singleton.1 hl
    exact hg.guards_of_legalHop hlegal hstart hmatched
  | cons next rest ih =>
    have hlegal := htrail.head
    rw [← htrail.root_eq] at hstart
    have hcurrent := hlegal.find?_current hg.shaped hstart
    have hleads := htrail.leadsTo
    have hlast : Trail.last ⟨first, next :: rest⟩ = Trail.last ⟨next, rest⟩ :=
      Trail.last_cons first ⟨next, rest⟩
    have hguards := hg.guards_of_legalHop hlegal hstart hleads.nodes_ne_nil
    -- the redirect that the second hop comes from is declared where the first one ends
    obtain ⟨m, hm, htarget, -⟩ := hleads
    obtain ⟨d, hd, path, hredirect, hfrom, hto⟩ := hg.leads htarget
    have hend : first.current = m.node := by rw [Hop.current, hm]; rfl
    have hpath : d.path = start ++ t.namesOf first := by
      rw [hend] at hcurrent
      exact hg.shaped.find?_inj hfrom hcurrent
    rw [hlast] at hmatched ⊢
    obtain ⟨goal, legs, hgoal, hroute⟩ := ih hto next htrail.tail hmatched
    obtain ⟨l, legs, rfl⟩ : ∃ l rest, legs = l :: rest := by
      cases legs with
      | nil => cases hroute.starts
      | cons l legs => exact ⟨l, legs, rfl⟩
    obtain rfl : l.start = path := Option.some.inj hroute.starts
    refine ⟨goal, ⟨start, start ++ t.namesOf first⟩ :: l :: legs, hgoal, rfl, ?_, ?_, ?_, ?_⟩
    · exact List.isChain_cons_cons.2 ⟨⟨d, hd, hpath, hredirect⟩, hroute.joined⟩
    · intro l' hl'
      rcases List.mem_cons.1 hl' with rfl | hl'
      · exact hguards
      · exact hroute.guarded l' hl'
    · exact .cons ⟨hstart, hcurrent⟩ hroute.taken
    · rw [List.getLast?_cons_cons]
      exact hroute.arrives

lemma Route.goal_ne_nil {start goal : List String} {hops : List (Hop Source)} {legs : List Leg}
    (h : g.Route t s start goal hops legs) : goal ≠ [] := by
  obtain ⟨l, hl, rfl⟩ := Option.map_eq_some_iff.1 h.arrives
  have hguards := h.guarded l (List.mem_of_getLast? hl)
  rintro hnil
  have hstart := hguards.below
  rw [hnil, List.prefix_nil] at hstart
  exact hguards.proper (hstart.trans hnil.symm)

/-- At the end of a route the source holds what is required by a declaration and by those above it, as far as
they are below the start of the last leg and not merged into earlier ones. -/
lemma Route.held_above {start : List String} {d : Declaration} {hops : List (Hop Source)} {legs : List Leg}
    (h : g.Route t s start d.path hops legs) {e : Declaration} (habove : e.lineage <+: d.lineage)
    (hopening : g.opening? e.path = some e) (hbelow : ∀ l ∈ legs.getLast?, l.start.length < e.path.length) :
    ∀ permission ∈ e.node.requires, s.holds permission = true := by
  obtain ⟨l, hl, hstop⟩ := Option.map_eq_some_iff.1 h.arrives
  have hguards := h.guarded l (List.mem_of_getLast? hl)
  have hlength := hbelow l hl
  have hpath : e.path <+: l.stop := by
    rw [hstop]
    exact habove.map GrammarNode.name
  have hstart : l.start <+: e.path :=
    List.prefix_of_prefix_length_le hguards.below hpath (Nat.le_of_lt hlength)
  refine hguards.held e hopening hstart ?_ hpath
  rintro heq
  rw [heq] at hlength
  exact absurd hlength (Nat.lt_irrefl _)

lemma Describes.acting_of_handler (hg : g.Describes t) {path : List String} {id : NodeId}
    {handler : Handler Source} (hpath : path ≠ []) (hid : t.find? path = some id)
    (hhandler : (t.node id).handler = some handler) :
    ∃ d a, g.acting? d.path = some d ∧ d.path = path ∧ d.node.executes = some a ∧ handler = a.handler := by
  rw [hg.acting hpath hid, Option.bind_eq_some_iff] at hhandler
  obtain ⟨d, hd, hhandler⟩ := hhandler
  rw [GrammarNode.toSpec_handler, Option.map_eq_some_iff] at hhandler
  obtain ⟨a, ha, rfl⟩ := hhandler
  have hplace := path_of_acting hd
  exact ⟨d, a, hplace.symm ▸ hd, hplace, ha, rfl⟩

/-- Whatever handler is called when a command of a loaded document is run, it is an action that the
document declares, and the way to it is guarded: leg after leg, from the root and from where redirects
lead, the source holds what the first declaration of every path on the leg requires.  The last leg
ends at the path of the declaration, so the source holds what is required there and above, as far as it is
below the start of that leg and not merged into earlier declarations. -/
theorem route_of_handled {text input : String} {t : CommandTree Source} {s : Source} {c : Context Source}
    {o : Except SyntaxError Int32} (hload : Grammar.loadTree text = .ok t)
    (hhandled : .handled c o ∈ (t.execute input s).trace) :
    ∃ g d a legs, Grammar.load text = .ok g ∧ g.Declares t c d ∧ d.node.executes = some a ∧
      o = a.handler c ∧ g.Route t s [] d.path (t.parse input s).trail.hops legs ∧
      ∀ e : Declaration, e.lineage <+: d.lineage → g.opening? e.path = some e →
        (∀ l ∈ legs.getLast?, l.start.length < e.path.length) →
          ∀ permission ∈ e.node.requires, s.holds permission = true := by
  obtain ⟨g, hg, hbuild⟩ := loadTree_eq_ok.1 hload
  have hdescribes := build_describes hbuild
  obtain ⟨handler, hhandler, rfl, hnodes⟩ := ParseResult.handled_of_mem_execute hhandled
  -- the last hop of the reading has the handler, so it has matched a node
  have hwalk := t.walk_parseFrom rootId (.ofString input) (.start s rootId (Reader.ofString input).cursor)
  have htrail := (hwalk.legal hdescribes.shaped (CommandTree.ready_start rootId rfl)).1
  change t.LegalTrail _ s rootId _ (t.parse input s).trail at htrail
  have hlegal := htrail.hops _ (Trail.last_mem_hops _)
  rw [hlegal.handler_eq, Option.bind_eq_some_iff] at hhandler
  obtain ⟨m, hm, hhandler⟩ := hhandler
  have hmatched : (t.parse input s).trail.last.nodes ≠ [] := by
    rintro hnil
    simp [hnil] at hm
  obtain ⟨goal, legs, hgoal, hroute⟩ := hdescribes.exists_route htrail CommandTree.find?_nil hmatched
  have hend : (t.parse input s).trail.last.current = m.node := by rw [Hop.current, hm]; rfl
  rw [hend] at hgoal
  obtain ⟨d, a, hacting, rfl, ha, rfl⟩ := hdescribes.acting_of_handler hroute.goal_ne_nil hgoal hhandler
  refine ⟨g, d, a, legs, hg, ⟨?_, hacting⟩, ha, rfl, hroute, fun e habove => hroute.held_above habove⟩
  rw [hnodes, hm, hgoal]
  rfl

/-! ## What is not guarded -/

/-- Every handler that a run of a document calls is declared where the source holds everything that is
required there and above. -/
def Enforces (text input : String) (s : Source) : Prop :=
  ∀ g t c o d, Grammar.load text = .ok g → g.build = .ok t → .handled c o ∈ (t.execute input s).trace →
    g.Declares t c d → d.HeldBy s

/-- Whether the one call of a run is that of the handler at a path, and something is required there or above
that the source does not hold. -/
def bypassed (text input : String) (s : Source) (path : List String) : Bool :=
  match Grammar.load text with
  | .error _ => false
  | .ok g =>
    match g.build with
    | .error _ => false
    | .ok t =>
      match (t.execute input s).trace, g.acting? path with
      | [.handled c _], some d =>
        decide (c.frame.nodes.getLast?.map MatchedNode.node = t.find? path ∧ ¬ d.HeldBy s)
      | _, _ => false

lemma exists_of_bypassed {text input : String} {path : List String} (h : bypassed text input s path = true) :
    ∃ g t c o d, Grammar.load text = .ok g ∧ g.build = .ok t ∧
      .handled c o ∈ (t.execute input s).trace ∧ g.Declares t c d ∧ ¬ d.HeldBy s := by
  unfold bypassed at h
  split at h
  · cases h
  · next g hload =>
    split at h
    · cases h
    · next t hbuild =>
      split at h
      · next c o d htrace hacting =>
        obtain ⟨hplace, hheld⟩ := of_decide_eq_true h
        obtain rfl := path_of_acting hacting
        exact ⟨g, t, c, o, d, hload, hbuild, by rw [htrace]; exact List.mem_singleton_self _,
          ⟨hplace, hacting⟩, hheld⟩
      · cases h

/-- A keyword with nothing attached. -/
def keyword (name : String) : GrammarNode := ⟨.literal name, [], none, none, none, false, none, []⟩

/-- A command for administrators. -/
def restricted : GrammarNode :=
  { keyword "give" with
    requires := some "admin"
    children := [{ keyword "now" with executes := some (.constant 1) }] }

/-- The command with another one that redirects to it. -/
def aliased : String :=
  (Grammar.toJson ⟨"1.0.0", [restricted, { keyword "alias" with redirect := some ["give"] }]⟩).compact

lemma bypassed_aliased : bypassed aliased "alias now" (.named "console") ["give", "now"] = true := by
  decide +kernel

/-- The command after another declaration of its name. -/
def reopened : String := (Grammar.toJson ⟨"1.0.0", [keyword "give", restricted]⟩).compact

lemma bypassed_reopened : bypassed reopened "give now" (.named "console") ["give", "now"] = true := by
  decide +kernel

lemma not_enforces_of_bypassed {text input : String} {path : List String}
    (h : bypassed text input s path = true) : ¬ Enforces text input s := by
  obtain ⟨g, t, c, o, d, hload, hbuild, hhandled, hdeclares, hheld⟩ := exists_of_bypassed h
  intro henforces
  exact hheld (henforces g t c o d hload hbuild hhandled hdeclares)

/-- Requirements do not guard everything below them: a redirect leads past one, and a declaration loses its
own to an earlier one of the same name. -/
theorem not_enforces :
    ¬ Enforces aliased "alias now" (.named "console") ∧
      ¬ Enforces reopened "give now" (.named "console") :=
  ⟨not_enforces_of_bypassed bypassed_aliased, not_enforces_of_bypassed bypassed_reopened⟩

/-- The call that a redirect leads to, past a requirement, has a route of its own. -/
theorem route_of_handled_aliased :
    ∃ t c o, Grammar.loadTree aliased = .ok t ∧
      .handled c o ∈ (t.execute "alias now" (.named "console")).trace ∧
      ∃ g d a legs, Grammar.load aliased = .ok g ∧ g.Declares t c d ∧ d.node.executes = some a ∧
        o = a.handler c ∧
        g.Route t (.named "console") [] d.path (t.parse "alias now" (.named "console")).trail.hops legs := by
  obtain ⟨g, t, c, o, -, hload, hbuild, hhandled, -, -⟩ := exists_of_bypassed bypassed_aliased
  have htree : Grammar.loadTree aliased = .ok t := loadTree_eq_ok.2 ⟨g, hload, hbuild⟩
  obtain ⟨g, d, a, legs, hg, hdeclares, ha, ho, hroute, -⟩ := route_of_handled htree hhandled
  exact ⟨t, c, o, htree, hhandled, g, d, a, legs, hg, hdeclares, ha, ho, hroute⟩

end Grammar
end CommandEngine
