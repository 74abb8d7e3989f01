import CommandEngine.Proofs.Permission

/-!
# What the sources of a run inherit

Requirements are checked while a command is read, against the source that it is read for.  Modifiers and
handlers are called later, for sources that the stages before them have made of it.  A property of sources
that every modifier on the way keeps is inherited by all of them (`ParseResult.source_of_mem_execute`).

In the tree of a grammar every modifier follows a `SourceRule`, and a rule changes the name of a source and
nothing else.  So whatever is called in a run of a loaded document is called for a source with the
permissions of the original one, and these are what the nodes that were matched require
(`Grammar.permissions_of_invoked`).
-/

namespace CommandEngine

variable {σ : Type}

/-- If the source of a context has the property, so has every source that the modifier makes of it. -/
def Modifier.Keeps (P : σ → Prop) (modifier : Modifier σ) : Prop :=
  ∀ c sources, P c.source → modifier c = .ok sources → ∀ s ∈ sources, P s

/-! ## Stages and chains -/

section Run

variable {P : σ → Prop} {source : σ}

lemma Stage.of_mem_yield {s : Stage σ} (hs : ∀ m ∈ s.modifier, Modifier.Keeps P m) (hsource : P source)
    {x : σ} (hx : x ∈ s.yield source) : P x := by
  unfold Stage.yield Stage.answer at hx
  cases hm : s.modifier with
  | none =>
    have heq : x = source := by simpa [hm, Except.toOption] using hx
    exact heq ▸ hsource
  | some modifier =>
    cases ha : modifier (s.context.carrying source) with
    | error e => simp [hm, ha, Except.toOption] at hx
    | ok sources =>
      have hmem : x ∈ sources := by simpa [hm, ha, Except.toOption] using hx
      exact hs modifier hm (s.context.carrying source) sources hsource ha x hmem

/-- What one stage keeps, all stages up to a given one keep. -/
lemma Chain.of_mem_sourcesAt {c : Chain σ} (hc : ∀ s ∈ c.stages, ∀ m ∈ s.modifier, Modifier.Keeps P m)
    (hsource : P source) (i : Nat) {x : σ} (hx : x ∈ c.sourcesAt source i) : P x := by
  induction i generalizing x with
  | zero =>
    have heq : x = source := by simpa [sourcesAt] using hx
    exact heq ▸ hsource
  | succ i ih =>
    unfold sourcesAt at hx ih
    rw [List.take_add_one, List.foldl_append] at hx
    cases hs : c.stages[i]? with
    | none =>
      rw [hs] at hx
      exact ih hx
    | some s =>
      rw [hs] at hx
      obtain ⟨y, hy, hx⟩ := List.mem_flatMap.1 hx
      exact Stage.of_mem_yield (hc s (List.mem_of_getElem? hs)) (ih hy) hx

/-- What all modifiers of a chain keep, the source of every event of its run has. -/
lemma Chain.source_of_mem_trace {c : Chain σ} (hc : ∀ s ∈ c.stages, ∀ m ∈ s.modifier, Modifier.Keeps P m)
    (hsource : P source) {i : Invocation σ} (hi : i ∈ (c.run source).trace) : P i.context.source := by
  obtain ⟨k, hk, rfl⟩ := (c.run_follows source).mem hi
  obtain ⟨n, s, x, hx, hk⟩ | ⟨x, hx, rfl⟩ := c.cases_of_mem_schedule hk
  · obtain ⟨m, -, rfl⟩ := Option.map_eq_some_iff.1 hk
    exact c.of_mem_sourcesAt hc hsource n hx
  · exact c.of_mem_sourcesAt hc hsource c.stages.length hx

/-- The modifier of a stage is that of a hop. -/
lemma Chain.exists_hop_of_mem_stagesOf {input : String} {h : Hop σ} {later : List (Hop σ)} {s : Stage σ}
    (hs : s ∈ stagesOf input h later) : ∃ h' ∈ h :: later, s.modifier = h'.modifier := by
  induction later generalizing h with
  | nil => cases hs
  | cons next rest ih =>
    rcases List.mem_cons.1 hs with rfl | hs
    · exact ⟨h, List.mem_cons_self .., rfl⟩
    · obtain ⟨h', hmem, heq⟩ := ih hs
      exact ⟨h', List.mem_cons_of_mem _ hmem, heq⟩

/-- What the modifiers of all hops keep, the source of every event of the run has. -/
theorem ParseResult.source_of_mem_execute {r : ParseResult σ}
    (hr : ∀ h ∈ r.trail.hops, ∀ m ∈ h.modifier, Modifier.Keeps P m) (hsource : P r.trail.first.source)
    {i : Invocation σ} (hi : i ∈ r.execute.trace) : P i.context.source := by
  unfold execute at hi
  split at hi
  · cases hi
  · split at hi
    · obtain rfl := List.mem_singleton.1 hi
      exact hsource
    · next chain hchain =>
      obtain ⟨handler, -, rfl⟩ := Option.map_eq_some_iff.1 hchain
      refine Chain.source_of_mem_trace (fun s hs m hm => ?_) hsource hi
      obtain ⟨h, hh, heq⟩ := Chain.exists_hop_of_mem_stagesOf hs
      exact hr h hh m (heq ▸ hm)

end Run

/-! ## Rules for sources -/

lemma Except.exists_of_map_eq_ok {ε α β : Type} {f : α → β} {x : Except ε α} {b : β}
    (h : x.map f = .ok b) : ∃ a, x = .ok a ∧ f a = b := by
  cases x with
  | error e => cases h
  | ok a => exact ⟨a, rfl, Except.ok.inj h⟩

/-- A rule for sources gives new names and keeps permissions. -/
lemma SourceRule.keeps_permissions (rule : SourceRule) (permissions : List String) :
    Modifier.Keeps (fun s => s.permissions = permissions) rule.apply := by
  intro c sources hc hsources s hs
  have hrenamed : ∃ name, s = c.source.renamed name := by
    cases rule with
    | split name =>
      obtain ⟨list, -, rfl⟩ := Except.exists_of_map_eq_ok hsources
      obtain ⟨part, -, rfl⟩ := List.mem_map.1 hs
      exact ⟨part, rfl⟩
    | rename name =>
      obtain ⟨p, -, rfl⟩ := Except.exists_of_map_eq_ok hsources
      split at hs
      · exact ⟨_, List.mem_singleton.1 hs⟩
      · exact ⟨_, List.mem_singleton.1 hs⟩
  obtain ⟨name, rfl⟩ := hrenamed
  exact hc

namespace Grammar

variable {g : Grammar} {t t' : CommandTree Source}

/-- Every modifier of the tree follows a rule for sources. -/
def RuleBound (t : CommandTree Source) : Prop :=
  ∀ id, ∀ m ∈ (t.node id).modifier?, ∃ rule : SourceRule, m = rule.apply

lemma RuleBound.resolve {p : PendingRedirect} (h : RuleBound t) (ht : t.WellShaped)
    (hp : p.resolve t = .ok t') : RuleBound t' := by
  obtain ⟨i, target, hi, -, hset⟩ := PendingRedirect.resolve_eq_ok hp
  obtain ⟨-, -, -, rfl⟩ := CommandTree.setRedirect_eq_ok hset
  intro id m hm
  rw [CommandTree.node_modify (ht.lt_of_find? hi)] at hm
  split at hm
  · obtain ⟨rule, -, rfl⟩ := Option.map_eq_some_iff.1 hm
    exact ⟨rule, rfl⟩
  · exact h id m hm

lemma RuleBound.resolveAll {l : List PendingRedirect} (h : RuleBound t) (ht : t.WellShaped)
    (hl : Grammar.resolveAll t l = .ok t') : RuleBound t' := by
  induction l generalizing t with
  | nil =>
    cases hl
    exact h
  | cons p rest ih =>
    rw [Grammar.resolveAll] at hl
    cases hp : p.resolve t with
    | error e => simp [hp, Except.bind] at hl
    | ok u =>
      simp only [hp, Except.bind] at hl
      exact ih (h.resolve ht hp) (ht.of_sameShape (PendingRedirect.attached_resolve ht hp).same) hl

/-- In a tree that is built from a grammar every modifier follows a rule: commands are registered without
redirects, and redirects are attached with rules. -/
lemma ruleBound_of_build (h : g.build = .ok t) : RuleBound t := by
  unfold build at h
  cases hregister : registerAll .empty g.commands with
  | error e =>
    rw [hregister] at h
    cases h
  | ok u =>
    rw [hregister] at h
    refine RuleBound.resolveAll (fun id m hm => ?_)
      (extends_registerAll CommandTree.wellShaped_empty hregister).shaped h
    rw [Node.modifier?, redirect_registerAll hregister] at hm
    cases hm

/-- A hop of the tree has a modifier that keeps permissions, or none. -/
lemma RuleBound.keeps_permissions (h : RuleBound t) {chars : List Char} {s : Source} {hop : Hop Source}
    (hlegal : t.LegalHop chars s hop) (permissions : List String) :
    ∀ m ∈ hop.modifier, Modifier.Keeps (fun s => s.permissions = permissions) m := by
  intro m hm
  rw [hlegal.modifier_eq] at hm
  obtain ⟨last, -, hm⟩ := Option.bind_eq_some_iff.1 hm
  obtain ⟨rule, rfl⟩ := h last.node m hm
  exact rule.keeps_permissions permissions

/-- A node of the tree other than the root is opened by a declaration, whose permission it requires. -/
lemma Describes.exists_opening (hg : g.Describes t) {parent id : NodeId} (hid : id ∈ t.children parent) :
    ∃ d, g.opening? d.path = some d ∧ t.find? d.path = some id ∧
      (t.node id).requirement = d.node.requires.map fun permission source => source.holds permission := by
  obtain ⟨⟨name, c⟩, hmem, rfl⟩ := List.mem_map.1 hid
  obtain ⟨hlt, hsize⟩ := hg.shaped.ordered hmem
  obtain ⟨path, hpath⟩ := hg.shaped.exists_find? hsize
  have hne : path ≠ [] := by
    rintro rfl
    have hroot : rootId = c := Option.some.inj (CommandTree.find?_nil.symm.trans hpath)
    exact absurd (hroot ▸ hlt) (Nat.not_lt_zero _)
  obtain ⟨d, hd, hrequirement⟩ := hg.opening hne hpath
  have hplace : d.path = path := by simpa using List.find?_some hd
  subst hplace
  exact ⟨d, hd, hpath, hrequirement.trans d.node.toSpec_requirement⟩

/-- A matched node of a hop is the child of some node. -/
lemma exists_parent_of_descends {root : NodeId} {ids : List NodeId}
    (h : (root :: ids).IsChain fun a b => b ∈ t.children a) {id : NodeId} (hid : id ∈ ids) :
    ∃ parent, id ∈ t.children parent := by
  induction ids generalizing root with
  | nil => cases hid
  | cons first rest ih =>
    obtain ⟨hchild, hrest⟩ := List.isChain_cons_cons.1 h
    rcases List.mem_cons.1 hid with rfl | hid
    · exact ⟨root, hchild⟩
    · exact ih hrest hid

/-- Whatever is called when a command of a loaded document is run, a modifier of any stage or a handler, is
called for a source with the permissions of the source that the command was given by.  So it holds what is
required by every node that was matched on the way, in whatever hop. -/
theorem permissions_of_invoked {text input : String} {t : CommandTree Source} {s : Source}
    {i : Invocation Source} (hload : Grammar.loadTree text = .ok t) (hi : i ∈ (t.execute input s).trace) :
    i.context.source.permissions = s.permissions ∧
      ∃ g, Grammar.load text = .ok g ∧ ∀ m ∈ (t.parse input s).trail.matched,
        ∃ d, g.opening? d.path = some d ∧ t.find? d.path = some m.node ∧
          ((t.node m.node).requirement =
            d.node.requires.map fun permission source => source.holds permission) ∧
          ∀ permission ∈ d.node.requires, i.context.source.holds permission = true := by
  obtain ⟨g, hg, hbuild⟩ := loadTree_eq_ok.1 hload
  have hdescribes := build_describes hbuild
  have hwalk := t.walk_parseFrom rootId (.ofString input) (.start s rootId (Reader.ofString input).cursor)
  have htrail := (hwalk.legal hdescribes.shaped (CommandTree.ready_start rootId rfl)).1
  change t.LegalTrail _ s rootId _ (t.parse input s).trail at htrail
  have hpermissions : i.context.source.permissions = s.permissions := by
    refine ParseResult.source_of_mem_execute (P := fun s' => s'.permissions = s.permissions)
      (fun h hh => ?_) ?_ hi
    · exact (ruleBound_of_build hbuild).keeps_permissions (htrail.hops h hh) s.permissions
    · rw [htrail.head.source_eq]
  refine ⟨hpermissions, g, hg, fun m hm => ?_⟩
  obtain ⟨h, hh, hm⟩ := List.mem_flatMap.1 hm
  have hlegal := htrail.hops h hh
  obtain ⟨parent, hchild⟩ := exists_parent_of_descends hlegal.descends (List.mem_map_of_mem hm)
  obtain ⟨d, hd, hfind, hrequirement⟩ := hdescribes.exists_opening hchild
  refine ⟨d, hd, hfind, hrequirement, fun permission hpermission => ?_⟩
  -- the node was usable for the original source, which holds the same permissions
  have hheld := hdescribes.holds_of_canUse hd hfind (hlegal.fits m hm).usable permission hpermission
  rwa [Source.holds, hpermissions]

/-- A command that is run for each of a list of sources, and a command for administrators. -/
def delegating : String :=
  (Grammar.toJson ⟨"1.0.0",
    [{ keyword "for" with
        requires := some "admin"
        children := [⟨.argument "names" .string, [], none, none, some [], true, some (.split "names"), []⟩] },
      { keyword "stop" with executes := some (.constant 1), requires := some "admin" }]⟩).compact

/-- Whether a run of a document calls a handler for a source of the given name. -/
def handledFor (text input : String) (s : Source) (name : String) : Bool :=
  match Grammar.loadTree text with
  | .error _ => false
  | .ok t => (t.execute input s).trace.any fun
    | .handled c _ => c.source.name == name
    | _ => false

lemma exists_of_handledFor {text input name : String} {s : Source}
    (h : handledFor text input s name = true) :
    ∃ t c o, Grammar.loadTree text = .ok t ∧ .handled c o ∈ (t.execute input s).trace ∧
      c.source.name = name := by
  unfold handledFor at h
  split at h
  · cases h
  · next t hload =>
    obtain ⟨i, hi, hname⟩ := List.any_eq_true.1 h
    split at hname
    · next c o => exact ⟨t, c, o, hload, hi, beq_iff_eq.1 hname⟩
    · cases hname

/-- A source that was made for the second name of a list still holds what the command needs. -/
theorem permissions_of_invoked_delegating :
    ∃ t c o, Grammar.loadTree delegating = .ok t ∧
      .handled c o ∈ (t.execute "for 'ann,bob' stop" ⟨"console", ["admin"]⟩).trace ∧
      c.source = ⟨"bob", ["admin"]⟩ := by
  have hhandled : handledFor delegating "for 'ann,bob' stop" ⟨"console", ["admin"]⟩ "bob" = true := by
    decide +kernel
  obtain ⟨t, c, o, hload, hmem, hname⟩ := exists_of_handledFor hhandled
  have hpermissions : c.source.permissions = ["admin"] := (permissions_of_invoked hload hmem).1
  refine ⟨t, c, o, hload, hmem, ?_⟩
  rw [← hname, ← hpermissions]

end Grammar
end CommandEngine
