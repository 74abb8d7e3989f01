import CommandEngine.Proofs.Permission
import CommandEngine.Proofs.Tree.Arena

/-!
# When a grammar can be built

A grammar is looked at twice before there is a tree.  `Grammar.load` checks each node by itself, and
`Grammar.build` registers the commands and then attaches the redirects.  Here the two are fitted together: what
has been checked is never refused when commands are registered, so only a redirect can go wrong, and
`Grammar.fault?` says from the document alone which one does and how.

Registration is told by the paths that are declared, as in `CommandTree.Extends`.  Attaching redirects leaves
the shape of the tree as it is, so every redirect is looked up in the same tree of names; the last one of a path
is the one that stays.
-/

namespace CommandEngine

/-! ## What has been checked -/

/-- What a node is like that has been checked. -/
structure Declaration.Passes (d : Declaration) : Prop where
  named : d.node.name ≠ ""
  unbroken : d.node.pattern.isLiteral = true → separator ∉ d.node.name.toList
  leaf : d.node.redirect.isSome → d.node.children = []

lemma bind_eq_ok {ε α β : Type} {x : Except ε α} {f : α → Except ε β} {b : β} :
    x >>= f = .ok b ↔ ∃ a, x = .ok a ∧ f a = .ok b := by
  cases x <;> simp [bind, Except.bind]

lemma GrammarPattern.checkName_eq_ok {p : GrammarPattern} {field : String}
    (h : p.checkName field = .ok ()) :
    p.name ≠ "" ∧ (p.isLiteral = true → separator ∉ p.name.toList) := by
  unfold checkName at h
  split at h
  · cases h
  · next hblank =>
    split at h
    · cases h
    · next hbroken =>
      refine ⟨fun hempty => hblank ?_, fun hliteral hmem => hbroken ?_⟩
      · rw [hempty]
        decide
      · simp [hliteral, hmem]

lemma GrammarNode.checkRedirect_eq_ok {n : GrammarNode} {field : String}
    (h : n.checkRedirect field = .ok ()) : n.redirect.isSome → n.children = [] := by
  intro hredirect
  unfold checkRedirect at h
  rw [if_pos hredirect] at h
  split at h
  · next hempty => exact List.isEmpty_iff.1 hempty
  · cases h

mutual

/-- A node that has been checked passes, and so does everything below it. -/
lemma GrammarNode.passes_of_check : ∀ (n : GrammarNode) {field : String} {above : List GrammarNode},
    n.check field = .ok () → ∀ d ∈ n.declarations above, d.Passes
  | ⟨pattern, children, executes, requires, redirect, fork, modifier, suggestions⟩, field, above => by
    intro h
    rw [check] at h
    obtain ⟨_, hname, h⟩ := bind_eq_ok.1 h
    obtain ⟨_, _, h⟩ := bind_eq_ok.1 h
    obtain ⟨_, hredirect, hbelow⟩ := bind_eq_ok.1 h
    obtain ⟨hnamed, hunbroken⟩ := GrammarPattern.checkName_eq_ok hname
    rw [declarations, List.forall_mem_cons]
    exact ⟨⟨hnamed, hunbroken, checkRedirect_eq_ok hredirect⟩, passes_of_checkAll children hbelow⟩

lemma GrammarNode.passes_of_checkAll : ∀ (l : List GrammarNode) {list : String} {index : Nat}
    {above : List GrammarNode},
    GrammarNode.checkAll list index l = .ok () → ∀ d ∈ GrammarNode.declarationsAll above l, d.Passes
  | [], _, _, _ => by simp [declarationsAll]
  | n :: rest, list, index, above => by
    intro h
    rw [checkAll] at h
    obtain ⟨_, hfirst, hrest⟩ := bind_eq_ok.1 h
    rw [declarationsAll, List.forall_mem_append]
    exact ⟨passes_of_check n hfirst, passes_of_checkAll rest hrest⟩

end

namespace Grammar

variable {g : Grammar} {text : String} {t t' u : CommandTree Source}

lemma passes_of_checkCommands {l : List GrammarNode} {index : Nat} (h : checkCommands index l = .ok ()) :
    (∀ n ∈ l, n.pattern.isLiteral = true) ∧ ∀ d ∈ GrammarNode.declarationsAll [] l, d.Passes := by
  induction l generalizing index with
  | nil => simp [GrammarNode.declarationsAll]
  | cons n rest ih =>
    rw [checkCommands] at h
    split at h
    · next hliteral =>
      obtain ⟨_, hfirst, hrest⟩ := bind_eq_ok.1 h
      obtain ⟨hliterals, hpasses⟩ := ih hrest
      rw [List.forall_mem_cons, GrammarNode.declarationsAll, List.forall_mem_append]
      exact ⟨⟨hliteral, hliterals⟩, GrammarNode.passes_of_check n hfirst, hpasses⟩
    · cases h

/-- In a grammar that was read every command is a keyword and every node passes. -/
theorem passes_of_load (h : load text = .ok g) :
    (∀ n ∈ g.commands, n.pattern.isLiteral = true) ∧ ∀ d ∈ g.declarations, d.Passes := by
  unfold load at h
  split at h
  · cases h
  · next g' _ =>
    cases hcheck : g'.check with
    | error e => simp [hcheck, Except.map] at h
    | ok _ =>
      simp only [hcheck, Except.map, Except.ok.injEq] at h
      subst h
      rw [check] at hcheck
      obtain ⟨_, -, hcommands⟩ := bind_eq_ok.1 hcheck
      exact passes_of_checkCommands hcommands

/-! ## Registering the commands -/

lemma isLiteral_toSpec (n : GrammarNode) : n.toSpec.pattern.isLiteral = n.pattern.isLiteral := by
  obtain ⟨pattern, children, executes, requires, redirect, fork, modifier, suggestions⟩ := n
  rw [GrammarNode.toSpec]
  cases pattern <;> rfl

lemma name_toSpec (n : GrammarNode) : n.toSpec.name = n.name := by
  cases n
  rw [GrammarNode.toSpec, NodeSpec.name, GrammarNode.name_toPattern]
  rfl

lemma mem_declarations_toSpec {n : GrammarNode} {e : List String × NodeSpec Source} :
    e ∈ n.toSpec.declarations [] ↔ ∃ d ∈ n.declarations [], (d.path, d.node.toSpec) = e := by
  have hspec := GrammarNode.declarations_toSpec n []
  rw [List.map_nil] at hspec
  rw [hspec, List.mem_map]

lemma redirect_empty (id : NodeId) : ((CommandTree.empty : CommandTree Source).node id).redirect = none := by
  cases id with
  | zero => rfl
  | succ id =>
    rw [CommandTree.node_of_size_le (Nat.succ_le_succ (Nat.zero_le id))]
    rfl

/-- A command that passes is registered in any tree without redirects, which it leaves without them. -/
lemma exists_register (ht : t.WellShaped) (hbare : ∀ id, (t.node id).redirect = none) {n : GrammarNode}
    (hliteral : n.pattern.isLiteral = true) (hpasses : ∀ d ∈ n.declarations [], d.Passes) :
    ∃ id t', t.register n.toSpec = .ok (id, t') ∧ t'.WellShaped ∧ ∀ id, (t'.node id).redirect = none := by
  have hcheck : t.check (some rootId) n.toSpec = .ok () := by
    rw [← CommandTree.find?_nil, CommandTree.check_eq_ok_iff]
    intro e he
    obtain ⟨d, hd, rfl⟩ := mem_declarations_toSpec.1 he
    refine ⟨?_, ?_, ?_, fun id _ => ?_⟩
    · rw [name_toSpec]
      exact (hpasses d hd).named
    · simp [GrammarNode.toSpec_redirect]
    · simp [GrammarNode.toSpec_redirect]
    · simp [hbare id]
  have hadded : t.addChild rootId n.toSpec = .ok (t.insert rootId n.toSpec) := by
    rw [CommandTree.addChild, hcheck]
    rfl
  have hextends := CommandTree.extends_insert n.toSpec ht CommandTree.find?_nil
  refine ⟨(t.insert rootId n.toSpec).1, (t.insert rootId n.toSpec).2, ?_, hextends.shaped, fun id => ?_⟩
  · rw [CommandTree.register, if_pos (by rw [isLiteral_toSpec, hliteral]), hadded]
  · by_cases hlt : id < (t.insert rootId n.toSpec).2.size
    · obtain ⟨path, hpath⟩ := hextends.shaped.exists_find? hlt
      rcases hextends.origin hpath with ⟨-, -, -, hredirect⟩ | ⟨-, s, rest, hdeclared, -, -, hredirect, -⟩
      · rw [hredirect, hbare]
      · have hs : (path, s) ∈ n.toSpec.declarations [] := by
          rw [← mem_declaredAt, hdeclared]
          exact List.mem_cons_self
        obtain ⟨d, -, hd⟩ := mem_declarations_toSpec.1 hs
        rw [hredirect, ← (Prod.mk.inj hd).2, GrammarNode.toSpec_redirect]
    · rw [CommandTree.node_of_size_le (Nat.le_of_not_lt hlt)]
      rfl

lemma exists_registerAll {l : List GrammarNode} (ht : t.WellShaped)
    (hbare : ∀ id, (t.node id).redirect = none) (hliterals : ∀ n ∈ l, n.pattern.isLiteral = true)
    (hpasses : ∀ d ∈ GrammarNode.declarationsAll [] l, d.Passes) : ∃ t', registerAll t l = .ok t' := by
  induction l generalizing t with
  | nil => exact ⟨t, rfl⟩
  | cons n rest ih =>
    rw [GrammarNode.declarationsAll, List.forall_mem_append] at hpasses
    rw [List.forall_mem_cons] at hliterals
    obtain ⟨id, t₁, hregister, ht₁, hbare₁⟩ := exists_register ht hbare hliterals.1 hpasses.1
    rw [registerAll, hregister]
    exact ih ht₁ hbare₁ hliterals.2 hpasses.2

/-! ## Attaching the redirects -/

/-- A path that leads somewhere: the empty one, or that of a declaration. -/
def Declared (g : Grammar) (path : List String) : Prop :=
  path = [] ∨ ∃ d ∈ g.declarations, d.path = path

/-- Something is declared one name below a path. -/
def Branches (g : Grammar) (path : List String) : Prop :=
  ∃ d ∈ g.declarations, d.path = path ++ [d.node.name]

instance (g : Grammar) (path : List String) : Decidable (g.Declared path) :=
  inferInstanceAs (Decidable (_ ∨ _))

instance (g : Grammar) (path : List String) : Decidable (g.Branches path) :=
  inferInstanceAs (Decidable (∃ d ∈ g.declarations, _))

/-- What is wrong with the redirect of a declaration: its target is not declared, or else something is
declared below its own path. -/
def fault? (g : Grammar) (d : Declaration) : Option GrammarError :=
  d.node.redirect.bind fun target =>
    if ¬ g.Declared target then some (.unresolvedRedirect (pathText d.path) (pathText target))
    else if g.Branches d.path then some (.build (pathText d.path) (.redirectWithChildren d.node.name))
    else none

/-- The last declaration of a path that has a redirect. -/
def redirecting? (g : Grammar) (path : List String) : Option Declaration :=
  g.declarations.reverse.find? fun d => d.path = path && d.node.redirect.isSome

lemma fault?_eq_none {d : Declaration} :
    g.fault? d = none ↔ ∀ target ∈ d.node.redirect, g.Declared target ∧ ¬ g.Branches d.path := by
  unfold fault?
  cases d.node.redirect with
  | none => simp
  | some target =>
    by_cases hdeclared : g.Declared target
    · simp [hdeclared]
    · simp [hdeclared]

/-- After the commands have been registered, a path leads somewhere if it is declared. -/
lemma isSome_find?_registerAll (h : registerAll .empty g.commands = .ok u) (path : List String) :
    (u.find? path).isSome ↔ g.Declared path := by
  have hspecs := GrammarNode.declarationsAll_toSpecs g.commands []
  rw [List.map_nil] at hspecs
  rw [(extends_registerAll CommandTree.wellShaped_empty h).isSome_find?, hspecs, declaredAt_map]
  cases path with
  | nil => simp [Declared, CommandTree.find?_nil]
  | cons k rest =>
    have hempty : (CommandTree.empty : CommandTree Source).find? (k :: rest) = none := rfl
    simp [Declared, hempty, declarations]

/-- The node at the path of a declaration has its name. -/
lemma name_of_find? (ht : t.WellShaped) {d : Declaration} {id : NodeId} (h : t.find? d.path = some id) :
    (t.node id).name = d.node.name := by
  have hpath : d.path = d.above.map GrammarNode.name ++ [d.node.name] := by
    simp [Declaration.path, Declaration.lineage]
  rw [hpath, CommandTree.find?_concat, Option.bind_eq_some_iff] at h
  obtain ⟨parent, -, hchild⟩ := h
  exact ht.name_of_mem (ht.child?_eq_some.1 hchild)

/-- The node at a path has children if something is declared below the path. -/
lemma children_eq_nil_iff (h : registerAll .empty g.commands = .ok u) {path : List String} {id : NodeId}
    (hid : u.find? path = some id) : (u.node id).children = [] ↔ ¬ g.Branches path := by
  have hshaped := (extends_registerAll CommandTree.wellShaped_empty h).shaped
  constructor
  · rintro hnil ⟨d, hd, hpath⟩
    have hsome := (isSome_find?_registerAll h d.path).2 (.inr ⟨d, hd, rfl⟩)
    rw [hpath, CommandTree.find?_concat_of_some hid, CommandTree.child?, hnil] at hsome
    cases hsome
  · intro hbranches
    by_contra hne
    obtain ⟨⟨k, c⟩, hmem⟩ := List.exists_mem_of_ne_nil _ hne
    have hfind : u.find? (path ++ [k]) = some c := by
      rw [CommandTree.find?_concat_of_some hid, hshaped.child?_eq_some]
      exact hmem
    rcases (isSome_find?_registerAll h (path ++ [k])).1 (by rw [hfind]; rfl) with hnil | ⟨d, hd, hpath⟩
    · simp at hnil
    · rw [← hpath] at hfind
      have hname : k = d.node.name := (hshaped.name_of_mem hmem).symm.trans (name_of_find? hshaped hfind)
      exact hbranches ⟨d, hd, by rw [← hname, hpath]⟩

/-- The tree of a grammar while redirects are being attached: its commands have been registered, and since then
nothing but redirects has changed. -/
structure Frames (g : Grammar) (u t : CommandTree Source) : Prop where
  registered : registerAll .empty g.commands = .ok u
  same : CommandTree.SameShape u t

lemma Frames.shaped (h : g.Frames u t) : t.WellShaped :=
  (extends_registerAll CommandTree.wellShaped_empty h.registered).shaped.of_sameShape h.same

lemma Frames.isSome_find? (h : g.Frames u t) (path : List String) : (t.find? path).isSome ↔ g.Declared path := by
  rw [h.same.find?, isSome_find?_registerAll h.registered]

lemma Frames.resolve (h : g.Frames u t) {p : PendingRedirect} (hp : p.resolve t = .ok t') : g.Frames u t' := by
  have hattached := PendingRedirect.attached_resolve h.shaped hp
  refine ⟨h.registered, ⟨?_, fun id => ?_, fun id => ?_⟩⟩
  · rw [hattached.same.size, h.same.size]
  · rw [hattached.same.children, h.same.children]
  · rw [hattached.same.pattern, h.same.pattern]

lemma Frames.resolveAll (h : g.Frames u t) {l : List PendingRedirect} (hl : resolveAll t l = .ok t') :
    g.Frames u t' := by
  induction l generalizing t with
  | nil =>
    cases hl
    exact h
  | cons p rest ih =>
    rw [Grammar.resolveAll] at hl
    obtain ⟨v, hp, hrest⟩ := bind_eq_ok.1 hl
    exact ih (h.resolve hp) hrest

lemma exists_frames (h : g.build = .ok t) : ∃ u, g.Frames u t := by
  unfold build at h
  obtain ⟨u, hu, ht⟩ := bind_eq_ok.1 h
  have hframes : g.Frames u u := ⟨hu, ⟨rfl, fun _ => rfl, fun _ => rfl⟩⟩
  exact ⟨u, hframes.resolveAll ht⟩

/-- A node of the tree other than the root has the pattern of a declaration. -/
lemma Frames.exists_pattern (h : g.Frames u t) {id : NodeId} {p : Pattern Source}
    (hp : (t.node id).pattern = some p) : ∃ d ∈ g.declarations, d.node.toSpec.pattern = p := by
  have hshaped := (extends_registerAll CommandTree.wellShaped_empty h.registered).shaped
  rw [h.same.pattern] at hp
  have hlt : id < u.size := by
    by_contra hge
    rw [CommandTree.node_of_size_le (Nat.le_of_not_lt hge)] at hp
    cases hp
  obtain ⟨path, hid⟩ := hshaped.exists_find? hlt
  have hpath : path ≠ [] := by
    rintro rfl
    obtain rfl : rootId = id := Option.some.inj (CommandTree.find?_nil.symm.trans hid)
    rw [hshaped.root] at hp
    cases hp
  obtain ⟨d, hd, hbare⟩ := bare_registerAll h.registered hpath hid
  have hpattern : (u.node id).pattern = some d.node.toSpec.pattern := congrArg Node.pattern hbare
  exact ⟨d, List.mem_of_find?_eq_some hd, Option.some.inj (hpattern.symm.trans hp)⟩

/-- Keywords in the tree of a grammar that was read are not empty and contain no separator. -/
theorem keyword_of_loadTree (h : loadTree text = .ok t) {id : NodeId} {k : String}
    (hk : (t.node id).pattern = some (.literal k)) : k ≠ "" ∧ separator ∉ k.toList := by
  obtain ⟨g, hload, hbuild⟩ := loadTree_eq_ok.1 h
  obtain ⟨u, hframes⟩ := exists_frames hbuild
  obtain ⟨d, hd, hpattern⟩ := hframes.exists_pattern hk
  have hpasses := (passes_of_load hload).2 d hd
  have hname : d.node.name = k := (name_toSpec d.node).symm.trans (congrArg Pattern.name hpattern)
  have hliteral : d.node.pattern.isLiteral = true := by
    rw [← isLiteral_toSpec, hpattern]
    rfl
  rw [← hname]
  exact ⟨hpasses.named, hpasses.unbroken hliteral⟩

/-- A redirect is attached unless it is at fault, and is otherwise refused for its fault. -/
lemma Frames.resolve_eq (h : g.Frames u t) {d : Declaration} (hd : d ∈ g.declarations) {p : PendingRedirect}
    (hp : d.pending? = some p) :
    (g.fault? d = none ∧ ∃ t', p.resolve t = .ok t') ∨ ∃ e, g.fault? d = some e ∧ p.resolve t = .error e := by
  obtain ⟨target, hredirect, rfl⟩ := Option.map_eq_some_iff.1 hp
  obtain ⟨id, hid⟩ := Option.isSome_iff_exists.1 ((h.isSome_find? d.path).2 (.inr ⟨d, hd, rfl⟩))
  simp only [fault?, hredirect, Option.bind_some, PendingRedirect.resolve, hid]
  cases htarget : t.find? target with
  | none =>
    have hundeclared : ¬ g.Declared target := by
      rw [← h.isSome_find?, htarget]
      simp
    exact .inr ⟨_, if_pos hundeclared, rfl⟩
  | some n =>
    have hdeclared : g.Declared target := by
      rw [← h.isSome_find?, htarget]
      rfl
    have hroot : id ≠ rootId := by
      rintro rfl
      exact d.path_ne_nil (h.shaped.find?_inj hid CommandTree.find?_nil)
    have hknown : (t.node? n).isNone = false := by
      simpa [CommandTree.node?, CommandTree.size] using h.shaped.lt_of_find? htarget
    have hchildren : (t.node id).children = [] ↔ ¬ g.Branches d.path := by
      rw [h.same.children]
      rw [h.same.find?] at hid
      exact children_eq_nil_iff h.registered hid
    rw [if_neg (not_not_intro hdeclared)]
    simp only [CommandTree.setRedirect, if_neg hroot, hknown, Bool.false_eq_true, if_false]
    by_cases hbranches : g.Branches d.path
    · have hne : ¬ (t.node id).children = [] := fun hnil => hchildren.1 hnil hbranches
      refine .inr ⟨.build (pathText d.path) (.redirectWithChildren d.node.name), if_pos hbranches, ?_⟩
      rw [if_pos (by simpa using hne), name_of_find? h.shaped hid]
      rfl
    · refine .inl ⟨if_neg hbranches, ?_⟩
      rw [if_neg (by simp [hchildren.2 hbranches])]
      exact ⟨_, rfl⟩

/-- Redirects are attached up to the first one that is at fault. -/
lemma Frames.resolveAll_eq (h : g.Frames u t) {l : List Declaration} (hl : ∀ d ∈ l, d ∈ g.declarations) :
    (l.findSome? g.fault? = none ∧ ∃ t', Grammar.resolveAll t (l.filterMap Declaration.pending?) = .ok t') ∨
      ∃ e, l.findSome? g.fault? = some e ∧
        Grammar.resolveAll t (l.filterMap Declaration.pending?) = .error e := by
  induction l generalizing t with
  | nil => exact .inl ⟨rfl, t, rfl⟩
  | cons d rest ih =>
    rw [List.forall_mem_cons] at hl
    rw [List.filterMap_cons, List.findSome?_cons]
    cases hp : d.pending? with
    | none =>
      have hnone : g.fault? d = none := by
        rw [fault?, Option.map_eq_none_iff.1 hp]
        rfl
      rw [hnone]
      exact ih h hl.2
    | some p =>
      rcases h.resolve_eq hl.1 hp with ⟨hnone, t₁, hresolve⟩ | ⟨e, hfault, hresolve⟩
      · rw [hnone, Grammar.resolveAll, hresolve]
        exact ih (h.resolve hresolve) hl.2
      · rw [hfault, Grammar.resolveAll, hresolve]
        exact .inr ⟨e, rfl, rfl⟩

/-- Of the redirects that are attached to one path the last one stays. -/
lemma redirect_resolveAll {l : List PendingRedirect} (ht : t.WellShaped) (h : resolveAll t l = .ok t')
    {path : List String} {id : NodeId} (hid : t.find? path = some id) :
    (l.reverse.find? (fun p => p.path = path) = none ∧ (t'.node id).redirect = (t.node id).redirect) ∨
      ∃ p n, l.reverse.find? (fun p => p.path = path) = some p ∧ t.find? p.target = some n ∧
        (t'.node id).redirect = some ⟨n, p.modifier.map SourceRule.apply, p.fork⟩ := by
  induction l generalizing t with
  | nil =>
    cases h
    exact .inl ⟨rfl, rfl⟩
  | cons p rest ih =>
    rw [resolveAll] at h
    obtain ⟨v, hp, hrest⟩ := bind_eq_ok.1 h
    have hsame := (PendingRedirect.attached_resolve ht hp).same
    have hid' : v.find? path = some id := by rw [hsame.find?, hid]
    rw [List.reverse_cons, List.find?_append]
    rcases ih (ht.of_sameShape hsame) hrest hid' with ⟨hnone, hkept⟩ | ⟨q, n, hq, hn, hredirect⟩
    · rw [hnone, Option.none_or, hkept]
      obtain ⟨i, n, hi, hn, hset⟩ := PendingRedirect.resolve_eq_ok hp
      have hlt := ht.lt_of_find? hi
      obtain ⟨-, -, -, rfl⟩ := CommandTree.setRedirect_eq_ok hset
      rw [CommandTree.node_modify hlt]
      by_cases hpath : p.path = path
      · have heq : i = id := Option.some.inj (hi.symm.trans (hpath ▸ hid))
        exact .inr ⟨p, n, by simp [hpath], hn, by rw [if_pos heq]⟩
      · have hne : i ≠ id := fun heq => hpath (ht.find?_inj (heq ▸ hi) hid)
        exact .inl ⟨by simp [hpath], by rw [if_neg hne]⟩
    · rw [hq, Option.some_or]
      exact .inr ⟨q, n, rfl, by rw [← hsame.find?, hn], hredirect⟩

lemma redirect_of_redirecting {path : List String} {d : Declaration} (h : g.redirecting? path = some d) :
    d.node.redirect.isSome := by
  have hfound := List.find?_some h
  simp only [Bool.and_eq_true] at hfound
  exact hfound.2

lemma find?_pending (l : List Declaration) (path : List String) :
    (l.filterMap Declaration.pending?).reverse.find? (fun p => p.path = path) =
      (l.reverse.find? fun d => d.path = path && d.node.redirect.isSome).bind Declaration.pending? := by
  rw [← List.filterMap_reverse, List.find?_filterMap]
  congr 2
  funext d
  cases hredirect : d.node.redirect with
  | none => simp [Declaration.pending?, hredirect]
  | some target => simp [Declaration.pending?, hredirect]

/-- Where all redirects of a grammar have been attached, a node redirects as the last declaration of its path
that has a redirect says. -/
lemma Frames.redirect_of_resolveAll (h : g.Frames u u)
    (ht : Grammar.resolveAll u (g.declarations.filterMap Declaration.pending?) = .ok t)
    {path : List String} {id : NodeId} (hid : t.find? path = some id) :
    (g.redirecting? path = none → (t.node id).redirect = none) ∧
      ∀ d ∈ g.redirecting? path, ∃ target n, d.node.redirect = some target ∧ t.find? target = some n ∧
        (t.node id).redirect = some ⟨n, d.node.modifier.map SourceRule.apply, d.node.fork⟩ := by
  have hsame := (h.resolveAll ht).same
  rw [hsame.find?] at hid
  have hredirect := redirect_resolveAll h.shaped ht hid
  rw [find?_pending, ← redirecting?] at hredirect
  constructor
  · intro hlast
    rcases hredirect with ⟨-, hkept⟩ | ⟨p, n, hp, -⟩
    · rw [hkept, redirect_registerAll h.registered]
    · simp [hlast] at hp
  · intro d hlast
    obtain ⟨target, htarget⟩ := Option.isSome_iff_exists.1 (redirect_of_redirecting hlast)
    have hp : d.pending? = some ⟨d.path, target, d.node.modifier, d.node.fork⟩ := by
      rw [Declaration.pending?, htarget, Option.map_some]
    rw [Option.mem_def] at hlast
    rw [hlast, Option.bind_some, hp] at hredirect
    rcases hredirect with ⟨hnone, -⟩ | ⟨p, n, hsome, hn, hredirect⟩
    · cases hnone
    · obtain rfl := Option.some.inj hsome
      exact ⟨target, n, htarget, by rw [hsame.find?, hn], hredirect⟩

/-! ## The outcome -/

/-- A grammar that was read is built unless a redirect is at fault, and then it is refused for the fault of the
first such redirect in the document: its target is not declared, or something is declared below it.  Nothing
else can go wrong: all commands are registered, and the nodes that redirect are there whenever they are looked
up.  In the tree that is built, a node redirects as the last declaration of its path that has a redirect says. -/
theorem build_of_load (h : load text = .ok g) :
    ((∃ t, g.build = .ok t) ↔ ∀ d ∈ g.declarations, ∀ target ∈ d.node.redirect,
        g.Declared target ∧ ¬ g.Branches d.path) ∧
      (∀ e, g.build = .error e ↔ g.declarations.findSome? g.fault? = some e) ∧
      (∃ u, registerAll .empty g.commands = .ok u ∧
        ∀ before after t, GrammarNode.redirectsAll [] g.commands = before ++ after →
          resolveAll u before = .ok t → ∀ d ∈ g.declarations, (t.find? d.path).isSome) ∧
      ∀ t, g.build = .ok t → ∀ path id, t.find? path = some id →
        (g.redirecting? path = none → (t.node id).redirect = none) ∧
          ∀ d ∈ g.redirecting? path, ∃ target n, d.node.redirect = some target ∧
            t.find? target = some n ∧
            (t.node id).redirect = some ⟨n, d.node.modifier.map SourceRule.apply, d.node.fork⟩ := by
  obtain ⟨hliterals, hpasses⟩ := passes_of_load h
  obtain ⟨u, hu⟩ := exists_registerAll CommandTree.wellShaped_empty redirect_empty hliterals hpasses
  have hframes : g.Frames u u := ⟨hu, ⟨rfl, fun _ => rfl, fun _ => rfl⟩⟩
  have hpending := GrammarNode.redirectsAll_eq g.commands []
  rw [List.map_nil, ← declarations] at hpending
  have hbuild : g.build = resolveAll u (g.declarations.filterMap Declaration.pending?) := by
    rw [build, hu, ← hpending]
    rfl
  have houtcome := hframes.resolveAll_eq fun d (hd : d ∈ g.declarations) => hd
  rw [← hbuild] at houtcome
  refine ⟨?_, fun e => ?_, ⟨u, hu, fun before _ t _ hbefore d hd => ?_⟩, fun t ht path id hid => ?_⟩
  · simp only [← fault?_eq_none, ← List.findSome?_eq_none_iff]
    rcases houtcome with ⟨hnone, t, ht⟩ | ⟨e, he, herror⟩
    · simp [hnone, ht]
    · simp [he, herror]
  · rcases houtcome with ⟨hnone, t, ht⟩ | ⟨e', he, herror⟩
    · simp [hnone, ht]
    · simp [he, herror]
  · exact ((hframes.resolveAll hbefore).isSome_find? d.path).2 (.inr ⟨d, hd, rfl⟩)
  · exact hframes.redirect_of_resolveAll (hbuild ▸ ht) hid

/-- The fault for which a document that can be read is refused, if there is one. -/
def refusal? (text : String) : Option (Option GrammarError) :=
  match load text with
  | .error _ => none
  | .ok g => some (g.declarations.findSome? g.fault?)

lemma load_of_refusal {fault : Option GrammarError} (h : refusal? text = some fault) :
    ∃ g, load text = .ok g ∧ g.declarations.findSome? g.fault? = fault := by
  unfold refusal? at h
  split at h
  · cases h
  · next g hload => exact ⟨g, hload, Option.some.inj h⟩

/-- A command that redirects to a node of a later one, followed by further commands. -/
def forward (more : List GrammarNode) : String :=
  (Grammar.toJson ⟨"1.0.0", { keyword "take" with redirect := some ["give", "back"] } ::
    { keyword "give" with children := [keyword "back"] } :: more⟩).compact

/-- The target is declared once more, as a node that redirects in its turn. -/
def relayed : String := forward [{ keyword "give" with children := [{ keyword "back" with redirect := some [] }] }]

/-- The parent of the target is declared once more, as a node that redirects, and after that a redirect leads to
a path that is not declared. -/
def crowded : String :=
  forward [{ keyword "give" with redirect := some [] }, { keyword "lend" with redirect := some ["gone"] }]

lemma refusal_relayed : refusal? relayed = some none := by decide +kernel

lemma refusal_crowded : refusal? crowded = some (some (.build "give" (.redirectWithChildren "give"))) := by
  decide +kernel

/-- The first grammar is built, and the second is refused for the first of its two faults. -/
theorem build_of_load_crowded :
    (∃ g t, load relayed = .ok g ∧ g.build = .ok t) ∧
      ∃ g, load crowded = .ok g ∧ g.build = .error (.build "give" (.redirectWithChildren "give")) := by
  constructor
  · obtain ⟨g, hload, hnone⟩ := load_of_refusal refusal_relayed
    rw [List.findSome?_eq_none_iff] at hnone
    obtain ⟨t, ht⟩ := (build_of_load hload).1.2 fun d hd => fault?_eq_none.1 (hnone d hd)
    exact ⟨g, t, hload, ht⟩
  · obtain ⟨g, hload, hfault⟩ := load_of_refusal refusal_crowded
    exact ⟨g, hload, ((build_of_load hload).2.1 _).2 hfault⟩

end Grammar
end CommandEngine
