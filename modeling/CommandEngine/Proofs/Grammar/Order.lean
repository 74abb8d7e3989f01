import CommandEngine.Proofs.Alias
import CommandEngine.Proofs.Renumbering
import CommandEngine.Proofs.Tree.Registry

/-!
# The order of commands

Where the commands of a grammar have different names, everything that is declared at or below a path comes from one
of them, so the order of the commands has no influence on what is declared there, nor on its order
(`Grammar.Permutes.filter_declarations`).  It decides on the numbers of nodes, on the order of the keywords at the
root and on the order in which redirects are attached, and on nothing else: the trees of two such grammars are
renumbered (`Grammar.Permutes.exists_renumbered`).  So the one is built if the other is, and then every command runs
in the same way in both (`Grammar.execute_of_perm`).
-/

namespace CommandEngine

/-! ## Declarations by command -/

mutual

/-- Everything that is declared by a node is declared at or below its path. -/
lemma GrammarNode.lineage_of_mem : ∀ (n : GrammarNode) {above : List GrammarNode} {d : Declaration},
    d ∈ n.declarations above → ∃ below, d.lineage = above ++ n :: below
  | ⟨pattern, children, executes, requires, redirect, fork, modifier, suggestions⟩, above, d => by
    intro hd
    rw [declarations, List.mem_cons] at hd
    rcases hd with rfl | hd
    · exact ⟨[], rfl⟩
    · obtain ⟨n, -, below, hlineage⟩ := lineage_of_mem_all children hd
      exact ⟨n :: below, by rw [hlineage, List.append_assoc, List.singleton_append]⟩

lemma GrammarNode.lineage_of_mem_all : ∀ (l : List GrammarNode) {above : List GrammarNode} {d : Declaration},
    d ∈ declarationsAll above l → ∃ n ∈ l, ∃ below, d.lineage = above ++ n :: below
  | [], _, _ => by simp [declarationsAll]
  | n :: rest, above, d => by
    intro hd
    rw [declarationsAll, List.mem_append] at hd
    rcases hd with hd | hd
    · obtain ⟨below, hlineage⟩ := lineage_of_mem n hd
      exact ⟨n, List.mem_cons_self .., below, hlineage⟩
    · obtain ⟨m, hm, below, hlineage⟩ := lineage_of_mem_all rest hd
      exact ⟨m, List.mem_cons_of_mem _ hm, below, hlineage⟩

end

lemma GrammarNode.declarationsAll_eq_flatMap (above : List GrammarNode) (l : List GrammarNode) :
    declarationsAll above l = l.flatMap (declarations above) := by
  induction l with
  | nil => rfl
  | cons n rest ih => rw [declarationsAll, ih, List.flatMap_cons]

lemma GrammarNode.head?_path {n : GrammarNode} {d : Declaration} (h : d ∈ n.declarations []) :
    d.path.head? = some n.name := by
  obtain ⟨below, hlineage⟩ := lineage_of_mem n h
  rw [Declaration.path, hlineage]
  rfl

/-- Of entries with different names, those of one name are the same in every order. -/
lemma filter_eq_of_perm {α : Type} {name : α → String} {l m : List α} (h : l.Perm m)
    (hnames : (m.map name).Nodup) (k : String) :
    (l.filter fun a => name a = k) = m.filter fun a => name a = k := by
  have hreplicate : (m.filter fun a => name a = k).map name =
      List.replicate (m.filter fun a => name a = k).length k := by
    rw [List.eq_replicate_iff, List.length_map]
    refine ⟨rfl, fun b hb => ?_⟩
    obtain ⟨a, ha, rfl⟩ := List.mem_map.1 hb
    exact of_decide_eq_true (List.mem_filter.1 ha).2
  have hlength : (m.filter fun a => name a = k).length ≤ 1 := by
    rw [← List.nodup_replicate (a := k), ← hreplicate]
    exact hnames.sublist (List.filter_sublist.map name)
  have hperm := h.filter fun a => name a = k
  generalize m.filter (fun a => name a = k) = sole at hperm hlength ⊢
  match sole, hlength with
  | [], _ => exact hperm.eq_nil
  | [a], _ => exact List.perm_singleton.1 hperm

namespace Grammar

/-- Two grammars with the same commands in another order, where the commands have different names. -/
structure Permutes (g g' : Grammar) : Prop where
  perm : g'.commands.Perm g.commands
  distinct : (g.commands.map GrammarNode.name).Nodup

namespace Permutes

variable {g g' : Grammar}

lemma mem_declarations (h : g.Permutes g') {d : Declaration} : d ∈ g'.declarations ↔ d ∈ g.declarations := by
  rw [declarations, declarations, GrammarNode.declarationsAll_eq_flatMap, GrammarNode.declarationsAll_eq_flatMap]
  exact (h.perm.flatMap_right _).mem_iff

/-- What is declared at or below the path of one command does not depend on the order of the commands. -/
theorem filter_declarations (h : g.Permutes g') (k : String) {p : Declaration → Bool}
    (hp : ∀ d, p d = true → d.path.head? = some k) : g'.declarations.filter p = g.declarations.filter p := by
  -- only the command of that name has any such declarations
  have hother : ∀ l : List GrammarNode, ((GrammarNode.declarationsAll [] l).filter p) =
      ((l.filter fun n => n.name = k).flatMap fun n => (n.declarations []).filter p) := by
    intro l
    rw [GrammarNode.declarationsAll_eq_flatMap]
    induction l with
    | nil => rfl
    | cons n rest ih =>
      rw [List.flatMap_cons, List.filter_append, ih]
      by_cases hname : n.name = k
      · rw [List.filter_cons, if_pos (decide_eq_true hname), List.flatMap_cons]
      · have hnone : (n.declarations []).filter p = [] := by
          rw [List.filter_eq_nil_iff]
          intro d hd hpd
          exact hname (Option.some.inj ((GrammarNode.head?_path hd).symm.trans (hp d hpd)))
        rw [List.filter_cons, if_neg (by simpa using hname), hnone, List.nil_append]
  rw [declarations, declarations, hother, hother, filter_eq_of_perm h.perm h.distinct]

lemma filter_path (h : g.Permutes g') (path : List String) :
    (g'.declarations.filter fun d => d.path = path) = g.declarations.filter fun d => d.path = path := by
  cases path with
  | nil =>
    have hnone : ∀ l : List Declaration, (l.filter fun d => d.path = []) = [] := by
      intro l
      rw [List.filter_eq_nil_iff]
      exact fun d _ => by simpa using d.path_ne_nil
    rw [hnone, hnone]
  | cons k rest =>
    refine h.filter_declarations k fun d hd => ?_
    rw [of_decide_eq_true hd]
    rfl

/-- The last declaration of a path that has a redirect stays the same. -/
lemma redirecting?_eq (h : g.Permutes g') (path : List String) : g'.redirecting? path = g.redirecting? path := by
  have hfilter : ∀ l : List Declaration, (l.reverse.find? fun d => d.path = path && d.node.redirect.isSome) =
      (l.filter fun d => d.path = path).reverse.find? fun d => d.node.redirect.isSome := by
    intro l
    rw [← List.filter_reverse, List.find?_filter]
    simp only [Bool.decide_and, Bool.decide_eq_true]
  rw [redirecting?, redirecting?, hfilter, hfilter, h.filter_path]

lemma declared_iff (h : g.Permutes g') (path : List String) : g'.Declared path ↔ g.Declared path := by
  simp only [Declared, h.mem_declarations]

lemma branches_iff (h : g.Permutes g') (path : List String) : g'.Branches path ↔ g.Branches path := by
  simp only [Branches, h.mem_declarations]

lemma fault?_eq (h : g.Permutes g') (d : Declaration) : g'.fault? d = g.fault? d := by
  simp only [fault?, h.declared_iff, h.branches_iff]

end Permutes

/-! ## Building both -/

section Building

variable {g g' : Grammar} {t t' u u' : CommandTree Source}

/-- The two passes of building: the commands are registered, then the redirects are attached. -/
structure Built (g : Grammar) (u t : CommandTree Source) : Prop where
  registered : registerAll .empty g.commands = .ok u
  attached : resolveAll u (g.declarations.filterMap Declaration.pending?) = .ok t

lemma build_eq_resolveAll (h : registerAll .empty g.commands = .ok u) :
    g.build = resolveAll u (g.declarations.filterMap Declaration.pending?) := by
  have hpending := GrammarNode.redirectsAll_eq g.commands []
  rw [List.map_nil, ← declarations] at hpending
  rw [build, h, ← hpending]
  rfl

lemma exists_built (h : g.build = .ok t) : ∃ u, g.Built u t := by
  have hbuild := h
  unfold build at h
  obtain ⟨u, hu, -⟩ := bind_eq_ok.1 h
  exact ⟨u, hu, (build_eq_resolveAll hu).symm.trans hbuild⟩

/-- A grammar of commands that pass is built if no redirect is at fault. -/
lemma exists_build_iff (hliterals : ∀ n ∈ g.commands, n.pattern.isLiteral = true)
    (hpasses : ∀ d ∈ g.declarations, d.Passes) :
    (∃ t, g.build = .ok t) ↔ ∀ d ∈ g.declarations, g.fault? d = none := by
  obtain ⟨u, hu⟩ := exists_registerAll CommandTree.wellShaped_empty redirect_empty hliterals hpasses
  have hframes : g.Frames u u := ⟨hu, ⟨rfl, fun _ => rfl, fun _ => rfl⟩⟩
  rw [build_eq_resolveAll hu, ← List.findSome?_eq_none_iff]
  rcases hframes.resolveAll_eq fun d (hd : d ∈ g.declarations) => hd with ⟨hnone, t, ht⟩ | ⟨e, he, herror⟩
  · simp [hnone, ht]
  · simp [he, herror]

/-- Registering the commands of a grammar is registering what they specify. -/
lemma registerEach_toSpecs {l : List GrammarNode} (h : registerAll t l = .ok t') :
    t.registerEach (GrammarNode.toSpecs l) = .ok t' := by
  induction l generalizing t with
  | nil =>
    obtain rfl : t = t' := Except.ok.inj h
    rw [GrammarNode.toSpecs]
    rfl
  | cons n rest ih =>
    rw [registerAll] at h
    split at h
    · cases h
    · next id u hregister =>
      rw [GrammarNode.toSpecs, CommandTree.registerEach, List.foldlM_cons, hregister]
      exact ih h

namespace Built

variable (h : g.Built u t)
include h

lemma frames : g.Frames u u := ⟨h.registered, ⟨rfl, fun _ => rfl, fun _ => rfl⟩⟩

lemma attached_tree : PendingRedirect.Attached u t (g.declarations.filterMap Declaration.pending?) :=
  PendingRedirect.attached_resolveAll h.frames.shaped h.attached

lemma same : CommandTree.SameShape u t := h.attached_tree.same

lemma shaped : t.WellShaped := h.frames.shaped.of_sameShape h.same

lemma isSome_find? (path : List String) : (t.find? path).isSome ↔ g.Declared path := by
  rw [h.same.find?, isSome_find?_registerAll h.registered]

/-- A node at a path carries what the declarations of the path have been merged to. -/
lemma content {path : List String} {id : NodeId} (hid : t.find? path = some id) :
    some ((t.node id).pattern, (t.node id).handler, (t.node id).requirement) =
      (((g.declarations.filter fun d => d.path = path).map fun d => d.node.toSpec).foldl
        NodeSpec.mergeInto (CommandTree.empty.content? path)).map
          fun n => (n.pattern, n.handler, n.requirement) := by
  rw [h.same.find?] at hid
  rw [← content_registerAll h.registered, CommandTree.content?, hid, h.same.pattern, h.attached_tree.handler,
    h.attached_tree.requirement]
  rfl

/-- The redirect of a node is that of the last declaration of its path that has one. -/
lemma redirect {path : List String} {id : NodeId} (hid : t.find? path = some id) :
    (t.node id).redirect = (g.redirecting? path).bind fun d => d.node.redirect.bind fun target =>
      (t.find? target).map fun n => ⟨n, d.node.modifier.map SourceRule.apply, d.node.fork⟩ := by
  obtain ⟨hnone, hsome⟩ := h.frames.redirect_of_resolveAll h.attached hid
  cases hlast : g.redirecting? path with
  | none => exact hnone hlast
  | some d =>
    obtain ⟨target, n, htarget, hn, hredirect⟩ := hsome d hlast
    simp [htarget, hn, hredirect]

/-- The children at a path stand in the order in which their names are first declared. -/
lemma childNames (path : List String) :
    t.childNames path =
      ((g.declarations.filter fun d => d.path.dropLast = path).filterMap fun d => d.path.getLast?).foldl
        addName (CommandTree.empty.childNames (σ := Source) path) := by
  have hspecs := GrammarNode.declarationsAll_toSpecs g.commands []
  rw [List.map_nil] at hspecs
  have hjoins := CommandTree.joinsAll_registerEach CommandTree.wellShaped_empty
    (registerEach_toSpecs h.registered)
  have hnames := hjoins.childNames CommandTree.wellShaped_empty path
  rw [hspecs, namesBelow, List.filterMap_map] at hnames
  have hsame : t.childNames path = u.childNames path := by
    simp only [CommandTree.childNames, h.same.find?, h.same.children]
  rw [hsame, hnames, List.filterMap_filter]
  simp only [Function.comp_def, decide_eq_true_eq]
  rfl

/-- Where all commands are keywords, the root has no argument. -/
lemma arguments_root (hliterals : ∀ n ∈ g.commands, n.pattern.isLiteral = true) : t.arguments rootId = [] := by
  rw [CommandTree.arguments, List.filter_eq_nil_iff]
  rintro ⟨k, c⟩ he
  have hfind : t.find? ([] ++ [k]) = some c := by
    rw [CommandTree.find?_concat_of_some CommandTree.find?_nil, h.shaped.child?_eq_some]
    exact he
  rw [h.same.find?] at hfind
  obtain ⟨d, hopening, hbare⟩ := bare_registerAll h.registered (List.cons_ne_nil k []) hfind
  -- what is declared with a path of one name is a command
  obtain ⟨n, hn, below, hlineage⟩ :=
    GrammarNode.lineage_of_mem_all g.commands (List.mem_of_find?_eq_some hopening)
  have hpath : d.path = [k] := by
    have hfound := List.find?_some hopening
    exact of_decide_eq_true hfound
  have hnode : d.node = n := by
    rw [Declaration.path, hlineage, List.nil_append, List.map_cons, List.cons_eq_cons, List.map_eq_nil_iff] at hpath
    rw [Declaration.lineage, hpath.2] at hlineage
    have hlast := congrArg List.getLast? hlineage
    simpa using hlast
  have hpattern : (u.node c).pattern = some d.node.toSpec.pattern := congrArg Node.pattern hbare
  have hliteral : (t.node c).isLiteral = true := by
    rw [Node.isLiteral, h.same.pattern, hpattern, Option.map_some, isLiteral_toSpec, hnode]
    exact hliterals n hn
  simp [hliteral]

end Built

/-! ## The same tree under other numbers -/

/-- Entries under the same names, in the same order, of which each has a counterpart among the others. -/
lemma eq_map_of_names {f : NodeId → NodeId} {l l' : List (String × NodeId)}
    (hnames : l'.map Prod.fst = l.map Prod.fst) (hdistinct : (l.map Prod.fst).Nodup)
    (hmem : ∀ e ∈ l, (e.1, f e.2) ∈ l') : l' = l.map fun e => (e.1, f e.2) := by
  induction l generalizing l' with
  | nil => exact List.map_eq_nil_iff.1 hnames
  | cons e rest ih =>
    cases l' with
    | nil => cases hnames
    | cons e' rest' =>
      obtain ⟨hname, hnames⟩ := List.cons_eq_cons.1 hnames
      obtain ⟨hfresh, hdistinct⟩ := List.nodup_cons.1 hdistinct
      rw [List.forall_mem_cons] at hmem
      have hfirst : e' = (e.1, f e.2) := by
        rcases List.mem_cons.1 hmem.1 with heq | hlater
        · exact heq.symm
        · have htwice : e.1 ∈ rest'.map Prod.fst := List.mem_map.2 ⟨_, hlater, rfl⟩
          exact absurd (hnames ▸ htwice) hfresh
      have hrest : rest' = rest.map fun e => (e.1, f e.2) := by
        refine ih hnames hdistinct fun x hx => ?_
        rcases List.mem_cons.1 (hmem.2 x hx) with heq | hlater
        · have htwice : e.1 ∈ rest.map Prod.fst := List.mem_map.2 ⟨x, hx, by rw [← hname, ← heq]⟩
          exact absurd htwice hfresh
        · exact hlater
      rw [List.map_cons, hfirst, hrest]

/-- Numbers that lead from each node of the one tree to the node at the same path of the other. -/
structure Carries (f : NodeId → NodeId) (t t' : CommandTree Source) : Prop where
  find? : ∀ {path : List String} {id : NodeId}, t.find? path = some id → t'.find? path = some (f id)
  outside : ∀ {id : NodeId}, t.size ≤ id → t'.size ≤ f id

lemma exists_carries (h : g.Permutes g') (hb : g.Built u t) (hb' : g'.Built u' t') :
    ∃ f, Carries f t t' := by
  have hcounterpart : ∀ id, ∃ id', (∀ path, t.find? path = some id → t'.find? path = some id') ∧
      (t.size ≤ id → t'.size ≤ id') := by
    intro id
    by_cases hlt : id < t.size
    · obtain ⟨path, hid⟩ := hb.shaped.exists_find? hlt
      have hsome : (t'.find? path).isSome := by
        rw [hb'.isSome_find?, h.declared_iff, ← hb.isSome_find?, hid]
        rfl
      obtain ⟨id', hid'⟩ := Option.isSome_iff_exists.1 hsome
      refine ⟨id', fun path' hpath' => ?_, fun hge => absurd hlt (Nat.not_lt.2 hge)⟩
      rw [hb.shaped.find?_inj hpath' hid, hid']
    · exact ⟨t'.size, fun path hpath => absurd (hb.shaped.lt_of_find? hpath) hlt, fun _ => Nat.le_refl _⟩
  choose f hfind houtside using hcounterpart
  exact ⟨f, fun hid => hfind _ _ hid, fun hge => houtside _ hge⟩

namespace Carries

variable {f : NodeId → NodeId} (hf : Carries f t t')
include hf

lemma root : f rootId = rootId := by
  have hroot : t'.find? [] = some (f rootId) := hf.find? CommandTree.find?_nil
  exact (Option.some.inj hroot).symm

lemma find?_eq (h : g.Permutes g') (hb : g.Built u t) (hb' : g'.Built u' t') (path : List String) :
    t'.find? path = (t.find? path).map f := by
  cases hid : t.find? path with
  | some id => exact hf.find? hid
  | none =>
    have hnone : ¬ (t'.find? path).isSome := by
      rw [hb'.isSome_find?, h.declared_iff, ← hb.isSome_find?, hid]
      exact Bool.false_ne_true
    exact Option.not_isSome_iff_eq_none.1 hnone

/-- Outside of the trees there is nothing on either side. -/
lemma reordered_outside {id : NodeId} (hid : t.size ≤ id) : (t.node id).Reordered f (t'.node (f id)) := by
  rw [CommandTree.node_of_size_le hid, CommandTree.node_of_size_le (hf.outside hid)]
  exact ⟨rfl, rfl, rfl, rfl, .refl _⟩

lemma mem_children (ht : t.WellShaped) (ht' : t'.WellShaped) {path : List String} {id : NodeId}
    (hid : t.find? path = some id) {e : String × NodeId} (he : e ∈ (t.node id).children) :
    (e.1, f e.2) ∈ (t'.node (f id)).children := by
  obtain ⟨k, c⟩ := e
  have hchild : t.find? (path ++ [k]) = some c := by
    rw [CommandTree.find?_concat_of_some hid, ht.child?_eq_some]
    exact he
  have hchild' := hf.find? hchild
  rw [CommandTree.find?_concat_of_some (hf.find? hid), ht'.child?_eq_some] at hchild'
  exact hchild'

/-- The children of a node are carried to those of its counterpart. -/
lemma perm_children (h : g.Permutes g') (hb : g.Built u t) (hb' : g'.Built u' t') {path : List String}
    {id : NodeId} (hid : t.find? path = some id) :
    (t'.node (f id)).children.Perm ((t.node id).children.map fun e => (e.1, f e.2)) := by
  have hdistinct := hb.shaped.distinct id
  have hdistinct' := hb'.shaped.distinct (f id)
  have hcarried : (((t.node id).children.map fun e => (e.1, f e.2)).map Prod.fst).Nodup := by
    rw [List.map_map]
    exact hdistinct
  rw [List.perm_ext_iff_of_nodup hdistinct'.of_map hcarried.of_map]
  intro e
  constructor
  · intro he
    -- the name is declared below the path, so it has a child in the first tree too
    have hname : e.1 ∈ t'.childNames path := by
      rw [CommandTree.childNames_of_some (hf.find? hid)]
      exact List.mem_map_of_mem he
    rw [hb'.shaped.mem_childNames, hb'.isSome_find?, h.declared_iff, ← hb.isSome_find?,
      ← hb.shaped.mem_childNames, CommandTree.childNames_of_some hid] at hname
    obtain ⟨e₀, he₀, hname⟩ := List.mem_map.1 hname
    have heq := List.inj_on_of_nodup_map hdistinct' (hf.mem_children hb.shaped hb'.shaped hid he₀) he hname
    exact List.mem_map.2 ⟨e₀, he₀, heq⟩
  · intro he
    obtain ⟨e₀, he₀, rfl⟩ := List.mem_map.1 he
    exact hf.mem_children hb.shaped hb'.shaped hid he₀

/-- Below a command they stand in the same order. -/
lemma children_eq (h : g.Permutes g') (hb : g.Built u t) (hb' : g'.Built u' t') {k : String}
    {rest : List String} {id : NodeId} (hid : t.find? (k :: rest) = some id) :
    (t'.node (f id)).children = (t.node id).children.map fun e => (e.1, f e.2) := by
  have hfilter : (g'.declarations.filter fun d => d.path.dropLast = k :: rest) =
      g.declarations.filter fun d => d.path.dropLast = k :: rest := by
    refine h.filter_declarations k fun d hd => ?_
    have hlast := List.dropLast_append_getLast d.path_ne_nil
    rw [of_decide_eq_true hd] at hlast
    rw [← hlast]
    rfl
  have hnames : t'.childNames (k :: rest) = t.childNames (k :: rest) := by
    rw [hb'.childNames, hb.childNames, hfilter]
  rw [CommandTree.childNames_of_some (hf.find? hid), CommandTree.childNames_of_some hid] at hnames
  exact eq_map_of_names hnames (hb.shaped.distinct id)
    fun e he => hf.mem_children hb.shaped hb'.shaped hid he

/-- A node and its counterpart have the same declarations, and so differ in numbers and in the order of children. -/
lemma reordered (h : g.Permutes g') (hb : g.Built u t) (hb' : g'.Built u' t') : CommandTree.Reordered f t t' := by
  refine ⟨hf.root, fun id => ?_⟩
  by_cases hlt : id < t.size
  · obtain ⟨path, hid⟩ := hb.shaped.exists_find? hlt
    have hid' := hf.find? hid
    have hcontent := hb'.content hid'
    rw [h.filter_path, ← hb.content hid, Option.some.injEq, Prod.mk.injEq, Prod.mk.injEq] at hcontent
    obtain ⟨hpattern, hhandler, hrequirement⟩ := hcontent
    refine ⟨hpattern, hhandler, hrequirement, ?_, hf.perm_children h hb hb' hid⟩
    rw [hb'.redirect hid', hb.redirect hid, h.redirecting?_eq]
    simp only [hf.find?_eq h hb hb', Option.map_bind, Function.comp_def, Option.map_map]
  · exact hf.reordered_outside (Nat.le_of_not_lt hlt)

/-- All commands are keywords, so the trees are renumbered. -/
lemma renumbered (h : g.Permutes g') (hb : g.Built u t) (hb' : g'.Built u' t')
    (hliterals : ∀ n ∈ g.commands, n.pattern.isLiteral = true) : CommandTree.Renumbered f t t' := by
  have hreordered := hf.reordered h hb hb'
  refine ⟨hreordered, fun id => ?_⟩
  by_cases hlt : id < t.size
  · obtain ⟨path, hid⟩ := hb.shaped.exists_find? hlt
    cases path with
    | nil =>
      obtain rfl : rootId = id := Option.some.inj (CommandTree.find?_nil.symm.trans hid)
      have hperm := hreordered.arguments rootId
      rw [hb.arguments_root hliterals, List.map_nil] at hperm ⊢
      exact hperm.eq_nil
    | cons k rest =>
      rw [CommandTree.arguments, CommandTree.arguments, hf.children_eq h hb hb' hid, List.filter_map]
      simp only [Function.comp_def, (hreordered.node _).isLiteral]
  · have hge := Nat.le_of_not_lt hlt
    rw [CommandTree.arguments, CommandTree.arguments, CommandTree.node_of_size_le hge,
      CommandTree.node_of_size_le (hf.outside hge)]
    rfl

end Carries

/-- The trees of two such grammars are the same under other numbers. -/
theorem Permutes.exists_renumbered (h : g.Permutes g')
    (hliterals : ∀ n ∈ g.commands, n.pattern.isLiteral = true) (ht : g.build = .ok t)
    (ht' : g'.build = .ok t') : ∃ f, CommandTree.Renumbered f t t' := by
  obtain ⟨u, hb⟩ := exists_built ht
  obtain ⟨u', hb'⟩ := exists_built ht'
  obtain ⟨f, hf⟩ := exists_carries h hb hb'
  exact ⟨f, hf.renumbered h hb hb' hliterals⟩

end Building

/-! ## Running in both -/

variable {g g' : Grammar} {t t' : CommandTree Source} {text : String}

/-- The one grammar is built if the other is. -/
lemma Permutes.exists_build_iff (h : g.Permutes g') (hliterals : ∀ n ∈ g.commands, n.pattern.isLiteral = true)
    (hpasses : ∀ d ∈ g.declarations, d.Passes) : (∃ t, g.build = .ok t) ↔ ∃ t, g'.build = .ok t := by
  have hliterals' : ∀ n ∈ g'.commands, n.pattern.isLiteral = true :=
    fun n hn => hliterals n (h.perm.mem_iff.1 hn)
  have hpasses' : ∀ d ∈ g'.declarations, d.Passes := fun d hd => hpasses d (h.mem_declarations.1 hd)
  rw [Grammar.exists_build_iff hliterals hpasses, Grammar.exists_build_iff hliterals' hpasses']
  simp only [h.mem_declarations, h.fault?_eq]

/-- The order of commands with different names does not matter.  In every order the grammar is built or in none, and
then every source gets the same result or the same error for every input, and the same is reported on the way. -/
theorem execute_of_perm (hload : load text = .ok g) (hdistinct : (g.commands.map GrammarNode.name).Nodup)
    {commands : List GrammarNode} (hperm : commands.Perm g.commands) :
    ((∃ t, g.build = .ok t) ↔ ∃ t', Grammar.build ⟨g.version, commands⟩ = .ok t') ∧
      ∀ t t', g.build = .ok t → Grammar.build ⟨g.version, commands⟩ = .ok t' → ∀ input s,
        (t.execute input s).outcome = (t'.execute input s).outcome ∧
          (t.execute input s).notices.map Notice.entry = (t'.execute input s).notices.map Notice.entry := by
  obtain ⟨hliterals, hpasses⟩ := passes_of_load hload
  have h : g.Permutes ⟨g.version, commands⟩ := ⟨hperm, hdistinct⟩
  refine ⟨h.exists_build_iff hliterals hpasses, fun t t' ht ht' input s => ?_⟩
  obtain ⟨f, hrenumbered⟩ := h.exists_renumbered hliterals ht ht'
  have hdescribes := build_describes ht
  have hlegal := (CommandTree.legal_parseReader hdescribes.shaped (.ofString input) s).1.hops
  have hagrees := hrenumbered.execute hdescribes.shaped
    (hdescribes.blind_handler (hlegal _ (Trail.last_mem_hops _)))
    fun hop hhop => (ruleBound_of_build ht).blind (hlegal hop hhop)
  rw [Run.map_entry_notices, Run.map_entry_notices]
  exact ⟨hagrees.outcome, hagrees.entries⟩

/-- What an input comes to in the grammar of a document whose commands have different names. -/
def result? (text input : String) (s : Source) : Option Int32 :=
  match load text with
  | .error _ => none
  | .ok g =>
    if (g.commands.map GrammarNode.name).Nodup then
      match g.build with
      | .error _ => none
      | .ok t => (t.execute input s).outcome.toOption
    else none

lemma exists_of_result {input : String} {s : Source} {n : Int32} (h : result? text input s = some n) :
    ∃ g t, load text = .ok g ∧ (g.commands.map GrammarNode.name).Nodup ∧ g.build = .ok t ∧
      (t.execute input s).outcome = .ok n := by
  unfold result? at h
  split at h
  · cases h
  · next g hload =>
    split at h
    · next hdistinct =>
      split at h
      · cases h
      · next t hbuild =>
        refine ⟨g, t, hload, hdistinct, hbuild, ?_⟩
        cases houtcome : (t.execute input s).outcome with
        | error e =>
          rw [houtcome] at h
          cases h
        | ok m =>
          rw [houtcome] at h
          rw [Option.some.inj h]
    · cases h

/-- A command that leads into a later one, which leads back to the root. -/
def intertwined : String :=
  (Grammar.toJson ⟨"1.0.0", [
    { keyword "take" with redirect := some ["give", "back"] },
    { keyword "give" with children := [{ keyword "back" with children := [
      { keyword "now" with executes := some (.constant 1) },
      { keyword "then" with redirect := some [] }] }] }]⟩).compact

lemma result_intertwined : result? intertwined "take then take now" (.named "console") = some 1 := by
  decide +kernel

/-- In the other order the redirect leads back to an earlier command. -/
theorem execute_of_perm_intertwined :
    ∃ g t t', load intertwined = .ok g ∧ (g.commands.map GrammarNode.name).Nodup ∧ g.build = .ok t ∧
      Grammar.build ⟨g.version, g.commands.reverse⟩ = .ok t' ∧
      (t'.execute "take then take now" (.named "console")).outcome = .ok 1 := by
  obtain ⟨g, t, hload, hdistinct, hbuild, houtcome⟩ := exists_of_result result_intertwined
  obtain ⟨hbuilt, hruns⟩ := execute_of_perm hload hdistinct g.commands.reverse_perm
  obtain ⟨t', hbuild'⟩ := hbuilt.1 ⟨t, hbuild⟩
  exact ⟨g, t, t', hload, hdistinct, hbuild, hbuild', (hruns t t' hbuild hbuild' _ _).1.symm.trans houtcome⟩

end Grammar
end CommandEngine
