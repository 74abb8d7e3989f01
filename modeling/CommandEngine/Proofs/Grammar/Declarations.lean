import CommandEngine.Grammar.Build
import CommandEngine.Proofs.Tree.Merge

/-!
# What a grammar declares

A grammar is read here as a list of `Declaration`s in the order of the document, a node before the ones
below it.  Several of them may be about one path; in the tree that is built they share one node, of which the
first declares the requirement and the last one with an action the handler.  A redirect leads from the
path of a declaration that has one to the path that it names.

`Grammar.Describes` collects these facts about a grammar and a tree, and `Grammar.build_describes` proves
them of the tree that is built: registering commands merges declarations path by path, and attaching
redirects changes nothing else.
-/

namespace CommandEngine

/-! ## Declarations -/

/-- A node of a grammar with the nodes above it, the outermost first. -/
structure Declaration where
  above : List GrammarNode
  node : GrammarNode

namespace Declaration

/-- The node and the nodes above it, the outermost first. -/
def lineage (d : Declaration) : List GrammarNode := d.above ++ [d.node]

def path (d : Declaration) : List String := d.lineage.map GrammarNode.name

/-- The redirect that is declared. -/
def pending? (d : Declaration) : Option PendingRedirect :=
  d.node.redirect.map fun target => ⟨d.path, target, d.node.modifier, d.node.fork⟩

lemma path_ne_nil (d : Declaration) : d.path ≠ [] := by simp [path, lineage]

end Declaration

mutual

/-- The declarations of a node and everything below it, where `above` are the nodes above it. -/
def GrammarNode.declarations (above : List GrammarNode) : GrammarNode → List Declaration
  | ⟨pattern, children, executes, requires, redirect, fork, modifier, suggestions⟩ =>
    let node := ⟨pattern, children, executes, requires, redirect, fork, modifier, suggestions⟩
    ⟨above, node⟩ :: GrammarNode.declarationsAll (above ++ [node]) children

def GrammarNode.declarationsAll (above : List GrammarNode) : List GrammarNode → List Declaration
  | [] => []
  | n :: rest => GrammarNode.declarations above n ++ GrammarNode.declarationsAll above rest

end

namespace GrammarNode

lemma toSpec_handler (n : GrammarNode) : n.toSpec.handler = n.executes.map Action.handler := by
  cases n
  rw [toSpec]

lemma toSpec_requirement (n : GrammarNode) :
    n.toSpec.requirement = n.requires.map fun permission source => source.holds permission := by
  cases n
  rw [toSpec]

lemma toSpec_redirect (n : GrammarNode) : n.toSpec.redirect = none := by
  cases n
  rw [toSpec]

lemma name_toPattern (suggestions : List String) (p : GrammarPattern) :
    (p.toPattern suggestions).name = p.name := by
  cases p <;> rfl

mutual

/-- The spec of a node declares at every path what the node declares there. -/
lemma declarations_toSpec : ∀ (n : GrammarNode) (above : List GrammarNode),
    n.toSpec.declarations (above.map GrammarNode.name) =
      (n.declarations above).map fun d => (d.path, d.node.toSpec)
  | ⟨pattern, children, executes, requires, redirect, fork, modifier, suggestions⟩, above => by
    have hbelow := declarationsAll_toSpecs children
      (above ++ [⟨pattern, children, executes, requires, redirect, fork, modifier, suggestions⟩])
    rw [List.map_append] at hbelow
    simp only [toSpec, NodeSpec.declarations, declarations, name_toPattern, List.map_cons]
    refine List.cons_eq_cons.2 ⟨?_, hbelow⟩
    simp [Declaration.path, Declaration.lineage, GrammarNode.name]

lemma declarationsAll_toSpecs : ∀ (l : List GrammarNode) (above : List GrammarNode),
    NodeSpec.declarationsAll (above.map GrammarNode.name) (toSpecs l) =
      (declarationsAll above l).map fun d => (d.path, d.node.toSpec)
  | [], _ => rfl
  | n :: rest, above => by
    rw [toSpecs, NodeSpec.declarationsAll, declarationsAll, List.map_append,
      declarations_toSpec n above, declarationsAll_toSpecs rest above]

end

mutual

lemma redirects_eq : ∀ (n : GrammarNode) (above : List GrammarNode),
    n.redirects (above.map GrammarNode.name) = (n.declarations above).filterMap Declaration.pending?
  | ⟨pattern, children, executes, requires, redirect, fork, modifier, suggestions⟩, above => by
    have hbelow := redirectsAll_eq children
      (above ++ [⟨pattern, children, executes, requires, redirect, fork, modifier, suggestions⟩])
    rw [List.map_append] at hbelow
    simp only [redirects, declarations, List.filterMap_cons, ← hbelow]
    cases redirect with
    | none => rfl
    | some target => simp [Declaration.pending?, Declaration.path, Declaration.lineage, GrammarNode.name]

lemma redirectsAll_eq : ∀ (l : List GrammarNode) (above : List GrammarNode),
    redirectsAll (above.map GrammarNode.name) l =
      (declarationsAll above l).filterMap Declaration.pending?
  | [], _ => rfl
  | n :: rest, above => by
    rw [redirectsAll, declarationsAll, List.filterMap_append, redirects_eq n above,
      redirectsAll_eq rest above]

end

end GrammarNode

namespace Grammar

/-- The declarations of a grammar in the order of the document. -/
def declarations (g : Grammar) : List Declaration := GrammarNode.declarationsAll [] g.commands

/-- The first declaration of a path. -/
def opening? (g : Grammar) (path : List String) : Option Declaration :=
  g.declarations.find? fun d => d.path = path

/-- The last declaration of a path that has an action. -/
def acting? (g : Grammar) (path : List String) : Option Declaration :=
  g.declarations.reverse.find? fun d => d.path = path && d.node.executes.isSome

lemma path_of_acting {g : Grammar} {path : List String} {d : Declaration} (h : g.acting? path = some d) :
    d.path = path := by
  have hfound := List.find?_some h
  simp only [Bool.and_eq_true, decide_eq_true_eq] at hfound
  exact hfound.1

end Grammar

/-! ## Attaching redirects -/

namespace PendingRedirect

variable {t t' : CommandTree Source}

/-- A redirect that was attached leads from the node at its path to the node at its target. -/
lemma resolve_eq_ok {p : PendingRedirect} (h : p.resolve t = .ok t') :
    ∃ id target, t.find? p.path = some id ∧ t.find? p.target = some target ∧
      t.setRedirect id ⟨target, p.modifier.map SourceRule.apply, p.fork⟩ = .ok t' := by
  unfold resolve at h
  split at h
  · next id target hid htarget =>
    refine ⟨id, target, hid, htarget, ?_⟩
    cases hset : t.setRedirect id ⟨target, p.modifier.map SourceRule.apply, p.fork⟩ with
    | error e => simp [hset, Except.mapError] at h
    | ok u => simpa [hset, Except.mapError] using h
  · cases h

/-- Two trees that differ in redirects only, the second of which has those of the first and of a list. -/
structure Attached (t t' : CommandTree Source) (l : List PendingRedirect) : Prop where
  same : CommandTree.SameShape t t'
  handler : ∀ id, (t'.node id).handler = (t.node id).handler
  requirement : ∀ id, (t'.node id).requirement = (t.node id).requirement
  target : ∀ id, (t'.node id).target? = (t.node id).target? ∨
    ∃ p ∈ l, t.find? p.path = some id ∧ (t'.node id).target? = t.find? p.target

lemma Attached.refl (t : CommandTree Source) : Attached t t [] :=
  ⟨⟨rfl, fun _ => rfl, fun _ => rfl⟩, fun _ => rfl, fun _ => rfl, fun _ => .inl rfl⟩

lemma Attached.trans {u : CommandTree Source} {l m : List PendingRedirect} (h : Attached t t' l)
    (h' : Attached t' u m) : Attached t u (l ++ m) := by
  refine ⟨⟨?_, fun id => ?_, fun id => ?_⟩, fun id => ?_, fun id => ?_, fun id => ?_⟩
  · rw [h'.same.size, h.same.size]
  · rw [h'.same.children, h.same.children]
  · rw [h'.same.pattern, h.same.pattern]
  · rw [h'.handler, h.handler]
  · rw [h'.requirement, h.requirement]
  · rcases h'.target id with hkept | ⟨p, hp, hpath, htarget⟩
    · rw [hkept]
      rcases h.target id with hkept | ⟨p, hp, hpath, htarget⟩
      · exact .inl hkept
      · exact .inr ⟨p, List.mem_append_left _ hp, hpath, htarget⟩
    · rw [h.same.find?] at hpath htarget
      exact .inr ⟨p, List.mem_append_right _ hp, hpath, htarget⟩

/-- Attaching one redirect changes the target at its path. -/
lemma attached_resolve {p : PendingRedirect} (ht : t.WellShaped) (h : p.resolve t = .ok t') :
    Attached t t' [p] := by
  obtain ⟨id, target, hid, htarget, hset⟩ := resolve_eq_ok h
  have hlt := ht.lt_of_find? hid
  have hsame := CommandTree.sameShape_setRedirect hlt hset
  obtain ⟨-, -, -, rfl⟩ := CommandTree.setRedirect_eq_ok hset
  refine ⟨hsame, fun i => ?_, fun i => ?_, fun i => ?_⟩
  · rw [CommandTree.node_modify hlt]
    split <;> rfl
  · rw [CommandTree.node_modify hlt]
    split <;> rfl
  · rw [CommandTree.node_modify hlt]
    by_cases hi : id = i
    · subst hi
      exact .inr ⟨p, List.mem_singleton_self p, hid, by rw [if_pos rfl, htarget]; rfl⟩
    · exact .inl (by rw [if_neg hi])

lemma attached_resolveAll {l : List PendingRedirect} (ht : t.WellShaped)
    (h : Grammar.resolveAll t l = .ok t') : Attached t t' l := by
  induction l generalizing t with
  | nil =>
    cases h
    exact .refl _
  | cons p rest ih =>
    rw [Grammar.resolveAll] at h
    cases hp : p.resolve t with
    | error e => simp [hp, Except.bind] at h
    | ok u =>
      simp only [hp, Except.bind] at h
      have hfirst := attached_resolve ht hp
      exact hfirst.trans (ih (ht.of_sameShape hfirst.same) h)

end PendingRedirect

/-! ## The tree of a grammar -/

namespace Grammar

variable {g : Grammar} {t t' : CommandTree Source}

/-- Registering commands takes their declarations one after the other. -/
lemma extends_registerAll {l : List GrammarNode} (ht : t.WellShaped) (h : registerAll t l = .ok t') :
    CommandTree.Extends t t' (NodeSpec.declarationsAll [] (GrammarNode.toSpecs l)) := by
  induction l generalizing t with
  | nil =>
    cases h
    exact .refl ht
  | cons n rest ih =>
    rw [registerAll] at h
    split at h
    · cases h
    · next id u hregister =>
      obtain ⟨-, hinsert⟩ := CommandTree.addChild_eq_ok (CommandTree.register_eq_ok hregister).2
      have hfirst := CommandTree.extends_insert n.toSpec ht CommandTree.find?_nil
      rw [hinsert] at hfirst
      exact hfirst.trans (ih hfirst.shaped h)

lemma declaredAt_map (path : List String) (l : List Declaration) :
    declaredAt path (l.map fun d => (d.path, d.node.toSpec)) =
      (l.filter fun d => d.path = path).map fun d => d.node.toSpec := by
  rw [declaredAt, List.filterMap_map, ← List.filterMap_eq_map, List.filterMap_filter]
  refine List.filterMap_congr fun d _ => ?_
  simp

lemma findSome?_filter {α β : Type} (p : α → Bool) (f : α → Option β) (l : List α) :
    (l.filter p).findSome? f = (l.find? fun a => p a && (f a).isSome).bind f := by
  induction l with
  | nil => rfl
  | cons a l ih =>
    by_cases hp : p a = true
    · cases hf : f a <;> simp [hp, hf, ih]
    · simp [hp, ih]

/-- After all commands have been registered, the declarations of a path have been merged there. -/
lemma content_registerAll (h : registerAll .empty g.commands = .ok t) (path : List String) :
    t.content? path = ((g.declarations.filter fun d => d.path = path).map fun d => d.node.toSpec).foldl
      NodeSpec.mergeInto (CommandTree.empty.content? path) := by
  have hspecs := GrammarNode.declarationsAll_toSpecs g.commands []
  rw [List.map_nil] at hspecs
  rw [(extends_registerAll CommandTree.wellShaped_empty h).content, hspecs, declaredAt_map, declarations]

/-- The first declaration of a path decides on everything but the handler, and the last one that has an
action on that. -/
lemma bare_registerAll (h : registerAll .empty g.commands = .ok t) {path : List String} {id : NodeId}
    (hpath : path ≠ []) (hid : t.find? path = some id) :
    ∃ d, g.opening? path = some d ∧ (t.node id).bare = { d.node.toSpec.toNode with
      handler := (g.acting? path).bind fun d => d.node.toSpec.handler } := by
  have hempty : (CommandTree.empty : CommandTree Source).content? path = none := by
    cases path with
    | nil => exact absurd rfl hpath
    | cons k rest => rfl
  have hcontent := content_registerAll h path
  rw [hempty, CommandTree.content?, hid, Option.map_some, ← NodeSpec.merged] at hcontent
  have hacting : ((g.declarations.filter fun d => d.path = path).map
      fun d => d.node.toSpec).reverse.findSome? NodeSpec.handler =
        (g.acting? path).bind fun d => d.node.toSpec.handler := by
    rw [← List.map_reverse, ← List.filter_reverse, List.findSome?_map, findSome?_filter, acting?]
    simp only [Function.comp_def, GrammarNode.toSpec_handler, Option.isSome_map]
  have hopening : g.opening? path = (g.declarations.filter fun d => d.path = path).head? := by
    rw [List.head?_filter, opening?]
  cases hfilter : g.declarations.filter fun d => d.path = path with
  | nil =>
    rw [hfilter] at hcontent
    cases hcontent
  | cons d rest =>
    rw [hfilter] at hcontent hacting hopening
    rw [List.map_cons] at hcontent hacting
    rw [NodeSpec.merged_cons, hacting] at hcontent
    exact ⟨d, hopening, Option.some.inj hcontent⟩

/-- While commands are being registered no node redirects. -/
lemma redirect_registerAll (h : registerAll .empty g.commands = .ok t) (id : NodeId) :
    (t.node id).redirect = none := by
  have hshaped := (extends_registerAll CommandTree.wellShaped_empty h).shaped
  by_cases hlt : id < t.size
  · obtain ⟨path, hid⟩ := hshaped.exists_find? hlt
    by_cases hpath : path = []
    · -- nothing is declared at the root
      have hnone : (g.declarations.filter fun d => d.path = path) = [] := by
        rw [List.filter_eq_nil_iff]
        intro d _
        simpa [hpath] using d.path_ne_nil
      have hcontent := content_registerAll h path
      rw [hnone, CommandTree.content?, hid, hpath] at hcontent
      exact congrArg Node.redirect (Option.some.inj hcontent)
    · obtain ⟨d, -, hbare⟩ := bare_registerAll h hpath hid
      have hredirect : (t.node id).redirect = d.node.toSpec.redirect := congrArg Node.redirect hbare
      rw [hredirect, GrammarNode.toSpec_redirect]
  · rw [CommandTree.node_of_size_le (Nat.le_of_not_lt hlt)]
    rfl

/-- What a tree has to do with the grammar that it was built from: the first declaration of a path decides
who may use the node there, the last one with an action what it does, and redirects lead where declarations
say. -/
structure Describes (g : Grammar) (t : CommandTree Source) : Prop where
  shaped : t.WellShaped
  opening : ∀ {path : List String} {id : NodeId}, path ≠ [] → t.find? path = some id →
    ∃ d, g.opening? path = some d ∧ (t.node id).requirement = d.node.toSpec.requirement
  acting : ∀ {path : List String} {id : NodeId}, path ≠ [] → t.find? path = some id →
    (t.node id).handler = (g.acting? path).bind fun d => d.node.toSpec.handler
  leads : ∀ {id target : NodeId}, (t.node id).target? = some target →
    ∃ d ∈ g.declarations, ∃ path, d.node.redirect = some path ∧ t.find? d.path = some id ∧
      t.find? path = some target

lemma loadTree_eq_ok {text : String} :
    loadTree text = .ok t ↔ ∃ g, load text = .ok g ∧ g.build = .ok t := by
  unfold loadTree
  cases load text with
  | error e => simp [bind, Except.bind]
  | ok g => simp [bind, Except.bind]

/-- A grammar describes the tree that is built from it. -/
theorem build_describes (h : g.build = .ok t) : g.Describes t := by
  unfold build at h
  cases hregister : registerAll .empty g.commands with
  | error e =>
    rw [hregister] at h
    cases h
  | ok u =>
    rw [hregister] at h
    have hshaped := (extends_registerAll CommandTree.wellShaped_empty hregister).shaped
    have hattached := PendingRedirect.attached_resolveAll hshaped h
    have hsame := hattached.same
    refine ⟨hshaped.of_sameShape hsame, fun {path id} hpath hid => ?_, fun {path id} hpath hid => ?_,
      fun {id target} htarget => ?_⟩
    · rw [hsame.find?] at hid
      obtain ⟨d, hopening, hbare⟩ := bare_registerAll hregister hpath hid
      refine ⟨d, hopening, ?_⟩
      rw [hattached.requirement]
      exact congrArg Node.requirement hbare
    · rw [hsame.find?] at hid
      obtain ⟨_, -, hbare⟩ := bare_registerAll hregister hpath hid
      rw [hattached.handler]
      exact congrArg Node.handler hbare
    · rcases hattached.target id with hkept | ⟨p, hp, hpath, hresolved⟩
      · rw [hkept, Node.target?, redirect_registerAll hregister] at htarget
        cases htarget
      · have hpending := GrammarNode.redirectsAll_eq g.commands []
        rw [List.map_nil] at hpending
        rw [hpending] at hp
        obtain ⟨d, hd, hp⟩ := List.mem_filterMap.1 hp
        obtain ⟨path, hredirect, rfl⟩ := Option.map_eq_some_iff.1 hp
        refine ⟨d, hd, path, hredirect, ?_, ?_⟩
        · rw [hsame.find?]
          exact hpath
        · rw [hsame.find?, ← htarget]
          exact hresolved.symm

end Grammar
end CommandEngine
