import CommandEngine.Proofs.Tree.Growth

/-!
# The nodes of a tree that can come about

Reading, usage lines, paths and completion go along child edges and redirects without looking whether the
numbers they follow are those of nodes, and look children up by name and by kind without looking whether the
lists agree.  `CommandTree.Sound` says that they may: the root is the only node without a pattern and is
nobody's child, every other node is the child of one earlier node, children are kept under their own names,
keywords and arguments share the children out between them, and redirects lead to nodes.

A tree comes about by a sequence of `Change`s, some of which may be refused.  `CommandTree.run` makes them
in order, and `CommandTree.Reachable.sound` is the result for all trees that can come about.  What is not a matter
of shape, such as names and targets, comes from what is checked before anything is added:
`CommandTree.check_eq_ok_iff` says what that is, declaration by declaration.
-/

namespace CommandEngine

variable {σ : Type}

namespace CommandTree

variable {t t' : CommandTree σ}

/-! ## What is let through -/

/-- What a declaration has to be like to be added: it has a name, it does not have both a redirect and
children, it redirects to a node of the tree, and it brings no children to a node of the tree that
redirects. -/
structure Admits (t : CommandTree σ) (d : List String × NodeSpec σ) : Prop where
  named : d.2.name ≠ ""
  leaf : d.2.redirect.isSome → d.2.children = []
  target : ∀ r ∈ d.2.redirect, r.target < t.size
  bare : ∀ id ∈ t.find? d.1, (t.node id).redirect.isSome → d.2.children = []

lemma checkOwn_eq_ok_iff {name : String} {children : List (NodeSpec σ)} {redirect : Option (Redirect σ)} :
    t.checkOwn name children redirect = .ok () ↔
      name ≠ "" ∧ (redirect.isSome → children = []) ∧ ∀ r ∈ redirect, r.target < t.size := by
  unfold checkOwn
  by_cases hname : name = ""
  · simp [hname, bind, Except.bind, throw, throwThe, MonadExceptOf.throw]
  · cases redirect with
    | none => simp [hname, pure, Except.pure]
    | some r =>
      by_cases hchildren : children = []
      · simp [hname, hchildren, node?, size, pure, Except.pure, throw, throwThe, MonadExceptOf.throw]
      · simp [hname, hchildren, bind, Except.bind, throw, throwThe, MonadExceptOf.throw]

lemma check_mk_eq_ok_iff {parent : Option NodeId} {pattern : Pattern σ} {children : List (NodeSpec σ)}
    {handler : Option (Handler σ)} {requirement : Option (σ → Bool)} {redirect : Option (Redirect σ)} :
    t.check parent ⟨pattern, children, handler, requirement, redirect⟩ = .ok () ↔
      t.checkOwn pattern.name children redirect = .ok () ∧
        (∀ id ∈ parent.bind fun p => t.child? p pattern.name,
          (t.node id).redirect.isSome → children = []) ∧
        t.checkAll (parent.bind fun p => t.child? p pattern.name) children = .ok () := by
  rw [check]
  cases t.checkOwn pattern.name children redirect with
  | error e => simp [bind, Except.bind]
  | ok _ =>
    cases parent.bind fun p => t.child? p pattern.name with
    | none => simp [bind, Except.bind]
    | some id =>
      cases hredirect : (t.node id).redirect with
      | none => simp [hredirect, bind, Except.bind]
      | some r =>
        by_cases hchildren : children = []
        · simp [hchildren, bind, Except.bind]
        · simp [hredirect, hchildren, bind, Except.bind, throw, throwThe, MonadExceptOf.throw]

mutual

/-- A node that is to be added below a path passes the check if each of its declarations is admitted. -/
theorem check_eq_ok_iff : ∀ (s : NodeSpec σ) {above : List String},
    t.check (t.find? above) s = .ok () ↔ ∀ d ∈ s.declarations above, t.Admits d
  | ⟨pattern, children, handler, requirement, redirect⟩, above => by
    rw [check_mk_eq_ok_iff, ← find?_concat, checkOwn_eq_ok_iff, checkAll_eq_ok_iff children,
      NodeSpec.declarations, List.forall_mem_cons]
    constructor
    · rintro ⟨⟨hnamed, hleaf, htarget⟩, hbare, hbelow⟩
      exact ⟨⟨hnamed, hleaf, htarget, hbare⟩, hbelow⟩
    · rintro ⟨⟨hnamed, hleaf, htarget, hbare⟩, hbelow⟩
      exact ⟨⟨hnamed, hleaf, htarget⟩, hbare, hbelow⟩

theorem checkAll_eq_ok_iff : ∀ (l : List (NodeSpec σ)) {above : List String},
    t.checkAll (t.find? above) l = .ok () ↔ ∀ d ∈ NodeSpec.declarationsAll above l, t.Admits d
  | [], _ => by simp [checkAll, NodeSpec.declarationsAll, pure, Except.pure]
  | s :: rest, above => by
    rw [NodeSpec.declarationsAll, List.forall_mem_append, ← check_eq_ok_iff s, ← checkAll_eq_ok_iff rest,
      checkAll]
    cases t.check (t.find? above) s with
    | error e => simp [bind, Except.bind]
    | ok _ => simp [bind, Except.bind]

end

/-- What a node that was added has done: its declarations were all admitted and have taken effect. -/
lemma joinsAll_addChild (ht : t.WellShaped) {parent id : NodeId} {above : List String} {s : NodeSpec σ}
    (habove : t.find? above = some parent) (h : t.addChild parent s = .ok (id, t')) :
    (∀ d ∈ s.declarations above, t.Admits d) ∧ JoinsAll t (s.declarations above) t' := by
  obtain ⟨hcheck, hinsert⟩ := addChild_eq_ok h
  rw [← habove, check_eq_ok_iff] at hcheck
  have hjoins := joinsAll_insert s ht habove
  rw [hinsert] at hjoins
  exact ⟨hcheck, hjoins⟩

/-! ## What the nodes carry -/

/-- Names are not empty, the root does not redirect, and redirects lead to nodes. -/
structure Settled (t : CommandTree σ) : Prop where
  named : ∀ id < t.size, id ≠ rootId → (t.node id).name ≠ ""
  root : (t.node rootId).redirect = none
  target : ∀ id, ∀ r ∈ (t.node id).redirect, r.target < t.size

lemma settled_empty : (CommandTree.empty : CommandTree σ).Settled := by
  refine ⟨fun id hid hne => absurd (Nat.lt_one_iff.1 hid) hne, rfl, fun id r hr => ?_⟩
  cases id with
  | zero => cases hr
  | succ id =>
    rw [node_of_size_le (Nat.succ_le_succ (Nat.zero_le id))] at hr
    cases hr

lemma Settled.addChild (h : t.Settled) (ht : t.WellShaped) {parent id : NodeId} {s : NodeSpec σ}
    (hparent : parent < t.size) (hadded : t.addChild parent s = .ok (id, t')) : t'.Settled := by
  obtain ⟨above, habove⟩ := ht.exists_find? hparent
  obtain ⟨hadmits, hjoins⟩ := joinsAll_addChild ht habove hadded
  have hextends := hjoins.extends ht
  have hsize := (hjoins.keeps ht).size_le
  have hfirst : ∀ {path : List String} {d : NodeSpec σ} {rest : List (NodeSpec σ)},
      declaredAt path (s.declarations above) = d :: rest → t.Admits (path, d) := by
    intro path d rest hdeclared
    exact hadmits _ (mem_declaredAt.1 (by simp [hdeclared]))
  refine ⟨fun c hc hne => ?_, ?_, fun c r hr => ?_⟩
  · obtain ⟨path, hpath⟩ := hextends.shaped.exists_find? hc
    rcases hextends.origin hpath with ⟨hold, hpattern, -⟩ | ⟨-, d, rest, hdeclared, hpattern, -⟩
    · rw [Node.name, hpattern]
      exact h.named c (ht.lt_of_find? hold) hne
    · rw [Node.name, hpattern]
      exact (hfirst hdeclared).named
  · rcases hextends.origin find?_nil with ⟨-, -, -, hredirect⟩ | ⟨hnone, -⟩
    · rw [hredirect]
      exact h.root
    · cases hnone
  · by_cases hc : c < t'.size
    · obtain ⟨path, hpath⟩ := hextends.shaped.exists_find? hc
      rcases hextends.origin hpath with ⟨-, -, -, hredirect⟩ | ⟨-, d, rest, hdeclared, -, -, hredirect, -⟩
      · rw [hredirect] at hr
        exact Nat.lt_of_lt_of_le (h.target c r hr) hsize
      · rw [hredirect] at hr
        exact Nat.lt_of_lt_of_le ((hfirst hdeclared).target r hr) hsize
    · rw [node_of_size_le (Nat.le_of_not_lt hc)] at hr
      cases hr

lemma Settled.setRedirect (h : t.Settled) {id : NodeId} {r : Redirect σ} (hid : id < t.size)
    (hset : t.setRedirect id r = .ok t') : t'.Settled := by
  have hsame := sameShape_setRedirect hid hset
  obtain ⟨hroot, htarget, -, rfl⟩ := setRedirect_eq_ok hset
  have hnode := node_modify hid fun n => { n with redirect := some r }
  refine ⟨fun c hc hne => ?_, ?_, fun c r' hr => ?_⟩
  · rw [hsame.size] at hc
    rw [Node.name, hsame.pattern]
    exact h.named c hc hne
  · rw [hnode, if_neg hroot]
    exact h.root
  · rw [hsame.size]
    rw [hnode] at hr
    split at hr
    · cases hr
      simpa [node?, size] using htarget
    · exact h.target c r' hr

theorem Reachable.settled (h : t.Reachable) : t.Settled := by
  induction h with
  | empty => exact settled_empty
  | addChild before hparent hadded ih => exact ih.addChild before.wellShaped hparent hadded
  | setRedirect _ hid hset ih => exact ih.setRedirect hid hset

/-! ## What can be relied on -/

/-- What can be relied on when a tree is read. -/
structure Sound (t : CommandTree σ) : Prop where
  /-- There is a root, and no other node matches nothing. -/
  root_lt : rootId < t.size
  root_iff : ∀ id < t.size, (t.node id).pattern = none ↔ id = rootId
  root_redirect : (t.node rootId).redirect = none
  root_orphan : ∀ parent, rootId ∉ t.children parent
  /-- Every other node is a child of one node, once, and comes after it. -/
  parent : ∀ id < t.size, id ≠ rootId →
    ∃ parent < id, (t.children parent).count id = 1 ∧ ∀ other, id ∈ t.children other → other = parent
  child_lt : ∀ id, ∀ c ∈ t.children id, c < t.size
  /-- So one path leads to every node. -/
  path : ∀ id < t.size, ∃! path, t.find? path = some id
  /-- Children are kept under their own names. -/
  keys : ∀ id, ((t.node id).children.map Prod.fst).Nodup
  named : ∀ id, ∀ e ∈ (t.node id).children, e.1 = (t.node e.2).name ∧ e.1 ≠ ""
  /-- Keywords and arguments share the children out between them. -/
  disjoint : ∀ id, ((t.literals id).map Prod.fst).Disjoint ((t.arguments id).map Prod.fst)
  union : ∀ id, (t.literals id ++ t.arguments id).Perm (t.node id).children
  literal : ∀ id, ∀ e ∈ t.literals id, ∃ keyword, (t.node e.2).pattern = some (.literal keyword)
  argument : ∀ id, ∀ e ∈ t.arguments id, ∃ name type provider,
    (t.node e.2).pattern = some (.argument name type provider)
  ordered : ∀ id, (t.arguments id).Sublist (t.node id).children
  /-- Redirects lead to nodes, and a modifier or a fork comes with one. -/
  target : ∀ id, ∀ r ∈ (t.node id).redirect, r.target < t.size
  attached : ∀ id, (t.node id).modifier?.isSome ∨ (t.node id).forks = true → (t.node id).target?.isSome

lemma WellShaped.nodup_children (ht : t.WellShaped) (id : NodeId) : (t.children id).Nodup := by
  refine List.Nodup.map_on ?_ (List.Nodup.of_map Prod.fst (ht.distinct id))
  rintro ⟨j, c⟩ hj ⟨k, d⟩ hk heq
  simp only at heq
  subst heq
  rw [← ht.name_of_mem hj, ← ht.name_of_mem hk]

/-- No node but the root matches nothing. -/
lemma WellShaped.pattern_eq_none_iff (ht : t.WellShaped) {id : NodeId} (hid : id < t.size) :
    (t.node id).pattern = none ↔ id = rootId := by
  refine ⟨fun hnone => ?_, fun hroot => hroot ▸ ht.root⟩
  by_contra hne
  obtain ⟨parent, k, hmem⟩ := ht.spanning hne hid
  obtain ⟨p, hpattern, -⟩ := ht.named hmem
  rw [hnone] at hpattern
  cases hpattern

/-- One key stands for one child, which cannot be both a keyword and an argument. -/
lemma WellShaped.disjoint_names (ht : t.WellShaped) (id : NodeId) :
    ((t.literals id).map Prod.fst).Disjoint ((t.arguments id).map Prod.fst) := by
  intro k hliteral hargument
  obtain ⟨e, he, rfl⟩ := List.mem_map.1 hliteral
  obtain ⟨e', he', hkey⟩ := List.mem_map.1 hargument
  obtain rfl : e' = e :=
    List.inj_on_of_nodup_map (ht.distinct id) (List.mem_of_mem_filter he') (List.mem_of_mem_filter he) hkey
  exact absurd ((isLiteral_of_mem_literals he).symm.trans (isLiteral_of_mem_arguments he')) (by decide)

/-- A child that is not a keyword is an argument. -/
lemma WellShaped.exists_argument (ht : t.WellShaped) {id : NodeId} {e : String × NodeId} (he : e ∈ t.arguments id) :
    ∃ name type provider, (t.node e.2).pattern = some (.argument name type provider) := by
  obtain ⟨p, hpattern, -⟩ := ht.named (k := e.1) (c := e.2) (List.mem_of_mem_filter he)
  cases p with
  | literal keyword =>
    have hkind := isLiteral_of_mem_arguments he
    rw [Node.isLiteral_iff.2 ⟨keyword, hpattern⟩] at hkind
    cases hkind
  | argument name type provider => exact ⟨name, type, provider, hpattern⟩

theorem WellShaped.sound (ht : t.WellShaped) (h : t.Settled) : t.Sound where
  root_lt := ht.root_lt
  root_iff := fun id hid => ht.pattern_eq_none_iff hid
  root_redirect := h.root
  root_orphan := by
    intro parent hmem
    obtain ⟨⟨k, c⟩, hmem, rfl⟩ := List.mem_map.1 hmem
    exact ht.ne_root hmem rfl
  parent := by
    intro id hid hne
    obtain ⟨parent, k, hmem⟩ := ht.spanning hne hid
    have hchild : id ∈ t.children parent := List.mem_map.2 ⟨_, hmem, rfl⟩
    refine ⟨parent, (ht.ordered hmem).1, List.count_eq_one_of_mem (ht.nodup_children parent) hchild, ?_⟩
    intro other hother
    obtain ⟨⟨j, c⟩, hmem', rfl⟩ := List.mem_map.1 hother
    exact ht.single hmem' hmem
  child_lt := by
    intro id c hc
    obtain ⟨⟨k, c⟩, hmem, rfl⟩ := List.mem_map.1 hc
    exact (ht.ordered hmem).2
  path := by
    intro id hid
    obtain ⟨path, hpath⟩ := ht.exists_find? hid
    exact ⟨path, hpath, fun other hother => ht.find?_inj hother hpath⟩
  keys := ht.distinct
  named := by
    rintro id ⟨k, c⟩ hmem
    have hname := ht.name_of_mem hmem
    exact ⟨hname.symm, hname ▸ h.named c (ht.ordered hmem).2 (ht.ne_root hmem)⟩
  disjoint := ht.disjoint_names
  union := fun id => List.filter_append_perm _ _
  literal := fun id e he => Node.isLiteral_iff.1 (isLiteral_of_mem_literals he)
  argument := fun id e he => ht.exists_argument he
  ordered := fun id => List.filter_sublist
  target := h.target
  attached := by
    intro id hattached
    unfold Node.modifier? Node.forks at hattached
    cases hredirect : (t.node id).redirect with
    | none => simp [hredirect] at hattached
    | some r => simp [Node.target?, hredirect]

end CommandTree

/-! ## Changes -/

/-- A change that is asked of a tree. -/
inductive Change (σ : Type)
  | addChild (parent : NodeId) (s : NodeSpec σ)
  | setRedirect (id : NodeId) (r : Redirect σ)

namespace Change

/-- The node that a change is about. -/
def subject : Change σ → NodeId
  | addChild parent _ => parent
  | setRedirect id _ => id

/-- The tree that a change makes, or why it is refused. -/
def perform (t : CommandTree σ) : Change σ → Except BuildError (CommandTree σ)
  | addChild parent s => (t.addChild parent s).map Prod.snd
  | setRedirect id r => t.setRedirect id r

end Change

namespace CommandTree

variable {t t' : CommandTree σ} {c : Change σ} {changes : List (Change σ)}

/-- The tree after a change; one that is refused leaves it as it was. -/
def after (t : CommandTree σ) (c : Change σ) : CommandTree σ :=
  match c.perform t with
  | .ok t' => t'
  | .error _ => t

/-- The tree after changes in order. -/
def run (t : CommandTree σ) (changes : List (Change σ)) : CommandTree σ := changes.foldl after t

/-- Something holds of every change and the tree that it finds. -/
def Along (P : CommandTree σ → Change σ → Prop) : CommandTree σ → List (Change σ) → Prop
  | _, [] => True
  | t, c :: rest => P t c ∧ Along P (t.after c) rest

/-- Every change is about a node that exists by then. -/
def Serves (t : CommandTree σ) (changes : List (Change σ)) : Prop :=
  Along (fun t c => c.subject < t.size) t changes

lemma after_of_ok (h : c.perform t = .ok t') : t.after c = t' := by
  rw [after, h]

lemma after_of_error {e : BuildError} (h : c.perform t = .error e) : t.after c = t := by
  rw [after, h]

lemma perform_addChild_eq_ok {parent : NodeId} {s : NodeSpec σ} :
    (Change.addChild parent s).perform t = .ok t' ↔ ∃ id, t.addChild parent s = .ok (id, t') := by
  rw [Change.perform]
  cases t.addChild parent s with
  | error e => simp [Except.map]
  | ok added =>
    obtain ⟨id, u⟩ := added
    simp [Except.map]

lemma Reachable.after (h : t.Reachable) (hsubject : c.subject < t.size) : (t.after c).Reachable := by
  cases hperform : c.perform t with
  | error e =>
    rw [after_of_error hperform]
    exact h
  | ok t' =>
    rw [after_of_ok hperform]
    cases c with
    | addChild parent s =>
      obtain ⟨id, hadded⟩ := perform_addChild_eq_ok.1 hperform
      exact .addChild h hsubject hadded
    | setRedirect id r => exact .setRedirect h hsubject hperform

theorem Reachable.run (h : t.Reachable) (hserves : t.Serves changes) : (t.run changes).Reachable := by
  induction changes generalizing t with
  | nil => exact h
  | cons c rest ih => exact ih (h.after hserves.1) hserves.2

theorem Reachable.sound (h : t.Reachable) : t.Sound := h.wellShaped.sound h.settled

lemma Reachable.keeps_addChild (h : t.Reachable) {parent id : NodeId} {s : NodeSpec σ}
    (hparent : parent < t.size) (hadded : t.addChild parent s = .ok (id, t')) : t.Keeps t' := by
  obtain ⟨above, habove⟩ := h.wellShaped.exists_find? hparent
  exact (joinsAll_addChild h.wellShaped habove hadded).2.keeps h.wellShaped

end CommandTree
end CommandEngine
