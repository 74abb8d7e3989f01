import CommandEngine.Proofs.Tree.Shape

/-!
# What registration does to a tree

Adding a `NodeSpec` to a tree walks through the spec and the tree at once and merges where names meet.  Told
by paths it is simpler: the spec is a list of *declarations*, each a path with what is declared there, in
pre-order, and every declaration changes what stands at its own path and nothing else.  The first
declaration of a path brings everything it carries; a later one only replaces the handler, if it has
one.

`CommandTree.Joins` is the step that one declaration makes: it either appends a node below the node at the path
above, or finds a node at its own path and leaves its handler there.  `CommandTree.joinsAll_insert` says that
`CommandTree.insert` is nothing but such steps, and `CommandTree.extends_insert` what they come to;
`NodeSpec.merged` computes what a list of declarations of one path amounts to.

The trees that can come about are the `CommandTree.Reachable` ones; they are all well shaped.
-/

namespace CommandEngine

variable {σ : Type}

/-! ## Declarations -/

mutual

/-- The nodes of a spec with their paths below `above`, each before the ones below it. -/
def NodeSpec.declarations (above : List String) : NodeSpec σ → List (List String × NodeSpec σ)
  | ⟨pattern, children, handler, requirement, redirect⟩ =>
    (above ++ [pattern.name], ⟨pattern, children, handler, requirement, redirect⟩) ::
      NodeSpec.declarationsAll (above ++ [pattern.name]) children

def NodeSpec.declarationsAll (above : List String) :
    List (NodeSpec σ) → List (List String × NodeSpec σ)
  | [] => []
  | s :: rest => NodeSpec.declarations above s ++ NodeSpec.declarationsAll above rest

end

/-- What is declared at a path, in order. -/
def declaredAt {α : Type} (path : List String) (l : List (List String × α)) : List α :=
  l.filterMap fun d => if d.1 = path then some d.2 else none

lemma declaredAt_append {α : Type} (path : List String) (l m : List (List String × α)) :
    declaredAt path (l ++ m) = declaredAt path l ++ declaredAt path m :=
  List.filterMap_append

namespace NodeSpec

/-- What one more declaration makes of what stands at its path. -/
def mergeInto (found : Option (Node σ)) (s : NodeSpec σ) : Option (Node σ) :=
  match found with
  | none => some s.toNode
  | some n => some { n with handler := s.handler.or n.handler }

/-- What the declarations of one path amount to. -/
def merged (l : List (NodeSpec σ)) : Option (Node σ) := l.foldl mergeInto none

lemma foldl_mergeInto_some (l : List (NodeSpec σ)) (n : Node σ) :
    l.foldl mergeInto (some n) =
      some { n with handler := l.foldl (fun handler s => s.handler.or handler) n.handler } := by
  induction l generalizing n with
  | nil => rfl
  | cons s l ih => simp only [List.foldl_cons, mergeInto, ih]

/-- Of several declarations the last one that has a handler decides on it. -/
lemma foldl_or_handler (l : List (NodeSpec σ)) (start : Option (Handler σ)) :
    l.foldl (fun handler s => s.handler.or handler) start = (l.reverse.findSome? handler).or start := by
  induction l generalizing start with
  | nil => rfl
  | cons s l ih =>
    rw [List.foldl_cons, ih, List.reverse_cons, List.findSome?_append, Option.or_assoc]
    cases hs : s.handler <;> simp [hs]

/-- The first declaration decides on everything but the handler, and the last one that has a handler on
that. -/
lemma merged_cons (s : NodeSpec σ) (l : List (NodeSpec σ)) :
    merged (s :: l) = some { s.toNode with handler := (s :: l).reverse.findSome? handler } := by
  have hhandler := foldl_or_handler (s :: l) none
  rw [List.foldl_cons, Option.or_none, Option.or_none] at hhandler
  rw [merged, List.foldl_cons, ← hhandler]
  exact foldl_mergeInto_some l s.toNode

end NodeSpec

/-! ## What stands at a path -/

/-- A node without its children. -/
def Node.bare (n : Node σ) : Node σ := { n with children := [] }

namespace CommandTree

variable {t t' : CommandTree σ}

/-- What the node at a path carries, its children aside. -/
def content? (t : CommandTree σ) (path : List String) : Option (Node σ) :=
  (t.find? path).map fun id => (t.node id).bare

/-- A tree grown by declarations: no path is lost, and each declaration takes effect at its path. -/
structure Extends (t t' : CommandTree σ) (l : List (List String × NodeSpec σ)) : Prop where
  shaped : t'.WellShaped
  keeps : ∀ {path : List String} {id : NodeId}, t.find? path = some id → t'.find? path = some id
  content : ∀ path, t'.content? path =
    (declaredAt path l).foldl NodeSpec.mergeInto (t.content? path)

lemma Extends.refl (h : t.WellShaped) : Extends t t [] :=
  ⟨h, id, fun _ => rfl⟩

lemma Extends.trans {u : CommandTree σ} {l m : List (List String × NodeSpec σ)}
    (h : Extends t t' l) (h' : Extends t' u m) : Extends t u (l ++ m) := by
  refine ⟨h'.shaped, fun hpath => h'.keeps (h.keeps hpath), fun path => ?_⟩
  rw [h'.content, h.content, declaredAt_append, List.foldl_append]

/-- A node that is appended stands at a path of its own. -/
lemma extends_append (h : t.WellShaped) {parent : NodeId} {above : List String}
    (habove : t.find? above = some parent) {s : NodeSpec σ} (hfresh : t.child? parent s.name = none) :
    Extends t (t.append parent s.toNode) [(above ++ [s.name], s)] := by
  have hparent := h.lt_of_find? habove
  have hname : s.toNode.name = s.name := rfl
  have hfind := h.find?_append (n := s.toNode) habove rfl rfl hfresh
  have hnone : t.find? (above ++ [s.name]) = none := by
    rw [find?_concat_of_some habove, hfresh]
  refine ⟨h.append hparent rfl rfl hfresh, fun {path id} hpath => ?_, fun path => ?_⟩
  · have hne : path ≠ above ++ [s.name] := by
      rintro rfl
      rw [hnone] at hpath
      cases hpath
    rw [hfind, hname, if_neg hne, hpath]
  · rw [content?, hfind, hname]
    by_cases heq : path = above ++ [s.name]
    · subst heq
      rw [if_pos rfl, content?, hnone]
      simp [declaredAt, NodeSpec.mergeInto, node_append hparent, Node.bare, NodeSpec.toNode]
    · have hdeclared : declaredAt path [(above ++ [s.name], s)] = [] := by
        simp [declaredAt, Ne.symm heq]
      rw [if_neg heq, hdeclared, List.foldl_nil, content?]
      cases hpath : t.find? path with
      | none => rfl
      | some id =>
        have hid : id ≠ t.size := Nat.ne_of_lt (h.lt_of_find? hpath)
        simp only [Option.map_some, node_append hparent, if_neg hid]
        split <;> rfl

lemma sameShape_mergeHandler {id : NodeId} (hid : id < t.size) (handler : Option (Handler σ)) :
    SameShape t (t.mergeHandler id handler) :=
  sameShape_modify hid (fun _ => rfl) fun _ => rfl

/-- A node that is merged changes the handler at its path. -/
lemma extends_mergeHandler (h : t.WellShaped) {existing : NodeId} {path : List String} {s : NodeSpec σ}
    (hpath : t.find? path = some existing) :
    Extends t (t.mergeHandler existing s.handler) [(path, s)] := by
  have hlt := h.lt_of_find? hpath
  have hsame := sameShape_mergeHandler hlt s.handler
  refine ⟨h.of_sameShape hsame, fun {q id} hq => by rw [hsame.find?, hq], fun q => ?_⟩
  rw [content?, hsame.find?, content?]
  cases hq : t.find? q with
  | none =>
    have hne : path ≠ q := by
      rintro rfl
      rw [hq] at hpath
      cases hpath
    simp [declaredAt, hne]
  | some id =>
    have hnode := node_modify hlt (fun n => { n with handler := s.handler.or n.handler }) id
    simp only [Option.map_some, mergeHandler, hnode]
    by_cases heq : path = q
    · subst heq
      have hid : existing = id := Option.some.inj (hpath.symm.trans hq)
      simp [declaredAt, NodeSpec.mergeInto, hid, Node.bare]
    · have hid : existing ≠ id := by
        rintro rfl
        exact heq (h.find?_inj hpath hq)
      simp [declaredAt, hid, heq]

/-! ## One declaration at a time -/

/-- One declaration takes effect. -/
inductive Joins (t : CommandTree σ) : List String × NodeSpec σ → CommandTree σ → Prop
  /-- A new node becomes the last child of the node above. -/
  | fresh {parent : NodeId} {above : List String} {s : NodeSpec σ}
      (found : t.find? above = some parent) (unused : t.child? parent s.name = none) :
      Joins t (above ++ [s.name], s) (t.append parent s.toNode)
  /-- The node that is there takes over the handler. -/
  | merged {existing : NodeId} {path : List String} {s : NodeSpec σ}
      (found : t.find? path = some existing) :
      Joins t (path, s) (t.mergeHandler existing s.handler)

/-- Declarations take effect in order. -/
inductive JoinsAll : CommandTree σ → List (List String × NodeSpec σ) → CommandTree σ → Prop
  | nil {t : CommandTree σ} : JoinsAll t [] t
  | cons {t t' u : CommandTree σ} {d : List String × NodeSpec σ} {l : List (List String × NodeSpec σ)}
      (first : Joins t d t') (rest : JoinsAll t' l u) : JoinsAll t (d :: l) u

variable {u : CommandTree σ} {d : List String × NodeSpec σ} {l m : List (List String × NodeSpec σ)}

lemma JoinsAll.append (h : JoinsAll t l t') (h' : JoinsAll t' m u) : JoinsAll t (l ++ m) u := by
  induction h with
  | nil => exact h'
  | cons first _ ih => exact .cons first (ih h')

lemma Joins.extends (ht : t.WellShaped) (h : Joins t d t') : Extends t t' [d] := by
  cases h with
  | fresh found unused => exact extends_append ht found unused
  | merged found => exact extends_mergeHandler ht found

lemma JoinsAll.extends (ht : t.WellShaped) (h : JoinsAll t l t') : Extends t t' l := by
  induction h with
  | nil => exact .refl ht
  | cons first _ ih =>
    have hextends := first.extends ht
    exact hextends.trans (ih hextends.shaped)

mutual

/-- Adding a node below a path is a run of steps, one for each of its declarations. -/
theorem joinsAll_insert : ∀ (s : NodeSpec σ) {t : CommandTree σ} {parent : NodeId} {above : List String},
    t.WellShaped → t.find? above = some parent → JoinsAll t (s.declarations above) (t.insert parent s).2
  | ⟨pattern, children, handler, requirement, redirect⟩, t, parent, above, ht, habove => by
    set s : NodeSpec σ := ⟨pattern, children, handler, requirement, redirect⟩ with hs
    rw [insert, NodeSpec.declarations]
    cases hchild : t.child? parent pattern.name with
    | some existing =>
      have hpath : t.find? (above ++ [pattern.name]) = some existing := by
        rw [find?_concat_of_some habove, hchild]
      have hjoins : Joins t (above ++ [pattern.name], s) (t.mergeHandler existing handler) :=
        .merged hpath
      have hextends := hjoins.extends ht
      exact .cons hjoins (joinsAll_insertAll children hextends.shaped (hextends.keeps hpath))
    | none =>
      have hjoins : Joins t (above ++ [pattern.name], s) (t.append parent s.toNode) :=
        .fresh (s := s) habove hchild
      have hpath : (t.append parent s.toNode).find? (above ++ [pattern.name]) = some t.size := by
        rw [ht.find?_append (n := s.toNode) habove rfl rfl hchild]
        exact if_pos rfl
      exact .cons hjoins (joinsAll_insertAll children (hjoins.extends ht).shaped hpath)

theorem joinsAll_insertAll : ∀ (l : List (NodeSpec σ)) {t : CommandTree σ} {parent : NodeId}
    {above : List String}, t.WellShaped → t.find? above = some parent →
      JoinsAll t (NodeSpec.declarationsAll above l) (t.insertAll parent l)
  | [], _, _, _, _, _ => by
    rw [insertAll, NodeSpec.declarationsAll]
    exact .nil
  | s :: rest, t, parent, above, ht, habove => by
    rw [insertAll, NodeSpec.declarationsAll]
    have hfirst := joinsAll_insert s ht habove
    have hextends := hfirst.extends ht
    exact hfirst.append (joinsAll_insertAll rest hextends.shaped (hextends.keeps habove))

end

/-- Adding a node below a path takes its declarations one after the other. -/
theorem extends_insert (s : NodeSpec σ) {parent : NodeId} {above : List String} (ht : t.WellShaped)
    (habove : t.find? above = some parent) : Extends t (t.insert parent s).2 (s.declarations above) :=
  (joinsAll_insert s ht habove).extends ht

/-! ## The trees that can come about -/

/-- The trees that grow from the empty one by adding nodes below existing ones and by making existing
nodes redirect.  Registering a command is adding a keyword below the root. -/
inductive Reachable : CommandTree σ → Prop
  | empty : Reachable .empty
  | addChild {t t' : CommandTree σ} {parent id : NodeId} {s : NodeSpec σ} (before : Reachable t)
      (exists_parent : parent < t.size) (added : t.addChild parent s = .ok (id, t')) : Reachable t'
  | setRedirect {t t' : CommandTree σ} {id : NodeId} {r : Redirect σ} (before : Reachable t)
      (exists_node : id < t.size) (redirected : t.setRedirect id r = .ok t') : Reachable t'

lemma addChild_eq_ok {parent id : NodeId} {s : NodeSpec σ} (h : t.addChild parent s = .ok (id, t')) :
    t.check (some parent) s = .ok () ∧ t.insert parent s = (id, t') := by
  unfold addChild at h
  cases hcheck : t.check (some parent) s with
  | error e => simp [hcheck, Except.map] at h
  | ok _ =>
    simp only [hcheck, Except.map, Except.ok.injEq] at h
    exact ⟨rfl, h⟩

lemma register_eq_ok {id : NodeId} {s : NodeSpec σ} (h : t.register s = .ok (id, t')) :
    s.pattern.isLiteral = true ∧ t.addChild rootId s = .ok (id, t') := by
  unfold register at h
  split at h
  · next hliteral => exact ⟨hliteral, h⟩
  · cases h

/-- What a redirect that was accepted changes. -/
lemma setRedirect_eq_ok {id : NodeId} {r : Redirect σ} (h : t.setRedirect id r = .ok t') :
    id ≠ rootId ∧ (t.node? r.target).isSome ∧ (t.node id).children = [] ∧
      t' = ⟨t.nodes.modify id fun n => { n with redirect := some r }⟩ := by
  unfold setRedirect at h
  simp only at h
  split at h
  · cases h
  · next hroot =>
    split at h
    · cases h
    · next htarget =>
      split at h
      · cases h
      · next hchildren =>
        refine ⟨hroot, ?_, ?_, (Except.ok.inj h).symm⟩
        · simpa [Option.isSome_iff_ne_none] using htarget
        · simpa using hchildren

lemma sameShape_setRedirect {id : NodeId} {r : Redirect σ} (hid : id < t.size)
    (h : t.setRedirect id r = .ok t') : SameShape t t' := by
  obtain ⟨-, -, -, rfl⟩ := setRedirect_eq_ok h
  exact sameShape_modify hid (fun _ => rfl) fun _ => rfl

/-- The child edges of every tree that can come about form a tree. -/
theorem Reachable.wellShaped (h : t.Reachable) : t.WellShaped := by
  induction h with
  | empty => exact wellShaped_empty
  | @addChild _ _ _ _ s _ hparent hadded ih =>
    obtain ⟨above, habove⟩ := ih.exists_find? hparent
    obtain ⟨-, hinsert⟩ := addChild_eq_ok hadded
    have hextends := extends_insert s ih habove
    rw [hinsert] at hextends
    exact hextends.shaped
  | setRedirect _ hid hredirected ih => exact ih.of_sameShape (sameShape_setRedirect hid hredirected)

lemma Reachable.register (h : t.Reachable) {id : NodeId} {s : NodeSpec σ}
    (hadded : t.register s = .ok (id, t')) : t'.Reachable :=
  .addChild h h.wellShaped.root_lt (register_eq_ok hadded).2

end CommandTree
end CommandEngine
