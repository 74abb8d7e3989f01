import CommandEngine.Proofs.Tree.Merge

/-!
# How a tree grows

Adding a `NodeSpec` goes through its declarations one after the other, a node before the ones below it.  What is to
be said of a tree that has grown is proved of one such step, `CommandTree.Joins`, and carried along the run:

* `CommandTree.Keeps`: nodes keep their numbers and everything but their handlers, and children are only
  ever added after those that are there, in the list of all children as in the lists of keywords and of
  arguments;
* `CommandTree.JoinsAll.childNames`: the children at a path stand in the order in which their names were first
  declared below it.
-/

namespace CommandEngine

variable {σ : Type}

lemma mem_declaredAt {α : Type} {path : List String} {l : List (List String × α)} {s : α} :
    s ∈ declaredAt path l ↔ (path, s) ∈ l := by
  simp [declaredAt]

lemma declaredAt_ne_nil {α : Type} {path : List String} {l : List (List String × α)} :
    declaredAt path l ≠ [] ↔ ∃ s, (path, s) ∈ l := by
  simp [List.eq_nil_iff_forall_not_mem, mem_declaredAt]

namespace CommandTree

variable {t t' u : CommandTree σ} {d : List String × NodeSpec σ} {l : List (List String × NodeSpec σ)}

/-! ## What stands at a path that is declared -/

/-- Where the node at a path has what it carries from: it was there before and has at most another
handler, or the first declaration of the path has brought it and the last one with a handler has brought
that. -/
lemma Extends.origin (h : Extends t t' l) {path : List String} {id : NodeId}
    (hid : t'.find? path = some id) :
    (t.find? path = some id ∧ (t'.node id).pattern = (t.node id).pattern ∧
        (t'.node id).requirement = (t.node id).requirement ∧
        (t'.node id).redirect = (t.node id).redirect) ∨
      (t.find? path = none ∧ ∃ s rest, declaredAt path l = s :: rest ∧
        (t'.node id).pattern = some s.pattern ∧ (t'.node id).requirement = s.requirement ∧
        (t'.node id).redirect = s.redirect ∧
        (t'.node id).handler = (s :: rest).reverse.findSome? NodeSpec.handler) := by
  have hcontent := h.content path
  rw [content?, hid, Option.map_some, content?] at hcontent
  cases hfind : t.find? path with
  | some old =>
    have hold : old = id := Option.some.inj ((h.keeps hfind).symm.trans hid)
    subst hold
    rw [hfind, Option.map_some, NodeSpec.foldl_mergeInto_some, Option.some.injEq, Node.mk.injEq] at hcontent
    obtain ⟨hpattern, -, -, hrequirement, hredirect⟩ := hcontent
    exact .inl ⟨rfl, hpattern, hrequirement, hredirect⟩
  | none =>
    rw [hfind, Option.map_none] at hcontent
    cases hdeclared : declaredAt path l with
    | nil =>
      rw [hdeclared] at hcontent
      cases hcontent
    | cons s rest =>
      rw [hdeclared, ← NodeSpec.merged, NodeSpec.merged_cons, Option.some.injEq, Node.mk.injEq] at hcontent
      obtain ⟨hpattern, -, hhandler, hrequirement, hredirect⟩ := hcontent
      exact .inr ⟨rfl, s, rest, rfl, hpattern, hrequirement, hredirect, hhandler⟩

/-- A path leads somewhere if it did before or is declared. -/
lemma Extends.isSome_find? (h : Extends t t' l) (path : List String) :
    (t'.find? path).isSome ↔ (t.find? path).isSome ∨ declaredAt path l ≠ [] := by
  have hcontent := congrArg Option.isSome (h.content path)
  rw [content?, content?, Option.isSome_map] at hcontent
  rw [hcontent]
  cases hfind : t.find? path with
  | some id => simp [NodeSpec.foldl_mergeInto_some]
  | none =>
    cases declaredAt path l with
    | nil => simp
    | cons s rest =>
      rw [Option.map_none, ← NodeSpec.merged, NodeSpec.merged_cons]
      simp

/-! ## Nothing is lost -/

section Append

variable {parent : NodeId} {n : Node σ}

/-- The children of a kind, after a node was appended: those that there were, and the new one if it is of the
kind and below the node in question. -/
lemma filter_children_append (ht : t.WellShaped) (hparent : parent < t.size) (hn : n.children = [])
    (kind : Node σ → Bool) (hkind : ∀ (n : Node σ) children, kind { n with children } = kind n)
    (id : NodeId) :
    (((t.append parent n).node id).children.filter fun e => kind ((t.append parent n).node e.2)) =
      ((t.node id).children.filter fun e => kind (t.node e.2)) ++
        if id = parent ∧ kind n then [(n.name, t.size)] else [] := by
  have hold : ∀ e ∈ (t.node id).children,
      kind ((t.append parent n).node e.2) = kind (t.node e.2) := by
    rintro ⟨k, c⟩ hmem
    have hne : c ≠ t.size := Nat.ne_of_lt (ht.ordered hmem).2
    rw [node_append hparent, if_neg hne]
    split
    · exact hkind _ _
    · rfl
  have hnew : kind ((t.append parent n).node t.size) = kind n := by
    rw [node_append hparent, if_pos rfl]
  rw [← List.filter_congr hold, node_append hparent]
  by_cases hid : id = t.size
  · have hne : id ≠ parent := hid ▸ Nat.ne_of_gt hparent
    have hroot : t.node id = .root := node_of_size_le (Nat.le_of_eq hid.symm)
    simp [hid, hn, hid ▸ hroot, hid ▸ hne, Node.root]
  · rw [if_neg hid]
    by_cases hp : parent = id
    · subst hp
      rw [if_pos rfl, List.filter_append]
      simp [List.filter_cons, hnew]
    · have hne : id ≠ parent := fun h => hp h.symm
      simp [hp, hne]

/-- A keyword that is appended is found among the keywords of its parent. -/
lemma literals_append (ht : t.WellShaped) (hparent : parent < t.size) (hn : n.children = [])
    (id : NodeId) :
    (t.append parent n).literals id =
      t.literals id ++ if id = parent ∧ n.isLiteral then [(n.name, t.size)] else [] :=
  filter_children_append ht hparent hn Node.isLiteral (fun _ _ => rfl) id

/-- An argument that is appended is found last among the arguments of its parent. -/
lemma arguments_append (ht : t.WellShaped) (hparent : parent < t.size) (hn : n.children = [])
    (id : NodeId) :
    (t.append parent n).arguments id =
      t.arguments id ++ if id = parent ∧ !n.isLiteral then [(n.name, t.size)] else [] :=
  filter_children_append ht hparent hn (fun n => !n.isLiteral) (fun _ _ => rfl) id

end Append

lemma SameShape.literals (h : SameShape t t') (id : NodeId) : t'.literals id = t.literals id := by
  simp only [CommandTree.literals, Node.isLiteral, h.children, h.pattern]

lemma SameShape.arguments (h : SameShape t t') (id : NodeId) : t'.arguments id = t.arguments id := by
  simp only [CommandTree.arguments, Node.isLiteral, h.children, h.pattern]

/-- A tree with nodes and handlers added to it: a node that was there has its number, everything it carried
but the handler, and its children in their order, before any new ones. -/
structure Keeps (t t' : CommandTree σ) : Prop where
  size_le : t.size ≤ t'.size
  node : ∀ id < t.size, ∃ handler added,
    t'.node id = { t.node id with handler, children := (t.node id).children ++ added }
  literals : ∀ id, t.literals id <+: t'.literals id
  arguments : ∀ id, t.arguments id <+: t'.arguments id

lemma Keeps.refl (t : CommandTree σ) : Keeps t t :=
  ⟨Nat.le_refl _, fun id _ => ⟨(t.node id).handler, [], by simp⟩, fun _ => List.prefix_rfl,
    fun _ => List.prefix_rfl⟩

lemma Keeps.trans (h : Keeps t t') (h' : Keeps t' u) : Keeps t u := by
  refine ⟨Nat.le_trans h.size_le h'.size_le, fun id hid => ?_, fun id => ?_, fun id => ?_⟩
  · obtain ⟨_, added, hnode⟩ := h.node id hid
    obtain ⟨handler, more, hnode'⟩ := h'.node id (Nat.lt_of_lt_of_le hid h.size_le)
    refine ⟨handler, added ++ more, ?_⟩
    rw [hnode', hnode]
    simp only [List.append_assoc]
  · exact (h.literals id).trans (h'.literals id)
  · exact (h.arguments id).trans (h'.arguments id)

lemma Joins.keeps (ht : t.WellShaped) (h : Joins t d t') : Keeps t t' := by
  cases h with
  | @fresh parent above s found unused =>
    have hparent := ht.lt_of_find? found
    refine ⟨by simp, fun id hid => ?_, fun id => ?_, fun id => ?_⟩
    · rw [node_append hparent, if_neg (Nat.ne_of_lt hid)]
      by_cases hp : parent = id
      · exact ⟨(t.node id).handler, [(s.name, t.size)], by rw [if_pos hp]; rfl⟩
      · exact ⟨(t.node id).handler, [], by rw [if_neg hp, List.append_nil]⟩
    · rw [literals_append ht hparent rfl]
      exact List.prefix_append _ _
    · rw [arguments_append ht hparent rfl]
      exact List.prefix_append _ _
  | @merged existing path s found =>
    have hlt := ht.lt_of_find? found
    have hsame := sameShape_mergeHandler hlt s.handler
    refine ⟨Nat.le_of_eq hsame.size.symm, fun id _ => ?_, fun id => ?_, fun id => ?_⟩
    · rw [mergeHandler, node_modify hlt]
      by_cases hid : existing = id
      · exact ⟨s.handler.or (t.node id).handler, [], by rw [if_pos hid, List.append_nil]⟩
      · exact ⟨(t.node id).handler, [], by rw [if_neg hid, List.append_nil]⟩
    · simp only [hsame.literals, List.prefix_rfl]
    · simp only [hsame.arguments, List.prefix_rfl]

theorem JoinsAll.keeps (ht : t.WellShaped) (h : JoinsAll t l t') : Keeps t t' := by
  induction h with
  | nil => exact .refl _
  | cons first _ ih => exact (first.keeps ht).trans (ih (first.extends ht).shaped)

/-! ## The order of children -/

lemma WellShaped.name_of_mem (ht : t.WellShaped) {id c : NodeId} {k : String}
    (h : (k, c) ∈ (t.node id).children) : (t.node c).name = k := by
  obtain ⟨p, hpattern, hname⟩ := ht.named h
  simp [Node.name, hpattern, hname]

end CommandTree

/-- The names declared right below a path, in order and with repetitions. -/
def namesBelow {α : Type} (path : List String) (l : List (List String × α)) : List String :=
  l.filterMap fun d => if d.1.dropLast = path then d.1.getLast? else none

/-- A name put after others unless it is among them. -/
def addName (names : List String) (k : String) : List String :=
  if k ∈ names then names else names ++ [k]

/-- Names added one by one are kept where they first occur. -/
lemma foldl_addName (l names : List String) :
    l.foldl addName names = names ++ (l.removeAll names).eraseDups := by
  induction l generalizing names with
  | nil => simp [List.removeAll]
  | cons k l ih =>
    rw [List.foldl_cons, ih, addName]
    by_cases hk : k ∈ names
    · simp [List.removeAll, hk]
    · have hrest : l.removeAll (names ++ [k]) = (l.removeAll names).filter fun b => !b == k := by
        simp only [List.removeAll, List.filter_filter]
        refine List.filter_congr fun b _ => ?_
        by_cases hb : b = k <;> simp [hb]
      have hfirst : (k :: l).removeAll names = k :: l.removeAll names := by
        simp [List.removeAll, hk]
      rw [if_neg hk, hrest, hfirst, List.eraseDups_cons, List.append_assoc, List.singleton_append]

lemma foldl_addName_nil (l : List String) : l.foldl addName [] = l.eraseDups := by
  rw [foldl_addName]
  simp [List.removeAll]

namespace CommandTree

variable {t t' : CommandTree σ} {d : List String × NodeSpec σ} {l : List (List String × NodeSpec σ)}

/-- The names of the children at a path, in order; none where there is no node. -/
def childNames (t : CommandTree σ) (path : List String) : List String :=
  match t.find? path with
  | some id => (t.node id).children.map Prod.fst
  | none => []

lemma childNames_of_some {path : List String} {id : NodeId} (h : t.find? path = some id) :
    t.childNames path = (t.node id).children.map Prod.fst := by
  rw [childNames, h]

lemma childNames_of_none {path : List String} (h : t.find? path = none) : t.childNames path = [] := by
  rw [childNames, h]

lemma WellShaped.mem_childNames (ht : t.WellShaped) {path : List String} {k : String} :
    k ∈ t.childNames path ↔ (t.find? (path ++ [k])).isSome := by
  cases hpath : t.find? path with
  | none => simp [childNames_of_none hpath, find?_concat, hpath]
  | some id =>
    rw [childNames_of_some hpath, find?_concat_of_some hpath, Option.isSome_iff_exists]
    simp [ht.child?_eq_some]

lemma SameShape.childNames (h : SameShape t t') (path : List String) : t'.childNames path = t.childNames path := by
  simp only [CommandTree.childNames, h.find?, h.children]

/-- Below a path, only a declaration one name further on adds a name. -/
lemma foldl_addName_namesBelow (names path above : List String) (k : String) (s : NodeSpec σ) :
    (namesBelow path [(above ++ [k], s)]).foldl addName names = if above = path then addName names k else names := by
  by_cases habove : above = path
  · simp [namesBelow, habove]
  · simp [namesBelow, habove]

/-- A node that is appended puts its name after the names of the children of its parent, and of no other node. -/
lemma childNames_append (ht : t.WellShaped) {parent : NodeId} {above : List String} {s : NodeSpec σ}
    (found : t.find? above = some parent) (unused : t.child? parent s.name = none) (path : List String) :
    (t.append parent s.toNode).childNames path =
      if above = path then t.childNames path ++ [s.name] else t.childNames path := by
  have hparent := ht.lt_of_find? found
  have hfind := ht.find?_append (n := s.toNode) found rfl rfl unused path
  have hname : s.toNode.name = s.name := rfl
  rw [hname] at hfind
  by_cases hnew : path = above ++ [s.name]
  · -- the new node has no children, and there was no node before
    have habove : above ≠ path := by simp [hnew]
    have hnone : t.find? path = none := by
      rw [hnew, find?_concat_of_some found, unused]
    rw [if_pos hnew] at hfind
    rw [if_neg habove, childNames_of_none hnone, childNames_of_some hfind, node_append hparent, if_pos rfl]
    rfl
  · rw [if_neg hnew] at hfind
    cases hpath : t.find? path with
    | none =>
      have habove : above ≠ path := by
        rintro rfl
        cases found.symm.trans hpath
      rw [if_neg habove, childNames_of_none hpath, childNames_of_none (hfind.trans hpath)]
    | some id =>
      rw [childNames_of_some hpath, childNames_of_some (hfind.trans hpath), node_append hparent,
        if_neg (Nat.ne_of_lt (ht.lt_of_find? hpath))]
      by_cases hid : parent = id
      · subst hid
        rw [if_pos rfl, if_pos (ht.find?_inj found hpath), List.map_append, hname]
        rfl
      · have habove : above ≠ path := by
          rintro rfl
          exact hid (Option.some.inj (found.symm.trans hpath))
        rw [if_neg hid, if_neg habove]

/-- A declaration adds its name to the names below the path above it. -/
lemma Joins.childNames (ht : t.WellShaped) (h : Joins t d t') (path : List String) :
    t'.childNames path = (namesBelow path [d]).foldl addName (t.childNames path) := by
  cases h with
  | @fresh parent above s found unused =>
    rw [foldl_addName_namesBelow, childNames_append ht found unused]
    split
    · next habove =>
      subst habove
      have hunused : s.name ∉ t.childNames above := by
        rw [ht.mem_childNames, find?_concat_of_some found, unused]
        simp
      rw [addName, if_neg hunused]
    · rfl
  | @merged existing place s found =>
    have hsame := sameShape_mergeHandler (ht.lt_of_find? found) s.handler
    rw [hsame.childNames]
    cases place using List.reverseRecOn with
    | nil => simp [namesBelow]
    | append_singleton above k =>
      rw [foldl_addName_namesBelow]
      split
      · next habove =>
        subst habove
        have hused : k ∈ t.childNames above := by
          rw [ht.mem_childNames, found]
          rfl
        rw [addName, if_pos hused]
      · rfl

/-- The children at a path stand in the order in which their names were first declared below it. -/
theorem JoinsAll.childNames (ht : t.WellShaped) (h : JoinsAll t l t') (path : List String) :
    t'.childNames path = (namesBelow path l).foldl addName (t.childNames path) := by
  induction h with
  | nil => rfl
  | @cons _ _ _ d l first _ ih =>
    have happend : namesBelow path (d :: l) = namesBelow path [d] ++ namesBelow path l := by
      rw [← List.singleton_append, namesBelow, List.filterMap_append]
      rfl
    rw [ih (first.extends ht).shaped, first.childNames ht, happend, List.foldl_append]

end CommandTree
end CommandEngine
