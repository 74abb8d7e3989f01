import CommandEngine.Proofs.KeywordLines
import CommandEngine.Proofs.Tree.Exclusion
import CommandEngine.Usage

/-!
# Usage lines are the commands that are accepted

In a tree of keywords without redirects a usage line is a command, and both usage and reading go along the
`CommandTree.KeywordPath`s of the source.  Usage lists the ones that end at a handler
(`CommandTree.mem_usageFrom`), each of them once since words can be told apart where they are joined
(`CommandTree.nodup_usageFrom`).  Reading an input to its end follows one of them (`CommandTree.Walk.keywordPath`),
and the line of each of them calls its handler (`CommandTree.KeywordChain.execute_eq`).
`CommandTree.handles_iff_mem_allUsage` puts the two together.
-/

namespace CommandEngine

variable {σ : Type}

/-! ## Words in a line -/

lemma pathText_inj {ws vs : List String} (hws : ∀ w ∈ ws, IsWord w) (hvs : ∀ w ∈ vs, IsWord w)
    (h : pathText ws = pathText vs) : ws = vs := by
  by_cases hnil : vs = []
  · rw [hnil] at h ⊢
    exact (pathText_eq_empty hws).1 h
  · have hne : ws ≠ [] := by
      rintro rfl
      exact hnil ((pathText_eq_empty hvs).1 h.symm)
    rw [← pieces_pathText hne hws, h, pieces_pathText hnil hvs]

/-- A line that goes on with one more word. -/
lemma pathText_concat {ws : List String} (hws : ∀ w ∈ ws, IsWord w) (k : String) :
    pathText (ws ++ [k]) =
      if pathText ws = "" then k else CommandTree.joinUsage (pathText ws) k := by
  by_cases hnil : ws = []
  · rw [hnil]
    rfl
  · rw [if_neg fun hempty => hnil ((pathText_eq_empty hws).1 hempty)]
    refine String.toList_injective ?_
    have hsep : separator.toString.toList = [separator] := by decide
    rw [CommandTree.joinUsage, String.toList_append, String.toList_append, hsep]
    clear hws
    induction ws with
    | nil => exact absurd rfl hnil
    | cons w ws ih =>
      cases ws with
      | nil => simp [pathText, Text.join]
      | cons w' ws =>
        rw [List.cons_append, toList_pathText_cons (by simp), ih (List.cons_ne_nil _ _),
          toList_pathText_cons (List.cons_ne_nil _ _)]
        simp

namespace CommandTree

variable {t t' : CommandTree σ} {id c goal : NodeId} {k : String} {ks : List String} {source : σ}

/-! ## Trees of keywords -/

/-- Every node but the root matches a keyword that can be typed as one word, and none redirects. -/
structure OfKeywords (t : CommandTree σ) : Prop where
  keyword : ∀ id < t.size, id ≠ rootId → ∃ k, (t.node id).pattern = some (.literal k) ∧ separator ∉ k.toList
  plain : ∀ id, (t.node id).redirect = none

/-- Nothing is declared at the root: it has neither a handler nor a requirement. -/
lemma Reachable.root_bare (h : t.Reachable) :
    (t.node rootId).handler = none ∧ (t.node rootId).requirement = none := by
  induction h with
  | empty => exact ⟨rfl, rfl⟩
  | @addChild t t' parent id s before hparent hadded ih =>
    obtain ⟨above, habove⟩ := before.wellShaped.exists_find? hparent
    have hextends := (joinsAll_addChild before.wellShaped habove hadded).2.extends before.wellShaped
    have hnone : declaredAt [] (s.declarations above) = [] := by
      by_contra hne
      obtain ⟨d, hd⟩ := declaredAt_ne_nil.1 hne
      rcases (NodeSpec.mem_declarations_iff s above [] d).1 hd with htop | ⟨p, e, -, -, hpath⟩
      · simp at htop
      · simp at hpath
    have hcontent := hextends.content []
    rw [hnone, List.foldl_nil, content?, content?, find?_nil, find?_nil, Option.map_some, Option.map_some,
      Option.some.injEq] at hcontent
    exact ⟨(congrArg Node.handler hcontent).trans ih.1, (congrArg Node.requirement hcontent).trans ih.2⟩
  | setRedirect _ hid hset ih =>
    obtain ⟨-, -, -, rfl⟩ := setRedirect_eq_ok hset
    rw [node_modify hid]
    split
    · exact ih
    · exact ih

section Keywords

variable (ht : t.Reachable) (h : t.OfKeywords)

include ht h

/-- A child of a node is a keyword that can be typed as one word. -/
lemma OfKeywords.child (hchild : t.child? id k = some c) :
    (t.node c).isLiteral = true ∧ (t.node c).usage = k ∧ IsWord k := by
  have hmem := ht.wellShaped.child?_eq_some.1 hchild
  have hsize := (ht.wellShaped.ordered hmem).2
  have hroot := ht.wellShaped.ne_root hmem
  obtain ⟨k', hpattern, hunbroken⟩ := h.keyword c hsize hroot
  have hname := ht.wellShaped.name_of_mem hmem
  have hne := ht.settled.named c hsize hroot
  rw [hname] at hne
  simp only [Node.name, hpattern, Option.map_some, Option.getD_some, Pattern.name] at hname
  subst hname
  exact ⟨Node.isLiteral_iff.2 ⟨k', hpattern⟩, by rw [Node.usage, hpattern]; rfl, hne, hunbroken⟩

lemma OfKeywords.keywordPath_cons (hchild : t.child? id k = some c) (hcanUse : (t.node c).canUse source = true)
    (hnext : t.KeywordPath source c ks goal) : t.KeywordPath source id (k :: ks) goal := by
  obtain ⟨hliteral, -, hword⟩ := h.child ht hchild
  exact .cons hchild hliteral hword.2 (by rw [Node.target?, h.plain]; rfl) hcanUse hnext

lemma OfKeywords.isWord (hpath : t.KeywordPath source id ks goal) : ∀ w ∈ ks, IsWord w := by
  induction hpath with
  | nil => simp
  | cons hchild _ _ _ _ _ ih => exact List.forall_mem_cons.2 ⟨(h.child ht hchild).2.2, ih⟩

end Keywords

/-! ## Usage -/

/-- The lines from a node on that does not redirect: its own, and then those of its children. -/
lemma WellShaped.usageFrom_eq (ht : t.WellShaped) (hplain : (t.node id).redirect = none) (line : String) :
    t.usageFrom source true id line =
      if (t.node id).canUse source then
        (if (t.node id).handler.isSome then [line] else []) ++ (t.children id).flatMap fun c =>
          t.usageFrom source true c
            (if line = "" then (t.node c).usage else joinUsage line (t.node c).usage)
      else [] := by
  rw [usageFrom, ← ht.map_later, List.flatMap_map]
  simp only [shown, Bool.not_true, Bool.false_or, Node.target?, hplain, Option.map_none]
  cases (t.node id).canUse source <;> rfl

section Lines

variable (ht : t.Reachable) (h : t.OfKeywords)

include ht h

/-- The line that leads to a child. -/
lemma OfKeywords.usageFrom_child (hchild : t.child? id k = some c) {ws : List String}
    (hws : ∀ w ∈ ws, IsWord w) :
    (if pathText ws = "" then (t.node c).usage else joinUsage (pathText ws) (t.node c).usage) =
      pathText (ws ++ [k]) := by
  rw [pathText_concat hws, (h.child ht hchild).2.1]

lemma OfKeywords.forall_isWord_concat (hchild : t.child? id k = some c) {ws : List String}
    (hws : ∀ w ∈ ws, IsWord w) : ∀ w ∈ ws ++ [k], IsWord w := by
  rw [List.forall_mem_append, List.forall_mem_singleton]
  exact ⟨hws, (h.child ht hchild).2.2⟩

/-- The lines from a node on are those of the paths of keywords from there that end at a handler. -/
theorem mem_usageFrom (source : σ) (id : NodeId) {ws : List String} (hws : ∀ w ∈ ws, IsWord w) {line : String} :
    line ∈ t.usageFrom source true id (pathText ws) ↔
      (t.node id).canUse source = true ∧ ∃ ks goal, t.KeywordPath source id ks goal ∧
        (t.node goal).handler.isSome = true ∧ line = pathText (ws ++ ks) := by
  -- children come later than their parents
  induction hn : t.size - id using Nat.strongRecOn generalizing id ws with
  | ind n ih =>
    subst hn
    have hbelow : ∀ {k c}, t.child? id k = some c → (line ∈ t.usageFrom source true c
        (if pathText ws = "" then (t.node c).usage else joinUsage (pathText ws) (t.node c).usage) ↔
          (t.node c).canUse source = true ∧ ∃ ks goal, t.KeywordPath source c ks goal ∧
            (t.node goal).handler.isSome = true ∧ line = pathText (ws ++ k :: ks)) := by
      intro k c hchild
      obtain ⟨hlt, hsize⟩ := ht.wellShaped.ordered (ht.wellShaped.child?_eq_some.1 hchild)
      rw [h.usageFrom_child ht hchild hws, ih (t.size - c) (Nat.sub_lt_sub_left (hlt.trans hsize) hlt) c
        (h.forall_isWord_concat ht hchild hws) rfl]
      simp only [List.append_assoc, List.singleton_append]
    rw [ht.wellShaped.usageFrom_eq (h.plain id)]
    by_cases hcanUse : (t.node id).canUse source = true
    · rw [if_pos hcanUse, List.mem_append, List.mem_flatMap]
      constructor
      · rintro (hown | ⟨c, hc, hline⟩)
        · refine ⟨hcanUse, [], id, .nil, ?_⟩
          split at hown
          · next hhandler => exact ⟨hhandler, by simpa using hown⟩
          · cases hown
        · obtain ⟨⟨k, c⟩, hmem, rfl⟩ := List.mem_map.1 hc
          have hchild := ht.wellShaped.child?_eq_some.2 hmem
          obtain ⟨hcanUse', ks, goal, hpath, hhandler, rfl⟩ := (hbelow hchild).1 hline
          exact ⟨hcanUse, k :: ks, goal, h.keywordPath_cons ht hchild hcanUse' hpath, hhandler, rfl⟩
      · rintro ⟨-, ks, goal, hpath, hhandler, rfl⟩
        cases hpath with
        | nil =>
          left
          simp [hhandler]
        | @cons _ c _ k ks hchild _ _ _ hcanUse' hnext =>
          right
          exact ⟨c, List.mem_map.2 ⟨(k, c), ht.wellShaped.child?_eq_some.1 hchild, rfl⟩,
            (hbelow hchild).2 ⟨hcanUse', ks, goal, hnext, hhandler, rfl⟩⟩
    · simp [hcanUse]

/-- A line from a child on begins with the words of its parent and the keyword of the child. -/
lemma OfKeywords.exists_of_mem_usageFrom (hchild : t.child? id k = some c) {ws : List String}
    (hws : ∀ w ∈ ws, IsWord w) {line : String} (hline : line ∈ t.usageFrom source true c
      (if pathText ws = "" then (t.node c).usage else joinUsage (pathText ws) (t.node c).usage)) :
    ∃ ks, (∀ w ∈ ws ++ k :: ks, IsWord w) ∧ line = pathText (ws ++ k :: ks) := by
  rw [h.usageFrom_child ht hchild hws,
    mem_usageFrom ht h source c (h.forall_isWord_concat ht hchild hws)] at hline
  obtain ⟨-, ks, goal, hpath, -, rfl⟩ := hline
  refine ⟨ks, ?_, by rw [List.append_assoc, List.singleton_append]⟩
  rw [List.forall_mem_append, List.forall_mem_cons]
  exact ⟨hws, (h.child ht hchild).2.2, h.isWord ht hpath⟩

/-- No line is listed twice. -/
theorem nodup_usageFrom (source : σ) (id : NodeId) {ws : List String} (hws : ∀ w ∈ ws, IsWord w) :
    (t.usageFrom source true id (pathText ws)).Nodup := by
  induction hn : t.size - id using Nat.strongRecOn generalizing id ws with
  | ind n ih =>
    subst hn
    rw [ht.wellShaped.usageFrom_eq (h.plain id)]
    split
    · rw [List.nodup_append, List.nodup_flatMap]
      refine ⟨by split <;> simp, ⟨fun c hc => ?_, ?_⟩, ?_⟩
      · obtain ⟨⟨k, c⟩, hmem, rfl⟩ := List.mem_map.1 hc
        have hchild := ht.wellShaped.child?_eq_some.2 hmem
        obtain ⟨hlt, hsize⟩ := ht.wellShaped.ordered hmem
        rw [h.usageFrom_child ht hchild hws]
        exact ih (t.size - c) (Nat.sub_lt_sub_left (hlt.trans hsize) hlt) c
          (h.forall_isWord_concat ht hchild hws) rfl
      · -- lines below two children differ in the word after those of the node
        refine (ht.wellShaped.nodup_children id).imp_of_mem fun {c d} hc hd hne line hl hl' => ?_
        obtain ⟨⟨k, c⟩, hmem, rfl⟩ := List.mem_map.1 hc
        obtain ⟨⟨j, d⟩, hmem', rfl⟩ := List.mem_map.1 hd
        have hchild := ht.wellShaped.child?_eq_some.2 hmem
        have hchild' := ht.wellShaped.child?_eq_some.2 hmem'
        obtain ⟨ks, hks, rfl⟩ := h.exists_of_mem_usageFrom ht hchild hws hl
        obtain ⟨js, hjs, heq⟩ := h.exists_of_mem_usageFrom ht hchild' hws hl'
        have hwords := List.append_cancel_left (pathText_inj hks hjs heq)
        obtain rfl : k = j := (List.cons.inj hwords).1
        exact hne (Option.some.inj (hchild.symm.trans hchild'))
      · -- the line of the node itself is shorter than those below it
        intro a ha b hb hab
        obtain ⟨c, hc, hb⟩ := List.mem_flatMap.1 hb
        obtain ⟨⟨k, c⟩, hmem, rfl⟩ := List.mem_map.1 hc
        have hchild := ht.wellShaped.child?_eq_some.2 hmem
        obtain ⟨ks, hks, rfl⟩ := h.exists_of_mem_usageFrom ht hchild hws hb
        have hown : a = pathText ws := by
          split at ha
          · simpa using ha
          · cases ha
        have hwords := pathText_inj hws hks (hown.symm.trans hab)
        simp at hwords
    · exact List.nodup_nil

end Lines

/-! ## Reading -/

section Reading

variable {r : Reader} {hop : Hop σ} {w : ParseResult σ} (ht : t.Reachable) (h : t.OfKeywords)

include ht h

/-- A pick in a tree of keywords is a child whose name is the next word. -/
lemma OfKeywords.pick {p : Pick σ} (hp : p ∈ t.picks id r hop) :
    ∃ k, t.child? id k = some p.node ∧ (t.node p.node).canUse hop.source = true ∧
      r.rest.take p.passed = k.toList := by
  obtain ⟨hcandidate, hcanUse⟩ := mem_usable.1 (mem_picks.1 hp).1
  obtain ⟨⟨k, c⟩, hmem, hc⟩ := List.mem_map.1 (mem_children_of_mem_candidates hcandidate)
  have hchild : t.child? id k = some p.node := by rw [ht.wellShaped.child?_eq_some, ← hc]; exact hmem
  have hpattern := pattern_of_keyword ht.wellShaped hchild (h.child ht hchild).1
  exact ⟨k, hchild, hcanUse, (takes_of_mem_picks ht.wellShaped hp).keyword k hpattern⟩

/-- Reading an input to its end follows a path of keywords, and has come to the handler there. -/
theorem Walk.keywordPath (hwalk : t.Walk id r hop w) (hcomplete : w.reader.rest = [])
    (hhandler : hop.handler = (t.node id).handler) :
    ∃ ks goal, t.KeywordPath hop.source id ks goal ∧ r.rest = (pathText ks).toList ∧
      w.trail.last.handler = (t.node goal).handler := by
  induction hwalk with
  | @stop id r hop p hp hends =>
    obtain ⟨k, hchild, hcanUse, hword⟩ := h.pick ht hp
    refine ⟨[k], p.node, h.keywordPath_cons ht hchild hcanUse .nil, ?_,
      (takes_of_mem_picks ht.wellShaped hp).handler_eq⟩
    have hdrop : r.rest.drop p.passed = [] := hcomplete
    rw [← List.take_append_drop p.passed r.rest, hdrop, hword, List.append_nil]
    rfl
  | @onward id r hop w p hp hmore hplain _ ih =>
    obtain ⟨k, hchild, hcanUse, hword⟩ := h.pick ht hp
    have htakes := takes_of_mem_picks ht.wellShaped hp
    obtain ⟨ks, goal, hpath, hrest, hlast⟩ := ih hcomplete htakes.handler_eq
    rw [htakes.source_eq] at hpath
    have hks : ks ≠ [] := by
      rintro rfl
      have hlength := (goesOn_of_no_target hplain).1 hmore
      have hnil := congrArg List.length hrest
      rw [Reader.rest_advance, List.length_drop] at hnil
      exact Nat.sub_ne_zero_of_lt hlength hnil
    refine ⟨k :: ks, goal, h.keywordPath_cons ht hchild hcanUse hpath, ?_, hlast⟩
    rw [toList_pathText_cons hks, ← hrest, ← hword, Reader.rest_advance, ← htakes.rest_eq hmore,
      List.take_append_drop]
  | jump p _ _ redirects _ _ =>
    rw [Node.target?, h.plain] at redirects
    cases redirects
  | @deadEnd id r hop _ => exact ⟨[], id, .nil, hcomplete, hhandler⟩

end Reading

/-! ## What is accepted -/

lemma KeywordPath.findFrom? (h : t.KeywordPath source id ks goal) : t.findFrom? id ks = some goal := by
  induction h with
  | nil => rfl
  | cons hchild _ _ _ _ _ ih =>
    rw [CommandTree.findFrom?, hchild]
    exact ih

/-- The root has no handler, so a path to one is not empty. -/
lemma KeywordPath.ne_nil (h : t.KeywordPath source rootId ks goal) (ht : t.Reachable)
    (hsome : (t.node goal).handler.isSome = true) : ks ≠ [] := by
  rintro rfl
  cases h
  rw [ht.root_bare.1] at hsome
  cases hsome

lemma mem_allUsage (ht : t.Reachable) (h : t.OfKeywords) {line : String} :
    line ∈ t.allUsage rootId source true ↔ ∃ ks goal, t.KeywordPath source rootId ks goal ∧
      (t.node goal).handler.isSome = true ∧ line = pathText ks := by
  have hcanUse : (t.node rootId).canUse source = true := by rw [Node.canUse, ht.root_bare.2]
  have hnil : ∀ w ∈ ([] : List String), IsWord w := by simp
  have hmem : line ∈ t.allUsage rootId source true ↔ _ := mem_usageFrom ht h source rootId hnil
  simpa only [hcanUse, true_and, List.nil_append] using hmem

/-- Only what was read to its end is run. -/
lemma rest_eq_nil_of_mem_trace {w : ParseResult σ} {i : Invocation σ} (h : i ∈ w.execute.trace) :
    w.reader.rest = [] := by
  cases herror : w.error? with
  | none => exact rest_eq_nil_of_error? herror
  | some e =>
    rw [ParseResult.execute, herror] at h
    cases h

/-- What a handler is called for in a tree of keywords: the words of a path that leads to it. -/
lemma OfKeywords.exists_of_handled (h : t.OfKeywords) (ht : t.Reachable) {input : String} {context : Context σ}
    {o : Except SyntaxError Int32} (hmem : .handled context o ∈ (t.execute input source).trace) :
    ∃ ks goal f, t.KeywordPath source rootId ks goal ∧ input = pathText ks ∧
      (t.node goal).handler = some f ∧ o = f context := by
  obtain ⟨f, hf, ho, -⟩ := ParseResult.handled_of_mem_execute hmem
  obtain ⟨ks, goal, hpath, hwords, hlast⟩ := Walk.keywordPath ht h
    (walk_parseReader t (.ofString input) source) (rest_eq_nil_of_mem_trace hmem) ht.root_bare.1.symm
  exact ⟨ks, goal, f, hpath, String.toList_injective hwords, hlast.symm.trans hf, ho⟩

/-- In a tree of keywords the usage lines for a source are the inputs that call a handler for it, each listed once;
and the handler that is called is that of the node which the words of the input lead to. -/
theorem handles_iff_mem_allUsage (ht : t.Reachable) (h : t.OfKeywords) (input : String) (source : σ) :
    ((∃ c o, .handled c o ∈ (t.execute input source).trace) ↔ input ∈ t.allUsage rootId source true) ∧
      (t.allUsage rootId source true).Nodup ∧
      ∀ c o, .handled c o ∈ (t.execute input source).trace →
        ∃ goal f, t.find? (pieces input) = some goal ∧ (t.node goal).handler = some f ∧ o = f c := by
  have hnil : ∀ w ∈ ([] : List String), IsWord w := by simp
  refine ⟨⟨?_, fun hline => ?_⟩, nodup_usageFrom ht h source rootId hnil, fun c o hmem => ?_⟩
  · rintro ⟨c, o, hmem⟩
    obtain ⟨ks, goal, f, hpath, hinput, hf, -⟩ := h.exists_of_handled ht hmem
    exact (mem_allUsage ht h).2 ⟨ks, goal, hpath, by rw [hf]; rfl, hinput⟩
  · obtain ⟨ks, goal, hpath, hsome, rfl⟩ := (mem_allUsage ht h).1 hline
    obtain ⟨f, hf⟩ := Option.isSome_iff_exists.1 hsome
    obtain ⟨ns, hchain, rfl, hlast⟩ := hpath.exists_keywordChain ht.wellShaped
    have hgoal : ns.getLast? = some goal := by
      have hne : ns ≠ [] := fun hnil => hpath.ne_nil ht hsome (congrArg t.words hnil)
      rwa [List.getLast?_cons_of_ne_nil hne] at hlast
    obtain ⟨reached, -, hexecute⟩ := hchain.execute_eq ht hgoal hf
    exact ⟨_, _, by rw [hexecute]; exact List.mem_singleton_self _⟩
  · obtain ⟨ks, goal, f, hpath, rfl, hf, ho⟩ := h.exists_of_handled ht hmem
    refine ⟨goal, f, ?_, hf, ho⟩
    rw [pieces_pathText (hpath.ne_nil ht (by rw [hf]; rfl)) (h.isWord ht hpath)]
    exact hpath.findFrom?

/-- A door that everybody may open and the warden may lock, once or twice. -/
def door : CommandTree Bool :=
  ⟨#[{ Node.root with children := [("door", 1)] },
    ⟨some (.literal "door"), [("lock", 2), ("open", 4)], some fun _ => .ok 1, none, none⟩,
    ⟨some (.literal "lock"), [("twice", 3)], none, some fun warden => warden, none⟩,
    ⟨some (.literal "twice"), [], some fun _ => .ok 2, none, none⟩,
    ⟨some (.literal "open"), [], some fun _ => .ok 3, none, none⟩]⟩

lemma door_reachable : door.Reachable := by
  let lock : NodeSpec Bool := { NodeSpec.ofPattern (.literal "lock") with
    requirement := some fun warden => warden
    children := [{ NodeSpec.ofPattern (.literal "twice") with handler := some fun _ => .ok 2 }] }
  have hlock := Reachable.register
    (s := { NodeSpec.ofPattern (.literal "door") with children := [lock] }) .empty rfl
  -- the second registration is merged with the first
  exact hlock.register (s := { NodeSpec.ofPattern (.literal "door") with
    handler := some fun _ => .ok 1
    children := [{ NodeSpec.ofPattern (.literal "open") with handler := some fun _ => .ok 3 }] }) rfl

lemma door_ofKeywords : door.OfKeywords := by
  constructor
  · intro id hid hne
    match id, hid with
    | 0, _ => exact absurd rfl hne
    | 1, _ => exact ⟨"door", rfl, by decide⟩
    | 2, _ => exact ⟨"lock", rfl, by decide⟩
    | 3, _ => exact ⟨"twice", rfl, by decide⟩
    | 4, _ => exact ⟨"open", rfl, by decide⟩
  · intro id
    match id with
    | 0 | 1 | 2 | 3 | 4 => rfl
    | id + 5 => rw [node_of_size_le (Nat.le_add_left 5 id)]; rfl

/-- The warden may lock the door twice, and nobody else is told so. -/
theorem handles_iff_mem_allUsage_door :
    door.Reachable ∧ door.OfKeywords ∧
      door.allUsage rootId true true = ["door", "door lock twice", "door open"] ∧
      door.allUsage rootId false true = ["door", "door open"] ∧
      (∃ c o, .handled c o ∈ (door.execute "door lock twice" true).trace) ∧
      ¬ ∃ c o, .handled c o ∈ (door.execute "door lock twice" false).trace := by
  have hwarden : door.allUsage rootId true true = ["door", "door lock twice", "door open"] := by
    decide +kernel
  have hguest : door.allUsage rootId false true = ["door", "door open"] := by decide +kernel
  refine ⟨door_reachable, door_ofKeywords, hwarden, hguest, ?_, ?_⟩
  · rw [(handles_iff_mem_allUsage door_reachable door_ofKeywords "door lock twice" true).1, hwarden]
    decide
  · rw [(handles_iff_mem_allUsage door_reachable door_ofKeywords "door lock twice" false).1, hguest]
    decide

end CommandTree
end CommandEngine
