import CommandEngine.Proofs.Alias
import CommandEngine.Proofs.Tree.Exclusion

/-!
# Redirects to redirects

After a node that redirects, reading goes on among the children of its target.  In the tree of a grammar a node
that redirects has no children, so where the target redirects in its turn there is nothing to go on with: its
redirect belongs to the text after its own keyword and is not followed.  An alias of an alias therefore does not
stand for what the alias stands for (`Grammar.not_composes`).  Whatever follows it is refused, right after the
separator and before anything is run (`Grammar.execute_relay`).
-/

namespace CommandEngine

/-! ## Where nothing can be tried -/

namespace CommandTree

variable {σ : Type} {t : CommandTree σ} {id c : NodeId} {r : Reader} {hop : Hop σ} {k : String}

/-- Where no candidate may be used, reading stops without an error of a candidate. -/
lemma parseFrom_of_usable_nil (h : t.usable id r.rest hop.source = []) :
    t.parseFrom id r hop = ⟨.single hop, r, []⟩ := by
  have hpicks : t.picks id r hop = [] := by rw [picks, h, List.filterMap_nil]
  have hrefusals : t.refusals id r hop = [] := by rw [refusals, h, List.filterMap_nil]
  have hnot : ∀ p ∈ t.picks id r hop, ¬ t.jumps r p := by simp [hpicks]
  rw [parseFrom_of_not_jump hnot, hpicks, impasse, hrefusals]
  rfl

lemma parseFrom_of_children_nil (h : (t.node id).children = []) :
    t.parseFrom id r hop = ⟨.single hop, r, []⟩ := by
  refine parseFrom_of_usable_nil ?_
  simp [usable, candidates, literals, arguments, h]

/-- Reading stops at a keyword that the source may not use, whatever else there is to try. -/
lemma parseFrom_of_barred (ht : t.WellShaped) (hchild : t.child? id k = some c)
    (hliteral : (t.node c).isLiteral = true) (hbarred : ¬ (t.node c).canUse hop.source = true)
    (htoken : k.toList = r.rest.takeWhile (· ≠ separator)) :
    t.parseFrom id r hop = ⟨.single hop, r, []⟩ := by
  refine parseFrom_of_usable_nil ?_
  rw [usable, candidates_of_keyword ht hchild hliteral htoken]
  simp [hbarred]

/-- In a tree where redirects and children exclude each other, a node with a child does not redirect. -/
lemma Exclusive.target?_eq_none (h : t.Exclusive) (ht : t.WellShaped) (hchild : t.child? id k = some c) :
    (t.node id).target? = none := by
  cases hredirect : (t.node id).redirect with
  | none => rw [Node.target?, hredirect, Option.map_none]
  | some _ =>
    have hnil := h id (by rw [hredirect]; rfl)
    have hmem := ht.child?_eq_some.1 hchild
    rw [hnil] at hmem
    cases hmem

end CommandTree

namespace Grammar

variable {g : Grammar} {t t' : CommandTree Source} {s : Source}

/-! ## Nodes that redirect have no children -/

lemma exclusive_resolveAll {l : List PendingRedirect} (h : t.Exclusive) (ht : t.WellShaped)
    (hl : resolveAll t l = .ok t') : t'.Exclusive := by
  induction l generalizing t with
  | nil =>
    cases hl
    exact h
  | cons p rest ih =>
    rw [resolveAll] at hl
    obtain ⟨u, hp, hrest⟩ := bind_eq_ok.1 hl
    obtain ⟨i, target, hi, -, hset⟩ := PendingRedirect.resolve_eq_ok hp
    have hexclusive := (CommandTree.exclusive_setRedirect_iff (ht.lt_of_find? hi) hset).2 h
    exact ih hexclusive (ht.of_sameShape (PendingRedirect.attached_resolve ht hp).same) hrest

/-- Commands are registered without redirects, and a redirect is attached to nodes without children only. -/
theorem exclusive_of_build (h : g.build = .ok t) : t.Exclusive := by
  unfold build at h
  obtain ⟨u, hu, hrest⟩ := bind_eq_ok.1 h
  have hnone : u.Exclusive := by
    intro id hsome
    rw [redirect_registerAll hu] at hsome
    cases hsome
  exact exclusive_resolveAll hnone (extends_registerAll CommandTree.wellShaped_empty hu).shaped hrest

/-! ## An alias of an alias -/

/-- Keywords that lead down from a node to one that redirects to a node that redirects. -/
structure Relays (t : CommandTree Source) (id : NodeId) (path : List String) (b a : NodeId) : Prop where
  leads : t.findFrom? id path = some b
  keywords : ∀ q c, q ≠ [] → q <+: path → t.findFrom? id q = some c → (t.node c).isLiteral = true
  forward : (t.node b).target? = some a
  again : (t.node a).redirect.isSome = true

/-- The source may use every node on the way down from a node. -/
def MayFollow (t : CommandTree Source) (s : Source) (id : NodeId) (path : List String) : Prop :=
  ∀ q c, q ≠ [] → q <+: path → t.findFrom? id q = some c → (t.node c).canUse s = true

section Relay

variable {id b a c : NodeId} {k : String} {ks path : List String}

lemma findFrom?_cons (hchild : t.child? id k = some c) (q : List String) :
    t.findFrom? id (k :: q) = t.findFrom? c q := by
  rw [CommandTree.findFrom?, hchild, Option.bind_some]

lemma Relays.first (h : Relays t id (k :: ks) b a) (hchild : t.child? id k = some c) :
    (t.node c).isLiteral = true :=
  h.keywords [k] c (List.cons_ne_nil _ _) ⟨ks, rfl⟩ (findFrom?_cons hchild [])

lemma Relays.below (h : Relays t id (k :: ks) b a) (hchild : t.child? id k = some c) : Relays t c ks b a := by
  refine ⟨(findFrom?_cons hchild ks).symm.trans h.leads, fun q d _ hbegins hd => ?_, h.forward, h.again⟩
  exact h.keywords (k :: q) d (List.cons_ne_nil _ _) (List.cons_prefix_cons.2 ⟨rfl, hbegins⟩)
    ((findFrom?_cons hchild q).trans hd)

lemma MayFollow.first (h : MayFollow t s id (k :: ks)) (hchild : t.child? id k = some c) :
    (t.node c).canUse s = true :=
  h [k] c (List.cons_ne_nil _ _) ⟨ks, rfl⟩ (findFrom?_cons hchild [])

lemma MayFollow.below (h : MayFollow t s id (k :: ks)) (hchild : t.child? id k = some c) :
    MayFollow t s c ks := by
  intro q d _ hbegins hd
  exact h (k :: q) d (List.cons_ne_nil _ _) (List.cons_prefix_cons.2 ⟨rfl, hbegins⟩)
    ((findFrom?_cons hchild q).trans hd)

/-- Reading along keywords that end in an alias of an alias stops where no candidate was tried: at the first
keyword that the source may not use, or else behind all of them. -/
lemma Relays.parseFrom (h : Relays t id path b a) (hpath : path ≠ []) (ht : t.WellShaped)
    (hexclusive : t.Exclusive)
    (hkeyword : ∀ {id k}, (t.node id).pattern = some (.literal k) → k ≠ "" ∧ separator ∉ k.toList)
    {r : Reader} (hop : Hop Source) {text : List Char} (htext : text ≠ [])
    (hrest : r.rest = CommandTree.wordsChars path ++ text) :
    (t.parseFrom id r hop).failures = [] ∧ (t.parseFrom id r hop).reader.rest ≠ [] ∧
      (MayFollow t hop.source id path →
        (t.parseFrom id r hop).reader.rest = text ∧
          (t.parseFrom id r hop).trail.first.span.isEmpty = false) := by
  induction path generalizing id r hop with
  | nil => exact absurd rfl hpath
  | cons k ks ih =>
    obtain ⟨c, hchild, hbelow⟩ := Option.bind_eq_some_iff.1 h.leads
    have hliteral := h.first hchild
    have hword := hrest.trans (CommandTree.wordsChars_cons k ks text)
    obtain ⟨hne, hunbroken⟩ := hkeyword (CommandTree.pattern_of_keyword ht hchild hliteral)
    by_cases hcanUse : (t.node c).canUse hop.source = true
    · cases ks with
      | nil =>
        -- the last keyword is the alias, whose target has no children
        obtain rfl : c = b := Option.some.inj hbelow
        rw [CommandTree.parseFrom_of_redirecting ht hchild hliteral hunbroken h.forward hcanUse hword,
          CommandTree.parseFrom_of_children_nil (hexclusive a h.again)]
        have hafter : (r.advance (k.toList.length + 1)).rest = text := CommandTree.rest_advance_word hword
        exact ⟨rfl, fun hnil => htext (hafter.symm.trans hnil), fun _ =>
          ⟨hafter, CommandTree.isEmpty_entered hne hword⟩⟩
      | cons k' ks =>
        obtain ⟨d, hd, -⟩ := Option.bind_eq_some_iff.1 hbelow
        have hplain := hexclusive.target?_eq_none ht hd
        rw [CommandTree.parseFrom_of_keyword ht hchild hliteral hunbroken hplain hcanUse (by simp [htext]) hword]
        obtain ⟨hfailures, hleft, hall⟩ := ih (h.below hchild) (List.cons_ne_nil _ _) _
          (CommandTree.rest_advance_word hword)
        refine ⟨hfailures, hleft, fun hfollow => ⟨(hall (hfollow.below hchild)).1, ?_⟩⟩
        exact (t.walk_parseFrom ..).isEmpty_first ht (CommandTree.isEmpty_entered hne hword)
    · have htoken : k.toList = r.rest.takeWhile (· ≠ separator) := by
        rw [hword, CommandTree.takeWhile_token hunbroken rfl]
      rw [CommandTree.parseFrom_of_barred ht hchild hliteral hcanUse htoken]
      exact ⟨rfl, by simp [hword], fun hfollow => absurd (hfollow.first hchild) hcanUse⟩

end Relay

/-- A reading that leaves something where no candidate was tried is refused before anything is run. -/
lemma execute_of_failures_nil {w : ParseResult Source} (h : w.failures = []) (hrest : w.reader.rest ≠ []) :
    w.execute = ⟨.error (w.reader.error
      (if w.trail.first.span.isEmpty then .unknownCommand else .unknownArgument)), []⟩ := by
  have hcomplete : w.isComplete = false := by simp [ParseResult.isComplete, Reader.canRead, hrest]
  rw [ParseResult.execute, ParseResult.error?, hcomplete, h]
  rfl

lemma width_pathText {path : List String} (hpath : path ≠ []) :
    Text.width (CommandTree.wordsChars path) = Text.width (pathText path).toList + 1 := by
  have hwords := toList_pathText hpath ""
  have hblank : " ".toList = [separator] := by decide
  rw [String.toList_append, String.toList_append, hblank] at hwords
  have hwidth := congrArg Text.width hwords
  simp only [Text.width_append] at hwidth
  exact hwidth.symm

section Execute

variable {text : String} {path : List String} {b a : NodeId} {rest : String}

lemma Relays.path_ne_nil (h : Relays t rootId path b a) (hg : g.Describes t) : path ≠ [] := by
  rintro rfl
  -- redirects are declared, and nothing is declared at the root
  obtain ⟨d, -, -, -, hd, -⟩ := hg.leads h.forward
  exact d.path_ne_nil (hg.shaped.find?_inj hd h.leads)

/-- The keywords with more input behind them are read up to a place where no candidate is tried. -/
lemma Relays.parse (h : Relays t rootId path b a) (hload : loadTree text = .ok t) (hrest : rest ≠ "")
    (s : Source) :
    (t.parse (pathText path ++ " " ++ rest) s).failures = [] ∧
      (t.parse (pathText path ++ " " ++ rest) s).reader.rest ≠ [] ∧
      (MayFollow t s rootId path →
        (t.parse (pathText path ++ " " ++ rest) s).reader.rest = rest.toList ∧
          (t.parse (pathText path ++ " " ++ rest) s).trail.first.span.isEmpty = false) := by
  obtain ⟨g, -, hbuild⟩ := loadTree_eq_ok.1 hload
  have hdescribes := build_describes hbuild
  have htext : rest.toList ≠ [] := fun hnil => hrest (String.toList_injective hnil)
  have hpath := h.path_ne_nil hdescribes
  exact h.parseFrom hpath hdescribes.shaped (exclusive_of_build hbuild) (keyword_of_loadTree hload)
    (.start s rootId 0) htext (toList_pathText hpath rest)

/-- What follows an alias of an alias is never run, whatever it is and whoever types it.  A source that may use
all keywords on the way is told that the text after the separator is not an argument. -/
theorem execute_relay (hload : loadTree text = .ok t) (h : Relays t rootId path b a) (hrest : rest ≠ "")
    (s : Source) :
    (∃ e, t.execute (pathText path ++ " " ++ rest) s = ⟨.error e, []⟩) ∧
      (MayFollow t s rootId path →
        t.execute (pathText path ++ " " ++ rest) s =
          ⟨.error (.located .unknownArgument (pathText path ++ " " ++ rest)
            (Text.width (pathText path).toList + 1)), []⟩) := by
  obtain ⟨g, -, hbuild⟩ := loadTree_eq_ok.1 hload
  have hdescribes := build_describes hbuild
  have hpath := h.path_ne_nil hdescribes
  have hchars : (Reader.ofString (pathText path ++ " " ++ rest)).chars =
      CommandTree.wordsChars path ++ rest.toList := toList_pathText hpath rest
  obtain ⟨hfailures, hleft, hall⟩ := h.parse hload hrest s
  have hexecute := execute_of_failures_nil hfailures hleft
  refine ⟨⟨_, hexecute⟩, fun hfollow => hexecute.trans ?_⟩
  obtain ⟨hafter, hspan⟩ := hall hfollow
  -- what is left decides on where reading has stopped
  have hreader : (t.parse (pathText path ++ " " ++ rest) s).reader.chars = _ :=
    (CommandTree.legal_parseReader hdescribes.shaped (.ofString (pathText path ++ " " ++ rest)) s).2.chars_eq
  have hpast : (t.parse (pathText path ++ " " ++ rest) s).reader.past = CommandTree.wordsChars path := by
    rw [hchars, Reader.chars, hafter] at hreader
    exact List.append_cancel_right hreader
  have hinput : (t.parse (pathText path ++ " " ++ rest) s).reader.input = pathText path ++ " " ++ rest := by
    rw [Reader.input, hreader]
    exact String.ofList_toList
  rw [hspan, Reader.error, hinput, Reader.cursor, hpast, width_pathText hpath]
  rfl

end Execute

/-! ## Redirects do not compose -/

/-- What follows one alias is run as after another one that it redirects to, if that comes to a number. -/
def Composes (text : String) (s : Source) (path path' : List String) (rest : String) : Prop :=
  ∀ t b a goal n, loadTree text = .ok t → t.find? path = some b → t.find? path' = some a →
    (t.node b).isLiteral = true → (t.node a).isLiteral = true →
    (t.node b).redirect = some ⟨a, none, false⟩ → (t.node a).redirect = some ⟨goal, none, false⟩ →
    (t.node b).canUse s = true → (t.node a).canUse s = true → rest ≠ "" →
    (t.execute (pathText path' ++ " " ++ rest) s).outcome = .ok n →
    (t.execute (pathText path ++ " " ++ rest) s).outcome = .ok n

/-- A command `name` of the tree is an alias of the command `name'`, and that one of another node; the source may
use both, and what follows the second of them comes to a number. -/
structure Chains (t : CommandTree Source) (s : Source) (name name' rest : String) (b a goal : NodeId)
    (n : Int32) : Prop where
  child : t.child? rootId name = some b
  child' : t.child? rootId name' = some a
  literal : (t.node b).isLiteral = true
  literal' : (t.node a).isLiteral = true
  redirect : (t.node b).redirect = some ⟨a, none, false⟩
  redirect' : (t.node a).redirect = some ⟨goal, none, false⟩
  usable : (t.node b).canUse s = true
  usable' : (t.node a).canUse s = true
  runs : (t.execute (pathText [name'] ++ " " ++ rest) s).outcome = .ok n

section Chained

variable {name name' rest : String} {b a goal : NodeId} {n : Int32}

lemma Chains.only (h : Chains t s name name' rest b a goal n) {q : List String} {c : NodeId} (hq : q ≠ [])
    (hbegins : q <+: [name]) (hc : t.findFrom? rootId q = some c) : c = b := by
  rcases List.prefix_cons_iff.1 hbegins with rfl | ⟨q', rfl, hq'⟩
  · exact absurd rfl hq
  · rw [List.prefix_nil.1 hq', findFrom?_cons h.child] at hc
    exact (Option.some.inj hc).symm

lemma Chains.relays (h : Chains t s name name' rest b a goal n) : Relays t rootId [name] b a := by
  refine ⟨findFrom?_cons h.child [], fun q c hq hbegins hc => h.only hq hbegins hc ▸ h.literal, ?_, ?_⟩
  · rw [Node.target?, h.redirect]
    rfl
  · rw [h.redirect']
    rfl

lemma Chains.mayFollow (h : Chains t s name name' rest b a goal n) : MayFollow t s rootId [name] :=
  fun _ _ hq hbegins hc => h.only hq hbegins hc ▸ h.usable

/-- Whether commands of a document are chained, and with what number. -/
def chain? (text : String) (s : Source) (name name' rest : String) : Option Int32 :=
  match loadTree text with
  | .error _ => none
  | .ok t =>
    match t.child? rootId name, t.child? rootId name' with
    | some b, some a =>
      match (t.node b).redirect, (t.node a).redirect, (t.execute (pathText [name'] ++ " " ++ rest) s).outcome with
      | some ⟨target, none, false⟩, some ⟨_, none, false⟩, .ok n =>
        if target = a ∧ (t.node b).isLiteral ∧ (t.node a).isLiteral ∧ (t.node b).canUse s ∧
          (t.node a).canUse s then some n else none
      | _, _, _ => none
    | _, _ => none

lemma exists_of_chain? {text : String} (h : chain? text s name name' rest = some n) :
    ∃ t b a goal, loadTree text = .ok t ∧ Chains t s name name' rest b a goal n := by
  unfold chain? at h
  split at h
  · cases h
  · next t hload =>
    split at h
    · next b a hb ha =>
      split at h
      · next target goal _ hredirect hredirect' hruns =>
        split at h
        · next hchecks =>
          obtain ⟨rfl, hliteral, hliteral', hcanUse, hcanUse'⟩ := hchecks
          cases h
          exact ⟨t, b, target, goal, hload, hb, ha, hliteral, hliteral', hredirect, hredirect', hcanUse,
            hcanUse', hruns⟩
        · cases h
      · cases h
    · cases h

end Chained

/-- A command, an alias of it and an alias of that. -/
def chained : String :=
  (Grammar.toJson ⟨"1.0.0", [
    { keyword "give" with children := [{ keyword "now" with executes := some (.constant 1) }] },
    { keyword "alias" with redirect := some ["give"] },
    { keyword "again" with redirect := some ["alias"] }]⟩).compact

lemma chain?_chained : chain? chained (.named "console") "again" "alias" "now" = some 1 := by
  decide +kernel

/-- The alias of the alias is refused where the alias goes on. -/
theorem execute_relay_chained :
    ∃ t b a, loadTree chained = .ok t ∧ Relays t rootId ["again"] b a ∧
      t.execute (pathText ["again"] ++ " " ++ "now") (.named "console") =
        ⟨.error (.located .unknownArgument (pathText ["again"] ++ " " ++ "now")
          (Text.width (pathText ["again"]).toList + 1)), []⟩ := by
  obtain ⟨t, b, a, goal, hload, hchain⟩ := exists_of_chain? chain?_chained
  exact ⟨t, b, a, hload, hchain.relays,
    (execute_relay hload hchain.relays (by decide) (.named "console")).2 hchain.mayFollow⟩

/-- An alias of an alias does not stand for what the alias stands for. -/
theorem not_composes : ¬ Composes chained (.named "console") ["again"] ["alias"] "now" := by
  intro hcomposes
  obtain ⟨t, b, a, goal, hload, hchain⟩ := exists_of_chain? chain?_chained
  have hok := hcomposes t b a goal 1 hload (findFrom?_cons hchain.child []) (findFrom?_cons hchain.child' [])
    hchain.literal hchain.literal' hchain.redirect hchain.redirect' hchain.usable hchain.usable' (by decide)
    hchain.runs
  obtain ⟨hfailures, hleft, -⟩ := hchain.relays.parse hload (by decide : "now" ≠ "") (.named "console")
  rw [CommandTree.execute, execute_of_failures_nil hfailures hleft] at hok
  cases hok

end Grammar
end CommandEngine
