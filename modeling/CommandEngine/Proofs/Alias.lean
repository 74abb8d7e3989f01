import CommandEngine.Proofs.Grammar.Building
import CommandEngine.Proofs.Inheritance
import CommandEngine.Proofs.Keywords
import CommandEngine.Proofs.Likeness
import Mathlib.Data.List.Infix

/-!
# Aliases

A command whose node does nothing but redirect to another one stands for the keywords that lead there: whatever
follows it is read and run as it would be after those keywords (`Grammar.execute_alias`).  The two runs differ in
shape, since what follows an alias is read by a hop of its own and the alias adds a stage to the chain; but
the stage only hands on the source, and the handlers and rules of a grammar are blind to where in the input
their arguments stand.
-/

namespace CommandEngine

/-! ## Handlers and rules are blind -/

section Blind

variable {σ : Type} {c c' : Context σ}

/-- Arguments of one name in contexts that are alike. -/
lemma Context.Alike.parsed? (h : c.Alike c') (name : String) :
    Option.Rel (fun p p' => p.value = p'.value ∧ p.span.text c.input = p'.span.text c'.input) (c.parsed? name)
      (c'.parsed? name) := by
  have harguments := h.arguments
  unfold Context.parsed?
  generalize c.frame.arguments = l at harguments
  generalize c'.frame.arguments = l' at harguments
  induction harguments with
  | nil => exact .none
  | @cons x y l l' hxy _ ih =>
    obtain ⟨n, p⟩ := x
    obtain ⟨n', p'⟩ := y
    obtain rfl : n = n' := hxy.name
    rw [List.lookup_cons, List.lookup_cons]
    by_cases hname : name = n
    · have htext : p.span.text c.input = p'.span.text c'.input := congrArg String.ofList hxy.text
      simp only [beq_iff_eq.2 hname]
      exact .some ⟨hxy.value, htext⟩
    · simp only [beq_eq_false_iff_ne.2 hname]
      exact ih

lemma Action.blind (a : Action) : Blind (a.handler : Handler σ) := by
  intro c c' h
  cases a with
  | constant n => rfl
  | fail message => rfl
  | argument name =>
    have hparsed := h.parsed? name
    simp only [Action.handler, Context.lookup]
    generalize c.parsed? name = x at hparsed
    generalize c'.parsed? name = y at hparsed
    cases hparsed with
    | none => rfl
    | some hp => simp only [Except.bind, hp.1]

lemma SourceRule.blind (rule : SourceRule) : Blind rule.apply := by
  intro c c' h
  have hsource : c.source = c'.source := h.source
  cases rule with
  | split name =>
    have hparsed := h.parsed? name
    simp only [SourceRule.apply, Context.argument, hsource]
    generalize c.parsed? name = x at hparsed
    generalize c'.parsed? name = y at hparsed
    cases hparsed with
    | none => rfl
    | some hp => simp only [hp.1]
  | rename name =>
    have hparsed := h.parsed? name
    simp only [SourceRule.apply, Context.lookup, hsource]
    generalize c.parsed? name = x at hparsed
    generalize c'.parsed? name = y at hparsed
    cases hparsed with
    | none => rfl
    | some hp => simp only [Except.map, hp.1, hp.2]

end Blind

namespace Grammar

variable {g : Grammar} {t : CommandTree Source} {chars : List Char} {s : Source} {h : Hop Source}

/-- The handler that a hop has come to is that of an action. -/
lemma Describes.blind_handler (hg : g.Describes t) (hlegal : t.LegalHop chars s h) :
    ∀ f ∈ h.handler, Blind f := by
  intro f hf
  rw [hlegal.handler_eq] at hf
  obtain ⟨m, hm, hhandler⟩ := Option.bind_eq_some_iff.1 hf
  obtain ⟨parent, hchild⟩ := exists_parent_of_descends hlegal.descends
    (List.mem_map.2 ⟨m, List.mem_of_getLast? hm, rfl⟩)
  obtain ⟨d, -, hid, -⟩ := hg.exists_opening hchild
  rw [hg.acting d.path_ne_nil hid] at hhandler
  obtain ⟨e, -, he⟩ := Option.bind_eq_some_iff.1 hhandler
  rw [GrammarNode.toSpec_handler] at he
  obtain ⟨a, -, rfl⟩ := Option.map_eq_some_iff.1 he
  exact a.blind

lemma RuleBound.blind (hrules : RuleBound t) (hlegal : t.LegalHop chars s h) :
    ∀ m ∈ h.modifier, Blind m := by
  intro m hm
  rw [hlegal.modifier_eq] at hm
  obtain ⟨last, -, hm⟩ := Option.bind_eq_some_iff.1 hm
  obtain ⟨rule, rfl⟩ := hrules last.node m hm
  exact rule.blind

/-! ## Commands that stand for others -/

/-- A command that does nothing but redirect to a node, which keywords lead to; none of these redirects, and the
source may use the command and all of them. -/
structure Aliases (t : CommandTree Source) (s : Source) (a : String) (path : List String)
    (id goal : NodeId) : Prop where
  child : t.child? rootId a = some id
  literal : (t.node id).isLiteral = true
  redirect : (t.node id).redirect = some ⟨goal, none, false⟩
  proper : goal ≠ rootId
  leads : t.find? path = some goal
  keywords : ∀ q c, q ≠ [] → q <+: path → t.find? q = some c →
    (t.node c).isLiteral = true ∧ (t.node c).redirect = none
  usable : (t.node id).canUse s = true
  usable_path : ∀ q c, q ≠ [] → q <+: path → t.find? q = some c → (t.node c).canUse s = true

/-- Keywords without separators that lead down from a node form a path. -/
lemma keywordPath_of_findFrom (ht : t.WellShaped)
    (hunbroken : ∀ {id k}, (t.node id).pattern = some (.literal k) → separator ∉ k.toList)
    {id goal : NodeId} {path : List String} (hpath : t.findFrom? id path = some goal)
    (hkeywords : ∀ q c, q ≠ [] → q <+: path → t.findFrom? id q = some c →
      (t.node c).isLiteral = true ∧ (t.node c).redirect = none ∧ (t.node c).canUse s = true) :
    t.KeywordPath s id path goal := by
  induction path generalizing id with
  | nil =>
    obtain rfl : id = goal := Option.some.inj hpath
    exact .nil
  | cons k ks ih =>
    obtain ⟨c, hchild, hrest⟩ := Option.bind_eq_some_iff.1 hpath
    have hfirst : t.findFrom? id [k] = some c := by
      rw [CommandTree.findFrom?, hchild]
      rfl
    obtain ⟨hliteral, hredirect, hcanUse⟩ := hkeywords [k] c (List.cons_ne_nil _ _) ⟨ks, rfl⟩ hfirst
    have hpattern := CommandTree.pattern_of_keyword ht hchild hliteral
    refine .cons hchild hliteral (hunbroken hpattern) ?_ hcanUse (ih hrest fun q d hq hprefix hd => ?_)
    · rw [Node.target?, hredirect]
      rfl
    · refine hkeywords (k :: q) d (List.cons_ne_nil _ _) (List.cons_prefix_cons.2 ⟨rfl, hprefix⟩) ?_
      rw [CommandTree.findFrom?, hchild]
      exact hd

/-- The text of a path and more input, word by word. -/
lemma toList_pathText {path : List String} (hpath : path ≠ []) (rest : String) :
    (pathText path ++ " " ++ rest).toList = CommandTree.wordsChars path ++ rest.toList := by
  have hjoin : (pathText path).toList ++ [separator] = CommandTree.wordsChars path := by
    induction path with
    | nil => exact absurd rfl hpath
    | cons k ks ih =>
      cases ks with
      | nil => simp [pathText, Text.join, CommandTree.wordsChars]
      | cons k' ks =>
        have hrest := ih (List.cons_ne_nil _ _)
        rw [CommandTree.wordsChars, List.flatMap_cons]
        rw [CommandTree.wordsChars] at hrest
        rw [← hrest]
        simp [pathText, Text.join]
  have hblank : " ".toList = [separator] := by decide
  rw [String.toList_append, String.toList_append, hblank, hjoin]

section Readings

variable {a : String} {path : List String} {id goal : NodeId} {rest : String}

/-- After an alias reading goes on at the goal, in a new hop. -/
lemma Aliases.parse_alias (halias : Aliases t s a path id goal) (ht : t.WellShaped)
    (hkeyword : ∀ {id k}, (t.node id).pattern = some (.literal k) → k ≠ "" ∧ separator ∉ k.toList)
    (rest : String) :
    ∃ r span, t.parse (a ++ " " ++ rest) s = (t.parseFrom goal r (CommandTree.landing s goal r)).behind
        (t.entered (.start s rootId 0) id span) ∧
      r.rest = rest.toList ∧ r.chars = (a ++ " " ++ rest).toList ∧
      (t.entered (.start s rootId 0) id span).span.isEmpty = false := by
  have hchars : (Reader.ofString (a ++ " " ++ rest)).rest = a.toList ++ separator :: rest.toList := by
    have hblank : " ".toList = [separator] := by decide
    simp [Reader.ofString, hblank]
  have htarget : (t.node id).target? = some goal := by
    rw [Node.target?, halias.redirect]
    rfl
  obtain ⟨hne, hunbroken⟩ := hkeyword (CommandTree.pattern_of_keyword ht halias.child halias.literal)
  refine ⟨(Reader.ofString (a ++ " " ++ rest)).advance (a.toList.length + 1), _,
    CommandTree.parseFrom_of_redirecting ht halias.child halias.literal hunbroken htarget halias.usable hchars,
    CommandTree.rest_advance_word hchars, Reader.chars_advance _ _, CommandTree.isEmpty_entered hne hchars⟩

/-- After the keywords reading goes on at the goal, in the same hop. -/
lemma Aliases.parse_path (halias : Aliases t s a path id goal) (ht : t.WellShaped)
    (hkeyword : ∀ {id k}, (t.node id).pattern = some (.literal k) → k ≠ "" ∧ separator ∉ k.toList)
    (hrest : rest ≠ "") :
    (∃ r hop, t.parse (pathText path ++ " " ++ rest) s = t.parseFrom goal r hop ∧ r.rest = rest.toList ∧
        r.chars = (pathText path ++ " " ++ rest).toList ∧
        CommandTree.Carried (.start s rootId 0) hop) ∧
      (t.parse (pathText path ++ " " ++ rest) s).trail.first.span.isEmpty = false := by
  have hpath : path ≠ [] := by
    rintro rfl
    exact halias.proper (Option.some.inj halias.leads).symm
  have htext : rest.toList ≠ [] := fun hnil => hrest (String.toList_injective hnil)
  have hchars : (Reader.ofString (pathText path ++ " " ++ rest)).rest =
      CommandTree.wordsChars path ++ rest.toList := toList_pathText hpath rest
  have hkeywords : t.KeywordPath s rootId path goal :=
    keywordPath_of_findFrom ht (fun h => (hkeyword h).2) halias.leads fun q c hq hprefix hc =>
      ⟨(halias.keywords q c hq hprefix hc).1, (halias.keywords q c hq hprefix hc).2,
        halias.usable_path q c hq hprefix hc⟩
  refine ⟨hkeywords.parseFrom_eq ht rfl htext hchars, ?_⟩
  -- the first keyword is not empty, and the first hop covers it
  cases hkeywords with
  | nil => exact absurd rfl hpath
  | @cons _ c _ k ks hchild hliteral hunbroken hplain hcanUse _ =>
    have hword := hchars.trans (CommandTree.wordsChars_cons k ks rest.toList)
    have hstep : t.parse (pathText (k :: ks) ++ " " ++ rest) s = _ :=
      CommandTree.parseFrom_of_keyword ht hchild hliteral hunbroken hplain hcanUse (by simp [htext]) hword
    have hne := (hkeyword (CommandTree.pattern_of_keyword ht hchild hliteral)).1
    rw [hstep]
    exact (t.walk_parseFrom ..).isEmpty_first ht (CommandTree.isEmpty_entered hne hword)

end Readings

/-- What follows an alias is run as it would be after the keywords that the alias stands for: the run comes to the
same number or fails for the same reason, and an observer is told the same, in the same order. -/
theorem execute_alias {text : String} (hload : loadTree text = .ok t) {a : String} {path : List String}
    {id goal : NodeId} (halias : Aliases t s a path id goal) {rest : String} (hrest : rest ≠ "") :
    (t.execute (a ++ " " ++ rest) s).outcome.mapError SyntaxError.reason =
        (t.execute (pathText path ++ " " ++ rest) s).outcome.mapError SyntaxError.reason ∧
      (t.execute (a ++ " " ++ rest) s).notices.map Notice.entry =
        (t.execute (pathText path ++ " " ++ rest) s).notices.map Notice.entry := by
  obtain ⟨g, -, hbuild⟩ := loadTree_eq_ok.1 hload
  have hdescribes := build_describes hbuild
  have ht := hdescribes.shaped
  have hkeyword : ∀ {id k}, (t.node id).pattern = some (.literal k) → k ≠ "" ∧ separator ∉ k.toList :=
    keyword_of_loadTree hload
  obtain ⟨r, span, hparse, hr, hrchars, hspan⟩ := halias.parse_alias ht hkeyword rest
  obtain ⟨⟨r', hop, hparse', hr', hrchars', hcarried⟩, hempty⟩ := halias.parse_path ht hkeyword hrest
  -- the places that the two readings go on from are alike
  have hplaces : CommandTree.Place.Alike (a ++ " " ++ rest).toList (pathText path ++ " " ++ rest).toList
      ⟨goal, r, CommandTree.landing s goal r⟩ ⟨goal, r', hop⟩ := by
    refine ⟨rfl, hrchars, hrchars', hr.trans hr'.symm, ⟨⟨hcarried.source.symm, ?_, ?_⟩, ?_⟩, fun hnil => ?_⟩
    · rw [hcarried.arguments]
      exact .nil
    · exact (hcarried.forks rfl).symm
    · exact (hcarried.modifier rfl).symm
    · have hnil : rest.toList = [] := hr.symm.trans hnil
      exact absurd (String.toList_injective hnil) hrest
  have halike : (t.parseFrom goal r (CommandTree.landing s goal r)).Alike (a ++ " " ++ rest).toList
      (pathText path ++ " " ++ rest).toList (t.parse (pathText path ++ " " ++ rest) s) := by
    rw [hparse']
    exact hplaces.outcome
  have hlegal := (CommandTree.legal_parseReader ht (.ofString (pathText path ++ " " ++ rest)) s).1.hops
  have hlast := hlegal _ (Trail.last_mem_hops _)
  have hmodifier : (t.entered (.start s rootId 0) id span).modifier = none := by
    show (t.node id).modifier? = none
    rw [Node.modifier?, halias.redirect]
    rfl
  have hforks : (t.entered (.start s rootId 0) id span).forks = false := by
    show (t.node id).forks = false
    rw [Node.forks, halias.redirect]
    rfl
  have hsource := (hlegal _ (List.mem_cons_self ..)).source_eq
  rw [Run.map_entry_notices, Run.map_entry_notices, CommandTree.execute, CommandTree.execute, hparse]
  exact halike.execute_behind hmodifier hforks hsource.symm (hspan.trans hempty.symm)
    (hdescribes.blind_handler hlast) fun h hh => (ruleBound_of_build hbuild).blind (hlegal h hh)

/-- Whether a command of a document stands for a path of keywords. -/
def standsFor (text : String) (s : Source) (a : String) (path : List String) : Bool :=
  match loadTree text with
  | .error _ => false
  | .ok t =>
    match t.child? rootId a with
    | none => false
    | some id =>
      match (t.node id).redirect with
      | some ⟨goal, none, false⟩ =>
        (t.node id).isLiteral && (t.node id).canUse s && decide (goal ≠ rootId ∧ t.find? path = some goal) &&
          path.inits.all fun q => q.isEmpty || (t.find? q).all fun c =>
            (t.node c).isLiteral && (t.node c).redirect.isNone && (t.node c).canUse s
      | _ => false

lemma exists_of_standsFor {text : String} {a : String} {path : List String}
    (h : standsFor text s a path = true) :
    ∃ t id goal, loadTree text = .ok t ∧ Aliases t s a path id goal := by
  unfold standsFor at h
  split at h
  · cases h
  · next t hload =>
    split at h
    · cases h
    · next id hchild =>
      split at h
      · next goal hredirect =>
        simp only [Bool.and_eq_true, decide_eq_true_eq, List.all_eq_true, List.mem_inits] at h
        obtain ⟨⟨⟨hliteral, hcanUse⟩, hproper, hleads⟩, hall⟩ := h
        have hway : ∀ q c, q ≠ [] → q <+: path → t.find? q = some c →
            ((t.node c).isLiteral = true ∧ (t.node c).redirect = none) ∧ (t.node c).canUse s = true := by
          intro q c hq hprefix hc
          simpa [hq, hc] using hall q hprefix
        exact ⟨t, id, goal, hload, hchild, hliteral, hredirect, hproper, hleads,
          fun q c hq hprefix hc => (hway q c hq hprefix hc).1, hcanUse,
          fun q c hq hprefix hc => (hway q c hq hprefix hc).2⟩
      · cases h

/-- A command that lends an amount, and another name for it. -/
def lending : String :=
  (Grammar.toJson ⟨"1.0.0", [
    { keyword "bank" with children := [{ keyword "lend" with children :=
      [⟨.argument "amount" (.integer ⟨some 1, none⟩), [], some (.argument "amount"), none, none, false, none, []⟩] }] },
    { keyword "lend" with redirect := some ["bank", "lend"] }]⟩).compact

lemma standsFor_lending : standsFor lending (.named "console") "lend" ["bank", "lend"] = true := by
  decide +kernel

/-- A loan, and one that is refused for its amount. -/
theorem execute_alias_lending :
    ∃ t id goal, loadTree lending = .ok t ∧ Aliases t (.named "console") "lend" ["bank", "lend"] id goal ∧
      ∀ rest ∈ ["5", "0 5"],
        (t.execute ("lend" ++ " " ++ rest) (.named "console")).outcome.mapError SyntaxError.reason =
            (t.execute (pathText ["bank", "lend"] ++ " " ++ rest) (.named "console")).outcome.mapError
              SyntaxError.reason ∧
          (t.execute ("lend" ++ " " ++ rest) (.named "console")).notices.map Notice.entry =
            (t.execute (pathText ["bank", "lend"] ++ " " ++ rest) (.named "console")).notices.map
              Notice.entry := by
  obtain ⟨t, id, goal, hload, halias⟩ := exists_of_standsFor standsFor_lending
  have hne : ∀ rest ∈ ["5", "0 5"], rest ≠ "" := by decide
  exact ⟨t, id, goal, hload, halias, fun rest hrest => execute_alias hload halias (hne rest hrest)⟩

end Grammar
end CommandEngine
