import CommandEngine.Proofs.Completion.Cut
import CommandEngine.Proofs.Completion.Placement
import CommandEngine.Proofs.Keywords

/-!
# What completion offers is read

A keyword that is offered at the end of an input is read once it is put in place
(`CommandTree.parse_applied`): reading comes to the anchor again, finds the keyword there and ends with it.

Putting a suggestion in place changes the input from the anchor on.  What lies before the anchor consists of tokens
with a separator after each of them, so they are settled and reading takes them whatever comes after the last of
these separators.  `CommandTree.ResumesAt` says this of a part of an input, and
`CommandTree.Walk.resumable` finds the anchor of a walk to be such a place.

That tokens are settled is a condition on the types of arguments, which the built-in ones meet.  It cannot be left
out: a type may take as much of the rest as it likes, and then takes the keyword with it
(`CommandTree.not_readsOffers`).
-/

namespace CommandEngine

variable {σ : Type}

/-! ## Reading on at an anchor -/

/-- Two readings end alike: at the same place and with the same innermost hop. -/
def ParseResult.EndsAs (w w' : ParseResult σ) : Prop :=
  w.reader = w'.reader ∧ w.trail.last = w'.trail.last

/-- The place behind a token and its separator. -/
lemma Reader.advance_token (past token y : List Char) :
    (⟨past, token ++ separator :: y⟩ : Reader).advance (token.length + 1) =
      ⟨past ++ (token ++ [separator]), y⟩ := by
  have htoken : token ++ separator :: y = (token ++ [separator]) ++ y := by simp
  have hlength : (token ++ [separator]).length = token.length + 1 := by simp
  rw [htoken, ← hlength, Reader.advance_append]

namespace CommandTree

variable {t : CommandTree σ} {id goal : NodeId} {past before token : List Char} {r : Reader} {hop : Hop σ}
  {w : ParseResult σ}

/-- Whatever comes after a text, reading takes the text and goes on with the rest at one node. -/
def ResumesAt (t : CommandTree σ) (id : NodeId) (past before : List Char) (hop : Hop σ) (goal : NodeId) :
    Prop :=
  ∃ hop' : Hop σ, hop'.source = hop.source ∧ ∀ y, y ≠ [] →
    (t.parseFrom id ⟨past, before ++ y⟩ hop).EndsAs (t.parseFrom goal ⟨past ++ before, y⟩ hop')

lemma ResumesAt.refl (t : CommandTree σ) (id : NodeId) (past : List Char) (hop : Hop σ) :
    t.ResumesAt id past [] hop id := by
  refine ⟨hop, rfl, fun y _ => ?_⟩
  rw [List.nil_append, List.append_nil]
  exact ⟨rfl, rfl⟩

/-- The hop in which reading goes on behind a token: the same one, unless the node redirects. -/
def goingOn (t : CommandTree σ) (hop : Hop σ) (p : Pick σ) (next : Reader) : Hop σ :=
  match (t.node p.node).target? with
  | none => p.hop
  | some target => landing hop.source target next

/-- A settled token is taken, and reading goes on behind it. -/
lemma ResumesAt.of_settled {p : Pick σ} {x : List Char} (hpassed : p.passed = token.length)
    (hsource : p.hop.source = hop.source)
    (hsole : ∀ y, t.picks id ⟨past, token ++ separator :: y⟩ hop = [p])
    (hnext : t.ResumesAt ((t.node p.node).target?.getD p.node) (past ++ (token ++ [separator])) before
      (t.goingOn hop p ⟨past ++ (token ++ [separator]), x⟩) goal) :
    t.ResumesAt id past (token ++ separator :: before) hop goal := by
  have hsplit : ∀ y, (token ++ separator :: before) ++ y = token ++ separator :: (before ++ y) := by simp
  have hpast : past ++ (token ++ separator :: before) = (past ++ (token ++ [separator])) ++ before := by simp
  have hlength : ∀ y : List Char, y ≠ [] →
      p.passed + 1 < (⟨past, token ++ separator :: (before ++ y)⟩ : Reader).rest.length := by
    intro y hy
    have hpos := List.length_pos_iff.2 hy
    simp only [List.length_append, List.length_cons]
    omega
  obtain ⟨hop', hsource', hends⟩ := hnext
  cases htarget : (t.node p.node).target? with
  | none =>
    simp only [goingOn, htarget, Option.getD_none] at hsource' hends
    refine ⟨hop', hsource'.trans hsource, fun y hy => ?_⟩
    have hmore := (goesOn_of_no_target htarget).2 (hlength y hy)
    rw [hsplit, hpast, parseFrom_of_sole_onward (hsole _) hmore htarget, hpassed, Reader.advance_token]
    exact hends y hy
  | some target =>
    simp only [goingOn, htarget, Option.getD_some] at hsource' hends
    refine ⟨hop', hsource', fun y hy => ?_⟩
    have hmore := (goesOn_of_target htarget).2 (Nat.lt_of_succ_lt (hlength y hy))
    rw [hsplit, hpast, parseFrom_of_sole_jump (hsole _) hmore htarget, hpassed, Reader.advance_token]
    obtain ⟨hreader, hlast⟩ := hends y hy
    exact ⟨hreader, (Trail.last_cons p.hop _).trans hlast⟩

/-- A pick before the end of the input is a token in front of a separator, and the only pick whatever follows. -/
lemma exists_settled (ht : t.WellShaped) (hsettling : t.Settling) (hlone : t.LoneArguments) {p : Pick σ}
    (hp : p ∈ t.picks id r hop) (hpassed : p.passed < r.rest.length) :
    ∃ token x, r = ⟨r.past, token ++ separator :: x⟩ ∧ p.passed = token.length ∧
      ∀ y, t.picks id ⟨r.past, token ++ separator :: y⟩ hop = [p] := by
  have hends := (takes_of_mem_picks ht hp).ends
  rw [← List.append_nil r.rest] at hends
  obtain ⟨token, x, hrest, hlength⟩ := exists_token_of_endsToken hpassed hends
  have hr : r = ⟨r.past, token ++ separator :: x⟩ := by rw [← hrest]
  refine ⟨token, x, hr, hlength.symm, fun y => hlone.picks_eq ?_⟩
  rw [hr] at hp
  exact mem_picks_of_settled hsettling hp hlength.symm y

/-- A walk has matched the nodes `l` since a place, and they lead to an anchor that reading comes to again, whatever
is put in the place of what was typed there. -/
def Resumable (t : CommandTree σ) (id : NodeId) (r : Reader) (hop : Hop σ) (l : List MatchedNode) : Prop :=
  ∃ before typed goal, r.rest = before ++ typed ∧
    Anchor.upTo r.totalWidth ⟨id, r.cursor⟩ (l.map t.anchorAfter) = ⟨goal, r.cursor + Text.width before⟩ ∧
    t.ResumesAt id r.past before hop goal

/-- Where nothing was matched before the end of the input, reading comes to the place it started from. -/
lemma Resumable.of_past {l : List MatchedNode} (hpast : ∀ m ∈ l.head?, r.totalWidth ≤ m.span.stop) :
    t.Resumable id r hop l :=
  ⟨[], r.rest, id, rfl, upTo_of_past hpast _, .refl t id r.past hop⟩

/-- A settled token in front of what was matched. -/
lemma Resumable.of_settled {p : Pick σ} {x : List Char} {l : List MatchedNode}
    (hpassed : p.passed = token.length) (hsource : p.hop.source = hop.source)
    (hsole : ∀ y, t.picks id ⟨past, token ++ separator :: y⟩ hop = [p])
    (hnext : t.Resumable ((t.node p.node).target?.getD p.node) ⟨past ++ (token ++ [separator]), x⟩
      (t.goingOn hop p ⟨past ++ (token ++ [separator]), x⟩) l) :
    t.Resumable id ⟨past, token ++ separator :: x⟩ hop
      (⟨p.node, (⟨past, token ++ separator :: x⟩ : Reader).ahead p.passed⟩ :: l) := by
  obtain ⟨before, typed, goal, hrest, hupTo, hresumes⟩ := hnext
  refine ⟨token ++ separator :: before, typed, goal, ?_, ?_, .of_settled hpassed hsource hsole hresumes⟩
  · obtain rfl : x = before ++ typed := hrest
    simp
  · have hcursor : ((⟨past, token ++ separator :: x⟩ : Reader).advance p.passed).cursor + 1 =
        (⟨past ++ (token ++ [separator]), x⟩ : Reader).cursor := by
      rw [Reader.cursor_advance, hpassed, List.take_left]
      simp only [Reader.cursor, Text.width_append]
      rw [Nat.add_assoc]
      rfl
    have hstart : t.anchorAfter ⟨p.node, (⟨past, token ++ separator :: x⟩ : Reader).ahead p.passed⟩ =
        ⟨(t.node p.node).target?.getD p.node, (⟨past ++ (token ++ [separator]), x⟩ : Reader).cursor⟩ :=
      congrArg (Anchor.mk _) hcursor
    have htotal : (⟨past, token ++ separator :: x⟩ : Reader).totalWidth =
        (⟨past ++ (token ++ [separator]), x⟩ : Reader).totalWidth := by
      simp [Reader.totalWidth_eq, Reader.chars]
    rw [List.map_cons, Anchor.upTo, hstart, htotal, if_pos (Reader.cursor_le_totalWidth _), hupTo]
    refine congrArg (Anchor.mk goal) ?_
    simp only [Reader.cursor, Text.width_append, Text.width_cons, Text.width_nil]
    omega

/-- A pick before the end of the input in front of what was matched behind it. -/
lemma Resumable.of_mem_picks (ht : t.WellShaped) (hsettling : t.Settling) (hlone : t.LoneArguments) {p : Pick σ}
    (hp : p ∈ t.picks id r hop) (hpassed : p.passed < r.rest.length) {l : List MatchedNode}
    (hnext : t.Resumable ((t.node p.node).target?.getD p.node) (r.advance (p.passed + 1))
      (t.goingOn hop p (r.advance (p.passed + 1))) l) :
    t.Resumable id r hop (⟨p.node, r.ahead p.passed⟩ :: l) := by
  obtain ⟨token, x, hr, hlength, hsole⟩ := exists_settled ht hsettling hlone hp hpassed
  rw [hr, hlength, Reader.advance_token] at hnext
  rw [hr]
  exact .of_settled hlength (takes_of_mem_picks ht hp).source_eq hsole hnext

/-- What a walk has matched leads to an anchor that reading comes to again. -/
theorem Walk.resumable (ht : t.WellShaped) (hsettling : t.Settling) (hlone : t.LoneArguments)
    (hwalk : t.Walk id r hop w) : ∃ l, w.trail.matched = hop.nodes ++ l ∧ t.Resumable id r hop l := by
  induction hwalk with
  | @stop id r hop p hp _ =>
    have hnodes := (takes_of_mem_picks ht hp).nodes_eq
    refine ⟨[⟨p.node, r.ahead p.passed⟩], by rw [arrival, Trail.matched_single, hnodes], ?_⟩
    by_cases hpassed : p.passed < r.rest.length
    · exact .of_mem_picks ht hsettling hlone hp hpassed (.of_past (by simp))
    · refine .of_past ?_
      rintro m ⟨⟩
      show r.totalWidth ≤ (r.advance p.passed).cursor
      have hend := Reader.totalWidth_le_cursor_advance (Nat.le_of_not_lt hpassed) []
      rwa [r.extend_nil] at hend
  | @onward id r hop w p hp hmore hplain _ ih =>
    obtain ⟨l, hl, hresumable⟩ := ih
    have hnodes := (takes_of_mem_picks ht hp).nodes_eq
    refine ⟨⟨p.node, r.ahead p.passed⟩ :: l, ?_, .of_mem_picks ht hsettling hlone hp hmore.passed_lt ?_⟩
    · rw [hl, hnodes, List.append_assoc, List.singleton_append]
    · rw [goingOn, hplain]
      exact hresumable
  | @jump id target r hop w p hp hmore htarget _ ih =>
    obtain ⟨l, hl, hresumable⟩ := ih
    have hnodes := (takes_of_mem_picks ht hp).nodes_eq
    refine ⟨⟨p.node, r.ahead p.passed⟩ :: l, ?_, .of_mem_picks ht hsettling hlone hp hmore.passed_lt ?_⟩
    · rw [ParseResult.behind, Trail.matched_cons, hl, hnodes, List.append_assoc, List.singleton_append]
      rfl
    · rw [goingOn, htarget]
      exact hresumable
  | @deadEnd id r hop hstuck =>
    refine ⟨[], ?_, .of_past (by simp)⟩
    rw [impasse, Trail.matched_single, List.append_nil]

/-- A keyword that is put in place where reading comes to its parent again is the last thing that is read. -/
lemma ResumesAt.parse_keyword (ht : t.WellShaped) {source : σ} {c : NodeId} {k : String}
    (h : t.ResumesAt rootId [] before (.start source rootId 0) goal) (hchild : c ∈ t.children goal)
    (hpattern : (t.node c).pattern = some (.literal k)) (hcanUse : (t.node c).canUse source = true)
    (hk : k ≠ "") (hunbroken : separator ∉ k.toList) :
    (t.parse (String.ofList (before ++ k.toList)) source).isComplete = true ∧
      ∃ m, (t.parse (String.ofList (before ++ k.toList)) source).trail.last.nodes.getLast? = some m ∧
        m.node = c ∧ m.span.start = Text.width before ∧ m.span.stop = Text.width (before ++ k.toList) := by
  obtain ⟨hop, hsource, hends⟩ := h
  have hne : k.toList ≠ [] := fun hnil => hk (String.toList_injective hnil)
  obtain ⟨hkeyword, hliteral⟩ := keyword_of_pattern ht hchild hpattern
  set r : Reader := ⟨[] ++ before, k.toList⟩ with hr
  have htoken : k.toList = r.rest.takeWhile (· ≠ separator) := by
    have htake := takeWhile_token hunbroken (show endsToken [] = true from rfl)
    rw [List.append_nil] at htake
    exact htake.symm
  have hpicks : t.picks goal r hop = _ :=
    picks_of_keyword ht hkeyword hliteral (hsource ▸ hcanUse) htoken
  have harrival := parseFrom_of_sole_ends hpicks fun hmore => Nat.lt_irrefl _ hmore.passed_lt
  obtain ⟨hreader, hlast⟩ := hends k.toList hne
  have hparse : t.parse (String.ofList (before ++ k.toList)) source =
      t.parseFrom rootId ⟨[], before ++ k.toList⟩ (.start source rootId 0) := by
    rw [parse, Reader.ofString, String.toList_ofList]
    rfl
  rw [hparse, ParseResult.isComplete, hreader, hlast, harrival]
  refine ⟨?_, ⟨_, r.ahead k.toList.length⟩, ?_, rfl, rfl, ?_⟩
  · simp [arrival, Reader.canRead, hr]
  · simp [arrival, Trail.single, Trail.last, entered, Hop.withNode]
  · simp [Reader.ahead, Reader.cursor, Reader.advance, hr]

end CommandTree

/-! ## Agreement with reading -/

namespace CommandTree

variable {t : CommandTree σ}

/-- No keyword of the tree contains the separator. -/
def WordKeywords (t : CommandTree σ) : Prop :=
  ∀ id k, (t.node id).pattern = some (.literal k) → separator ∉ k.toList

lemma wordKeywords_of_names
    (h : ∀ id < t.size, (t.node id).isLiteral = true → separator ∉ (t.node id).name.toList) :
    t.WordKeywords := by
  intro id k hpattern
  by_cases hid : id < t.size
  · have hname := h id hid (Node.isLiteral_iff.2 ⟨k, hpattern⟩)
    rwa [Node.name, hpattern] at hname
  · rw [node_of_size_le (Nat.le_of_not_lt hid)] at hpattern
    cases hpattern

/-- Where completion at the end of an input happens: there the input can be cut so that reading comes to the parent
again, whatever is put in the place of what follows. -/
lemma exists_resumesAt (ht : t.WellShaped) (hsettling : t.Settling) (hlone : t.LoneArguments)
    (input : String) (source : σ) :
    ∃ before typed goal, input.toList = before ++ typed ∧
      (t.parse input source).trail.anchor? (Text.width input.toList) = some ⟨goal, Text.width before⟩ ∧
      t.ResumesAt rootId [] before (.start source rootId 0) goal := by
  obtain ⟨l, hl, before, typed, goal, hinput, hupTo, hresumes⟩ :=
    (t.walk_parseReader (.ofString input) source).resumable ht hsettling hlone
  have hlegal := (legal_parseReader ht (.ofString input) source).1
  have htotal : (Reader.ofString input).totalWidth = Text.width input.toList := by
    rw [Reader.totalWidth_eq]
    rfl
  refine ⟨before, typed, goal, hinput, ?_, hresumes⟩
  have hanchor := anchor?_parseReader_eq ht (.ofString input) source (Nat.le_refl _)
  rw [if_neg (Nat.not_lt.2 (Reader.cursor_le_totalWidth _)), lastAnchor, hlegal.root_eq, hlegal.start_eq, hl] at hanchor
  rw [parse, ← htotal, hanchor]
  refine congrArg some (hupTo.trans ?_)
  rw [Nat.add_comm]
  rfl

lemma echo_wordKeywords : echo.WordKeywords :=
  wordKeywords_of_names (by decide)

/-- The input that a suggestion leads to is read, and it ends with a node from an offset on. -/
def IsRead (t : CommandTree σ) (s : Suggestion) (input : String) (source : σ) (id : NodeId) (start : Nat) : Prop :=
  ∃ line, s.applied? input = some line ∧ (t.parse line source).isComplete = true ∧
    ∃ m, (t.parse line source).trail.last.nodes.getLast? = some m ∧ m.node = id ∧
      m.span.start = start ∧ m.span.stop = Text.width line.toList

/-- The keywords that are offered at the end of an input are read when they are put in place. -/
def ReadsOffers (t : CommandTree σ) (input : String) (source : σ) : Prop :=
  ∀ a, (t.parse input source).trail.anchor? (Text.width input.toList) = some a →
    ∀ c ∈ t.children a.parent, (t.node c).isLiteral = true → (t.node c).canUse source = true →
      ∀ s ∈ t.offers c ((t.parse input source).trail.context input)
        (.new input (min a.start (Text.width input.toList))),
        t.IsRead s input source c a.start

/-- The keywords that are offered are read when they are put in place as they stand in the completion. -/
def ReadsCompletion (t : CommandTree σ) (input : String) (source : σ) : Prop :=
  ∀ completion, t.complete (t.parse input source) = .ok completion →
    ∀ a, (t.parse input source).trail.anchor? (Text.width input.toList) = some a →
      ∀ c ∈ t.children a.parent, (t.node c).isLiteral = true → (t.node c).canUse source = true →
        ∀ s ∈ t.offers c ((t.parse input source).trail.context input)
          (.new input (min a.start (Text.width input.toList))),
          t.IsRead (completion.adapted input (t.children a.parent).length s) input source c a.start

/-- Everything that is left but the blanks at its end. -/
def remark : CustomType Unit where
  typeName := "Remark"
  scan := fun _ text =>
    let kept := (text.reverse.dropWhile (· = separator)).reverse
    .found (.string (String.ofList kept)) kept.length

/-- A keyword behind a remark. -/
def chatter : CommandTree Unit :=
  ⟨#[{ Node.root with children := [("say", 1)] },
    ⟨some (.literal "say"), [("text", 2)], none, none, none⟩,
    ⟨some (.argument "text" (.custom remark) none), [("now", 3)], none, none, none⟩,
    ⟨some (.literal "now"), [], none, none, none⟩]⟩

lemma chatter_reachable : chatter.Reachable :=
  .register (s := { NodeSpec.ofPattern (.literal "say") with children :=
    [{ NodeSpec.ofPattern (.argument "text" (.custom remark) none) with children := [.ofPattern (.literal "now")] }] })
    .empty rfl

lemma chatter_loneArguments : chatter.LoneArguments := by
  unfold LoneArguments
  decide

lemma chatter_wordKeywords : chatter.WordKeywords :=
  wordKeywords_of_names (by decide)

/-- A provider that replaces more than the token: it starts inside of the accented letter before it. -/
def regrasping : Provider Unit :=
  .ofCollecting fun c => (c.restartAt (c.start - 2)).suggest "x" none

/-- A keyword and a word that are suggested for different spans. -/
def accented : CommandTree Unit :=
  ⟨#[{ Node.root with children := [("é", 1)] },
    ⟨some (.literal "é"), [("b", 2), ("a", 3)], none, none, none⟩,
    ⟨some (.literal "b"), [], none, none, none⟩,
    ⟨some (.argument "a" (.text .word) (some regrasping)), [], none, none, none⟩]⟩

lemma accented_reachable : accented.Reachable :=
  .register (s := { NodeSpec.ofPattern (.literal "é") with children :=
    [.ofPattern (.literal "b"), .ofPattern (.argument "a" (.text .word) (some regrasping))] })
    .empty rfl

lemma accented_loneArguments : accented.LoneArguments := by
  unfold LoneArguments
  decide

lemma accented_wordKeywords : accented.WordKeywords :=
  wordKeywords_of_names (by decide)

/-- What is completed behind the accented letter, from its second byte on. -/
def accentedCompletion : Suggestions :=
  ⟨⟨1, 3, by decide⟩, [.ofText ⟨1, 3, by decide⟩ "b" none, .ofText ⟨1, 3, by decide⟩ "x" none]⟩

lemma complete_accented : accented.complete (accented.parse "é " ()) = .ok accentedCompletion := by
  decide +kernel

lemma not_readsOffers_chatter : ¬ chatter.ReadsOffers "say hello " () := by
  intro hreads
  have hanchor : (chatter.parse "say hello " ()).trail.anchor? (Text.width "say hello ".toList) = some ⟨2, 10⟩ := by
    decide +kernel
  have hoffer : .ofText (.point 10) "now" none ∈ chatter.offers 3
      ((chatter.parse "say hello " ()).trail.context "say hello ")
      (.new "say hello " (min 10 (Text.width "say hello ".toList))) := by
    decide +kernel
  have happlied : (Suggestion.ofText (.point 10) "now" none).applied? "say hello " = some "say hello now" := by
    decide +kernel
  have hlast : (chatter.parse "say hello now" ()).trail.last.nodes.getLast?.map MatchedNode.node = some 2 := by
    decide +kernel
  obtain ⟨line, hline, -, m, hm, hnode, -⟩ := hreads _ hanchor 3 (List.mem_singleton_self _) rfl rfl _ hoffer
  obtain rfl : line = "say hello now" := Option.some.inj (hline.symm.trans happlied)
  rw [hm, Option.map_some, hnode] at hlast
  cases hlast

lemma not_readsCompletion_accented : ¬ accented.ReadsCompletion "é " () := by
  intro hreads
  have hanchor : (accented.parse "é " ()).trail.anchor? (Text.width "é ".toList) = some ⟨1, 3⟩ := by decide +kernel
  have hoffer : .ofText (.point 3) "b" none ∈ accented.offers 2
      ((accented.parse "é " ()).trail.context "é ") (.new "é " (min 3 (Text.width "é ".toList))) := by
    decide +kernel
  have happlied : (accentedCompletion.adapted "é " (accented.children 1).length
      (.ofText (.point 3) "b" none)).applied? "é " = some "b" := by
    decide +kernel
  have hincomplete : (accented.parse "b" ()).isComplete = false := by decide +kernel
  obtain ⟨line, hline, hcomplete, -⟩ :=
    hreads _ complete_accented _ hanchor 2 (List.mem_cons_self ..) rfl rfl _ hoffer
  obtain rfl : line = "b" := Option.some.inj (hline.symm.trans happlied)
  rw [hincomplete] at hcomplete
  cases hcomplete

end CommandTree
end CommandEngine
