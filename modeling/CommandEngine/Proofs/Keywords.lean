import CommandEngine.Proofs.Commitment
import CommandEngine.Proofs.Stopping

/-!
# Reading keywords

A keyword that is spelled by the next token is the only candidate there, so if the source may use it, it is what
reading takes: where it stands decides whether reading ends, goes on below it or goes on at its target.  The
words of a `CommandTree.KeywordPath` are read one after the other in this way, and leave nothing behind but the
nodes they match (`CommandTree.KeywordPath.parseFrom_eq`).
-/

namespace CommandEngine

variable {σ : Type}

/-- The pieces of an input between separators. -/
def pieces (input : String) : List String := (input.toList.splitOn separator).map String.ofList

namespace CommandTree

variable {t : CommandTree σ} {id c : NodeId} {r : Reader} {hop : Hop σ} {k : String}

/-! ## A single candidate -/

section Sole

variable {p : Pick σ}

lemma parseFrom_of_sole (h : t.picks id r hop = [p]) (hjump : ¬ t.jumps r p) :
    t.parseFrom id r hop = t.reading r p := by
  have hnot : ∀ q ∈ t.picks id r hop, ¬ t.jumps r q := by
    rw [h, List.forall_mem_singleton]
    exact hjump
  rw [parseFrom_of_not_jump hnot, h]
  rfl

/-- Reading ends with the only pick if not enough is left after it. -/
lemma parseFrom_of_sole_ends (h : t.picks id r hop = [p]) (hends : ¬ t.goesOn r p) :
    t.parseFrom id r hop = arrival r p := by
  rw [parseFrom_of_sole h fun hjump => hends hjump.1, reading, if_neg hends]

/-- Reading goes on below the only pick if that does not redirect. -/
lemma parseFrom_of_sole_onward (h : t.picks id r hop = [p]) (hmore : t.goesOn r p)
    (hplain : (t.node p.node).target? = none) :
    t.parseFrom id r hop = t.parseFrom p.node (r.advance (p.passed + 1)) p.hop := by
  have hjump : ¬ t.jumps r p := by
    rintro ⟨-, hsome⟩
    simp [hplain] at hsome
  rw [parseFrom_of_sole h hjump, reading, if_pos hmore]

/-- Reading goes on at the target of the only pick if that redirects. -/
lemma parseFrom_of_sole_jump {target : NodeId} (h : t.picks id r hop = [p]) (hmore : t.goesOn r p)
    (htarget : (t.node p.node).target? = some target) :
    t.parseFrom id r hop =
      (t.parseFrom target (r.advance (p.passed + 1))
        (landing hop.source target (r.advance (p.passed + 1)))).behind p.hop := by
  have hjump : t.jumps r p := ⟨hmore, by rw [htarget]; rfl⟩
  refine parseFrom_of_commitment ?_ htarget
  rw [commitment?, h, List.find?_singleton, if_pos (decide_eq_true hjump)]

end Sole

/-! ## Keywords as tokens -/

lemma takeWhile_token {token rest : List Char} (htoken : separator ∉ token) (hrest : endsToken rest = true) :
    (token ++ rest).takeWhile (· ≠ separator) = token := by
  induction token with
  | nil =>
    cases rest with
    | nil => rfl
    | cons c rest =>
      have hc : c = separator := by simpa [endsToken] using hrest
      simp [hc]
  | cons c token ih =>
    rw [List.mem_cons, not_or] at htoken
    have hc : decide (c ≠ separator) = true := decide_eq_true fun heq => htoken.1 heq.symm
    rw [List.cons_append, List.takeWhile_cons, if_pos hc, ih htoken.2]

/-- A keyword that is the next token is the only candidate. -/
lemma candidates_of_keyword (ht : t.WellShaped) {text : List Char} (hchild : t.child? id k = some c)
    (hliteral : (t.node c).isLiteral = true) (htoken : k.toList = text.takeWhile (· ≠ separator)) :
    t.candidates id text = [c] := by
  have hmem : (k, c) ∈ t.literals id := by
    rw [literals, List.mem_filter]
    exact ⟨ht.child?_eq_some.1 hchild, hliteral⟩
  have hfind : (t.literals id).find? (fun e => e.1.toList = text.takeWhile (· ≠ separator)) = some (k, c) := by
    cases hfound : (t.literals id).find? (fun e => e.1.toList = text.takeWhile (· ≠ separator)) with
    | none =>
      have hnot := List.find?_eq_none.1 hfound (k, c) hmem
      simp [htoken] at hnot
    | some e =>
      -- names are distinct, so the one that was found is the keyword
      have hname : e.1 = k := by
        have hfirst := List.find?_some hfound
        rw [decide_eq_true_eq, ← htoken] at hfirst
        exact String.toList_injective hfirst
      have he := List.mem_of_mem_filter (List.mem_of_find?_eq_some hfound)
      have hnode := ht.child?_eq_some.2 (show (e.1, e.2) ∈ (t.node id).children from he)
      rw [hname, hchild] at hnode
      exact congrArg some (Prod.ext hname (Option.some.inj hnode).symm)
  unfold candidates
  simp only [hfind]

/-- The hop after it has come to a node whose token covers a span. -/
def entered (t : CommandTree σ) (hop : Hop σ) (c : NodeId) (span : Span) : Hop σ :=
  { hop.withNode c span (t.node c).modifier? (t.node c).forks with handler := (t.node c).handler }

lemma pattern_of_keyword (ht : t.WellShaped) (hchild : t.child? id k = some c)
    (hliteral : (t.node c).isLiteral = true) : (t.node c).pattern = some (.literal k) := by
  obtain ⟨keyword, hpattern⟩ := Node.isLiteral_iff.1 hliteral
  obtain ⟨p, hp, hname⟩ := ht.named (ht.child?_eq_some.1 hchild)
  obtain rfl : p = .literal keyword := Option.some.inj (hp.symm.trans hpattern)
  obtain rfl : keyword = k := hname
  exact hpattern

/-- A child that matches a keyword is kept under it. -/
lemma keyword_of_pattern (ht : t.WellShaped) (hc : c ∈ t.children id)
    (hpattern : (t.node c).pattern = some (.literal k)) :
    t.child? id k = some c ∧ (t.node c).isLiteral = true := by
  have hname : (t.node c).name = k := by rw [Node.name, hpattern]; rfl
  exact ⟨hname ▸ ht.child?_name hc, Node.isLiteral_iff.2 ⟨k, hpattern⟩⟩

/-- A keyword that is the next token and that the source may use is the only pick. -/
lemma picks_of_keyword (ht : t.WellShaped) (hchild : t.child? id k = some c)
    (hliteral : (t.node c).isLiteral = true) (hcanUse : (t.node c).canUse hop.source = true)
    (htoken : k.toList = r.rest.takeWhile (· ≠ separator)) :
    t.picks id r hop = [⟨c, t.entered hop c (r.ahead k.toList.length), k.toList.length⟩] := by
  have hpattern := pattern_of_keyword ht hchild hliteral
  have hends := endsToken_drop_takeWhile r.rest
  rw [← htoken] at hends
  have hmatch : t.matchToken r hop c = .ok (t.entered hop c (r.ahead k.toList.length), k.toList.length) := by
    simp only [matchToken, matchNode, hpattern, Scan.keyword_of_token htoken, Scanned.found, hends, if_true]
    rfl
  simp [picks, usable, candidates_of_keyword ht hchild hliteral htoken, hcanUse, pick?, hmatch]

/-! ## What a first hop covers -/

/-- The first hop of a reading covers what it had covered before. -/
lemma Walk.covers (ht : t.WellShaped) {w : ParseResult σ} (h : t.Walk id r hop w) :
    w.trail.first.span.start ≤ hop.span.start ∧ hop.span.stop ≤ w.trail.first.span.stop := by
  have hpick : ∀ {id : NodeId} {r : Reader} {hop : Hop σ} {p : Pick σ}, p ∈ t.picks id r hop →
      p.hop.span.start ≤ hop.span.start ∧ hop.span.stop ≤ p.hop.span.stop := by
    intro id r hop p hp
    rw [(takes_of_mem_picks ht hp).span_eq]
    exact ⟨Nat.min_le_left _ _, Nat.le_max_left _ _⟩
  induction h with
  | stop p hp _ => exact hpick hp
  | onward p hp _ _ _ ih => exact ⟨ih.1.trans (hpick hp).1, (hpick hp).2.trans ih.2⟩
  | jump p hp _ _ _ _ => exact hpick hp
  | deadEnd _ => exact ⟨Nat.le_refl _, Nat.le_refl _⟩

lemma Walk.isEmpty_first (ht : t.WellShaped) {w : ParseResult σ} (h : t.Walk id r hop w)
    (hne : hop.span.isEmpty = false) : w.trail.first.span.isEmpty = false := by
  obtain ⟨hstart, hstop⟩ := h.covers ht
  have hlt : hop.span.start ≠ hop.span.stop := ne_of_beq_false hne
  have hordered := hop.span.ordered
  have hne' : w.trail.first.span.start ≠ w.trail.first.span.stop := by omega
  exact beq_false_of_ne hne'

/-- A hop that has read a word covers something. -/
lemma isEmpty_entered (hk : k ≠ "") {text : List Char} (hrest : r.rest = k.toList ++ text) :
    (t.entered hop c (r.ahead k.toList.length)).span.isEmpty = false := by
  have hstop : (r.advance k.toList.length).cursor = r.cursor + Text.width k.toList := by
    rw [Reader.cursor_advance, hrest, List.take_left]
  have hwidth : 0 < Text.width k.toList := by
    cases hchars : k.toList with
    | nil => exact absurd (String.toList_injective hchars) hk
    | cons ch rest =>
      have hpos := ch.utf8Size_pos
      rw [Text.width_cons]
      omega
  have hne : min hop.span.start r.cursor ≠ max hop.span.stop (r.advance k.toList.length).cursor := by
    omega
  exact beq_false_of_ne hne

/-! ## Keywords in a row -/

/-- A way down from a node along keywords that the source may use and none of which redirects. -/
inductive KeywordPath (t : CommandTree σ) (source : σ) : NodeId → List String → NodeId → Prop
  | nil {id : NodeId} : KeywordPath t source id [] id
  | cons {id c goal : NodeId} {k : String} {ks : List String} (child : t.child? id k = some c)
      (literal : (t.node c).isLiteral = true) (unbroken : separator ∉ k.toList)
      (plain : (t.node c).target? = none) (usable : (t.node c).canUse source = true)
      (next : KeywordPath t source c ks goal) : KeywordPath t source id (k :: ks) goal

/-- Words with a separator after each of them. -/
def wordsChars (ks : List String) : List Char := ks.flatMap fun k => k.toList ++ [separator]

/-- A keyword in front of more input is taken, and reading goes on below it. -/
lemma parseFrom_of_keyword (ht : t.WellShaped) (hchild : t.child? id k = some c)
    (hliteral : (t.node c).isLiteral = true) (hunbroken : separator ∉ k.toList)
    (hplain : (t.node c).target? = none) (hcanUse : (t.node c).canUse hop.source = true) {text : List Char}
    (htext : text ≠ []) (hrest : r.rest = k.toList ++ separator :: text) :
    t.parseFrom id r hop = t.parseFrom c (r.advance (k.toList.length + 1))
      (t.entered hop c (r.ahead k.toList.length)) := by
  have htoken : k.toList = r.rest.takeWhile (· ≠ separator) := by
    rw [hrest, takeWhile_token hunbroken rfl]
  refine parseFrom_of_sole_onward (picks_of_keyword ht hchild hliteral hcanUse htoken) ?_ hplain
  rw [goesOn_of_no_target hplain, hrest, List.length_append, List.length_cons]
  have hpos := List.length_pos_iff.2 htext
  show k.toList.length + 1 < k.toList.length + (text.length + 1)
  omega

/-- A keyword that redirects is taken in front of a separator, and reading goes on at its target. -/
lemma parseFrom_of_redirecting (ht : t.WellShaped) (hchild : t.child? id k = some c)
    (hliteral : (t.node c).isLiteral = true) (hunbroken : separator ∉ k.toList) {target : NodeId}
    (htarget : (t.node c).target? = some target) (hcanUse : (t.node c).canUse hop.source = true)
    {text : List Char} (hrest : r.rest = k.toList ++ separator :: text) :
    t.parseFrom id r hop =
      (t.parseFrom target (r.advance (k.toList.length + 1))
        (landing hop.source target (r.advance (k.toList.length + 1)))).behind
          (t.entered hop c (r.ahead k.toList.length)) := by
  have htoken : k.toList = r.rest.takeWhile (· ≠ separator) := by
    rw [hrest, takeWhile_token hunbroken rfl]
  refine parseFrom_of_sole_jump (picks_of_keyword ht hchild hliteral hcanUse htoken) ?_ htarget
  rw [goesOn_of_target htarget, hrest, List.length_append, List.length_cons]
  show k.toList.length < k.toList.length + (text.length + 1)
  omega

lemma rest_advance_word {text : List Char} (hrest : r.rest = k.toList ++ separator :: text) :
    (r.advance (k.toList.length + 1)).rest = text := by
  rw [Reader.rest_advance, hrest, ← List.drop_drop, List.drop_left]
  rfl

/-- What a hop that has read keywords has in common with the one before. -/
structure Carried (hop hop' : Hop σ) : Prop where
  source : hop'.source = hop.source
  arguments : hop'.arguments = hop.arguments
  modifier : hop.modifier = none → hop'.modifier = none
  forks : hop.forks = false → hop'.forks = false

lemma Carried.refl (hop : Hop σ) : Carried hop hop := ⟨rfl, rfl, fun h => h, fun h => h⟩

lemma Carried.trans {hop' hop'' : Hop σ} (h : Carried hop hop') (h' : Carried hop' hop'') : Carried hop hop'' :=
  ⟨h'.source.trans h.source, h'.arguments.trans h.arguments, fun hm => h'.modifier (h.modifier hm),
    fun hf => h'.forks (h.forks hf)⟩

lemma carried_entered (hplain : (t.node c).redirect = none) (span : Span) :
    Carried hop (t.entered hop c span) := by
  refine ⟨rfl, rfl, fun _ => ?_, fun _ => ?_⟩
  · change (t.node c).modifier? = none
    rw [Node.modifier?, hplain, Option.bind_none]
  · change (t.node c).forks = false
    rw [Node.forks, hplain]
    rfl

lemma wordsChars_cons (k : String) (ks : List String) (text : List Char) :
    wordsChars (k :: ks) ++ text = k.toList ++ separator :: (wordsChars ks ++ text) := by
  simp [wordsChars]

/-- The words of a path of keywords are read one after the other. -/
theorem KeywordPath.parseFrom_eq (ht : t.WellShaped) {source : σ} {goal : NodeId} {ks : List String}
    (h : t.KeywordPath source id ks goal) (hsource : hop.source = source) {text : List Char}
    (htext : text ≠ []) (hrest : r.rest = wordsChars ks ++ text) :
    ∃ r' hop', t.parseFrom id r hop = t.parseFrom goal r' hop' ∧ r'.rest = text ∧ r'.chars = r.chars ∧
      Carried hop hop' := by
  induction h generalizing r hop with
  | nil => exact ⟨r, hop, rfl, hrest, rfl, .refl hop⟩
  | @cons id c goal k ks hchild hliteral hunbroken hplain hcanUse _ ih =>
    have hword := hrest.trans (wordsChars_cons k ks text)
    have hstep := parseFrom_of_keyword ht hchild hliteral hunbroken hplain (hsource ▸ hcanUse)
      (by simp [htext]) hword
    have hentered : Carried hop (t.entered hop c (r.ahead k.toList.length)) :=
      carried_entered (Option.map_eq_none_iff.1 hplain) _
    obtain ⟨r', hop', heq, hrest', hchars, hcarried⟩ :=
      ih (hentered.source.trans hsource) (rest_advance_word hword)
    refine ⟨r', hop', hstep.trans heq, hrest', ?_, hentered.trans hcarried⟩
    rw [hchars, Reader.chars_advance]

end CommandTree
end CommandEngine
