import CommandEngine.Proofs.Tiling

/-!
# Where reading stops

Reading stops in one of two ways.  Either it has arrived: a node was matched and not enough is left to go on,
so that nothing stands in the way and there are no errors.  Or it is stuck: at the node that it has come to
no candidate matches, and the errors are those of the candidates there, one for each of them and in their
order.  `CommandTree.Arrived` and `CommandTree.Stuck` describe the two, and `CommandTree.Walk.stops` proves
that there is no third.

A keyword is a candidate only if it is the next token, and then it matches (`Scan.keyword_of_token`).  So the
errors are all about arguments, and each is what the type of the argument says about the text ahead, or
that a separator is missing after it (`ArgumentType.refusal`).
-/

namespace CommandEngine

variable {σ : Type}

/-! ## Keywords that are candidates -/

/-- After the text up to the first separator a token may end. -/
lemma endsToken_drop_takeWhile (text : List Char) :
    endsToken (text.drop (text.takeWhile (· ≠ separator)).length) = true := by
  induction text with
  | nil => rfl
  | cons c rest ih =>
    by_cases hc : c = separator
    · simp [hc, endsToken]
    · simpa [hc] using ih

/-- A keyword that is the next token is found. -/
lemma Scan.keyword_of_token {k : String} {text : List Char}
    (h : k.toList = text.takeWhile (· ≠ separator)) :
    Scan.keyword k text = .found () k.toList.length := by
  have hprefix : k.toList.isPrefixOf text = true := by
    rw [List.isPrefixOf_iff_prefix, h]
    exact List.takeWhile_prefix _
  have hends := endsToken_drop_takeWhile text
  rw [← h] at hends
  simp only [Scan.keyword, hprefix, hends, Bool.and_self, if_true]

/-! ## Arguments that are refused -/

/-- What an argument type has to say at a place where it is refused: the failure of its own scan, or that
the token does not end where the scan does. -/
def ArgumentType.refusal (type : ArgumentType σ) (source : σ) (r : Reader) : SyntaxError :=
  let s := type.scan (some source) r.rest
  (r.advance s.passed).error (match s.outcome with
    | .error reason => reason
    | .ok _ => .expectedSeparator)

/-- Whether a reason is about what a token spells.  The others are about nodes, commands and handlers. -/
def Reason.isAboutToken : Reason → Bool
  | tooSmall .. | tooBig .. | expectedStartOfQuote | expectedEndOfQuote | invalidEscape _ | invalidValue ..
  | expectedValue _ => true
  | _ => false

/-- A scan that fails for what the token spells, if it fails. -/
def Scan.BlamesToken {α : Type} (scan : Scan α) : Prop :=
  ∀ text reason, (scan text).outcome = .error reason → reason.isAboutToken = true

section BlamesToken

variable {α β : Type}

lemma Scanned.map_outcome_error {f : α → β} {s : Scanned α} {e : Reason} :
    (s.map f).outcome = .error e ↔ s.outcome = .error e := by
  unfold Scanned.map
  split
  · next a ha => simp [Scanned.found, ha]
  · next e' he => simp [Scanned.failed, he]

lemma Scanned.reason_eq {reason reason' : Reason} {passed : Nat}
    (h : (Scanned.failed reason passed : Scanned α).outcome = .error reason') : reason' = reason :=
  (Except.error.inj h).symm

lemma Scan.BlamesToken.map {scan : Scan α} (h : Scan.BlamesToken scan) (f : α → β) :
    Scan.BlamesToken fun text => (scan text).map f := by
  intro text reason hreason
  exact h text reason (Scanned.map_outcome_error.1 hreason)

lemma Scan.number_blamesToken [Numeral α] : Scan.BlamesToken (Scan.number (α := α)) := by
  intro text reason h
  rcases Scan.number_cases (α := α) text with hscan | ⟨token, hscan⟩ | ⟨value, hscan⟩ <;> rw [hscan] at h
  · exact Scanned.reason_eq h ▸ rfl
  · exact Scanned.reason_eq h ▸ rfl
  · cases h

lemma Scan.bounded_blamesToken [Numeral α] (b : Bounds α) : Scan.BlamesToken (Scan.bounded b) := by
  intro text reason h
  rcases Scan.bounded_cases b text with hscan | ⟨value, bound, hscan⟩ | ⟨value, bound, hscan⟩ <;> rw [hscan] at h
  · exact Scan.number_blamesToken text reason h
  · exact Scanned.reason_eq h ▸ rfl
  · exact Scanned.reason_eq h ▸ rfl

lemma Scan.untilChars_blamesToken (terminator : Char) : Scan.BlamesToken (Scan.untilChars terminator) := by
  intro text reason h
  fun_induction Scan.untilChars terminator text with
  | case1 => exact Scanned.reason_eq h ▸ rfl
  | case2 => exact Scanned.reason_eq h ▸ rfl
  | case3 d more hd ih => exact ih (Scanned.map_outcome_error.1 h)
  | case4 => exact Scanned.reason_eq h ▸ rfl
  | case5 => cases h
  | case6 c rest hc hd ih => exact ih (Scanned.map_outcome_error.1 h)

lemma Scan.phrase_blamesToken : Scan.BlamesToken Scan.phrase := by
  intro text reason h
  cases text with
  | nil => cases h
  | cons c rest =>
    rw [Scan.phrase] at h
    split at h
    · exact (Scan.untilChars_blamesToken c).map String.ofList rest reason h
    · cases h

lemma Scan.boolean_blamesToken : Scan.BlamesToken Scan.boolean := by
  intro text reason h
  rcases Scan.boolean_cases text with ⟨reason', hphrase, hscan⟩ | ⟨-, hscan⟩ | ⟨value, -, hscan⟩ |
    ⟨value, c, -, hscan⟩ <;> rw [hscan] at h
  · exact Scanned.reason_eq h ▸ Scan.phrase_blamesToken text reason' hphrase
  · exact Scanned.reason_eq h ▸ rfl
  · exact Scanned.reason_eq h ▸ rfl
  · cases h

lemma TextKind.scan_blamesToken (kind : TextKind) : Scan.BlamesToken kind.scan := by
  cases kind with
  | word =>
    intro text reason h
    cases h
  | phrase => exact Scan.phrase_blamesToken
  | greedy =>
    intro text reason h
    cases h

/-- No argument is refused for anything but its token, unless its type is one's own and does so itself. -/
lemma ArgumentType.custom_of_outcome {type : ArgumentType σ} {source : Option σ} {text : List Char} {reason : Reason}
    (hreason : reason.isAboutToken = false) (h : (type.scan source text).outcome = .error reason) :
    ∃ own, type = .custom own := by
  have hblames : ∀ {scan : Scan Value}, Scan.BlamesToken scan → (scan text).outcome ≠ .error reason := by
    intro scan hscan houtcome
    rw [hscan text reason houtcome] at hreason
    cases hreason
  cases type with
  | bool => exact absurd h (hblames (Scan.boolean_blamesToken.map Value.bool))
  | integer b => exact absurd h (hblames ((Scan.bounded_blamesToken b).map Value.int))
  | long b => exact absurd h (hblames ((Scan.bounded_blamesToken b).map Value.long))
  | float b => exact absurd h (hblames ((Scan.bounded_blamesToken b).map Value.float))
  | double b => exact absurd h (hblames ((Scan.bounded_blamesToken b).map Value.double))
  | text kind => exact absurd h (hblames (kind.scan_blamesToken.map Value.string))
  | custom own => exact ⟨own, rfl⟩

end BlamesToken

namespace CommandTree

variable {t : CommandTree σ} {id : NodeId} {r : Reader} {hop : Hop σ}

/-- A keyword is a candidate only if it is the next token. -/
lemma token_of_mem_candidates (ht : t.WellShaped) {c : NodeId} {text : List Char} {k : String}
    (hc : c ∈ t.candidates id text) (hk : (t.node c).pattern = some (.literal k)) :
    k.toList = text.takeWhile (· ≠ separator) := by
  unfold candidates at hc
  simp only at hc
  split at hc
  · next name literal hfind =>
    obtain rfl := List.mem_singleton.1 hc
    have htoken := List.find?_some hfind
    obtain ⟨p, hpattern, hname⟩ := ht.named (List.mem_of_mem_filter (List.mem_of_find?_eq_some hfind))
    rw [hk] at hpattern
    cases hpattern
    rw [← hname] at htoken
    exact of_decide_eq_true htoken
  · -- arguments are not keywords
    obtain ⟨entry, hentry, rfl⟩ := List.mem_map.1 hc
    have hnot := isLiteral_of_mem_arguments hentry
    rw [Node.isLiteral_iff.2 ⟨k, hk⟩] at hnot
    cases hnot

/-- So a keyword that is a candidate matches. -/
lemma matchToken_of_keyword (ht : t.WellShaped) {c : NodeId} {k : String} (hc : c ∈ t.candidates id r.rest)
    (hk : (t.node c).pattern = some (.literal k)) : ∃ reached, t.matchToken r hop c = .ok reached := by
  have htoken := token_of_mem_candidates ht hc hk
  have hends := endsToken_drop_takeWhile r.rest
  rw [← htoken] at hends
  simp [matchToken, matchNode, hk, Scan.keyword_of_token htoken, Scanned.found, hends]

/-- What a candidate that does not match is refused for. -/
lemma refusal_of_matchToken {c : NodeId} {e : SyntaxError} {name : String} {type : ArgumentType σ}
    {provider : Option (Provider σ)} (hc : (t.node c).pattern = some (.argument name type provider))
    (h : t.matchToken r hop c = .error e) : e = type.refusal hop.source r := by
  unfold matchToken matchNode at h
  simp only [hc] at h
  unfold ArgumentType.refusal
  cases hscan : (type.scan (some hop.source) r.rest).outcome with
  | error reason =>
    simp only [hscan] at h ⊢
    exact (Except.error.inj h).symm
  | ok value =>
    simp only [hscan] at h ⊢
    split at h
    · cases h
    · exact (Except.error.inj h).symm

/-! ## The two ways to stop -/

/-- No node of the hop redirects. -/
def Plain (t : CommandTree σ) (hop : Hop σ) : Prop := ∀ m ∈ hop.nodes, (t.node m.node).target? = none

lemma plain_start {source : σ} {root : NodeId} {offset : Nat} :
    t.Plain (.start source root offset) := by
  simp [Plain, Hop.start]

lemma Takes.plain {c : NodeId} {reached : Hop σ} {passed : Nat} (htakes : t.Takes r hop c reached passed)
    (h : t.Plain hop) (hc : (t.node c).target? = none) : t.Plain reached := by
  intro m hm
  rw [htakes.nodes_eq, List.mem_append, List.mem_singleton] at hm
  rcases hm with hm | rfl
  · exact h m hm
  · exact hc

/-- Reading has come to a node that ends where it stopped, and what follows does not lead on: nothing at all,
or a separator after a node that does not redirect. -/
structure Arrived (t : CommandTree σ) (w : ParseResult σ) : Prop where
  spared : w.failures = []
  place : ∃ m, w.trail.last.nodes.getLast? = some m ∧ m.span.stop = w.reader.cursor ∧
    (w.reader.rest = [] ∨ w.reader.rest = [separator] ∧ (t.node m.node).target? = none)

/-- Reading has come to a node at a place where no candidate below it matches, and each candidate has left its
error there.  The place is where the hop started, or one separator after its last node. -/
structure Stuck (t : CommandTree σ) (source : σ) (w : ParseResult σ) : Prop where
  place : (w.trail.last.nodes = [] ∧ w.reader.cursor = w.trail.last.span.start) ∨
    ∃ m, w.trail.last.nodes.getLast? = some m ∧ Separates w.reader.chars m.span.stop w.reader.cursor
  plain : t.Plain w.trail.last
  refused : List.Forall₂ (fun c f => f.1 = c ∧ t.matchToken w.reader w.trail.last c = .error f.2)
    (t.usable w.trail.last.current w.reader.rest source) w.failures

lemma arrived_arrival {p : Pick σ} (htakes : t.Takes r hop p.node p.hop p.passed) (hends : ¬ t.goesOn r p) :
    t.Arrived (arrival r p) := by
  refine ⟨rfl, ⟨p.node, r.ahead p.passed⟩, ?_, rfl, ?_⟩
  · exact (congrArg List.getLast? htakes.nodes_eq).trans List.getLast?_concat
  · have hlength : (r.rest.drop p.passed).length < t.needs p.node := by
      have hneeds : 0 < t.needs p.node := by
        unfold needs
        split <;> omega
      rw [List.length_drop]
      unfold goesOn at hends
      omega
    have htoken := htakes.ends
    change r.rest.drop p.passed = [] ∨ r.rest.drop p.passed = [separator] ∧ _
    cases hrest : r.rest.drop p.passed with
    | nil => exact .inl rfl
    | cons c rest =>
      rw [hrest] at hlength htoken
      obtain rfl : c = separator := beq_iff_eq.1 htoken
      unfold needs at hlength
      split at hlength
      · simp at hlength
      · next hplain =>
        have hnil : rest = [] := by
          rw [List.length_cons] at hlength
          exact List.length_eq_zero_iff.1 (by omega)
        exact .inr ⟨by rw [hnil], by simpa using hplain⟩

/-- Where nothing is picked, every candidate has its error. -/
lemma forall₂_refusals (h : t.picks id r hop = []) :
    List.Forall₂ (fun c f => f.1 = c ∧ t.matchToken r hop c = .error f.2)
      (t.usable id r.rest hop.source) (t.refusals id r hop) := by
  unfold refusals
  unfold picks at h
  generalize t.usable id r.rest hop.source = candidates at h ⊢
  induction candidates with
  | nil => exact .nil
  | cons c rest ih =>
    have hall := List.filterMap_eq_nil_iff.1 h
    have hrest := ih (List.filterMap_eq_nil_iff.2 fun d hd => hall d (List.mem_cons_of_mem _ hd))
    have hc := hall c (List.mem_cons_self ..)
    cases hmatch : t.matchToken r hop c with
    | ok taken => simp [pick?, hmatch] at hc
    | error e =>
      have hrefusal : t.refusal? r hop c = some (c, e) := by simp [refusal?, hmatch]
      rw [List.filterMap_cons_some hrefusal]
      exact .cons ⟨rfl, hmatch⟩ hrest

lemma stuck_impasse {chars : List Char} {source : σ} (h : t.Ready chars source id r hop)
    (hplain : t.Plain hop) (hstuck : t.picks id r hop = []) :
    t.Stuck source (t.impasse id r hop) := by
  refine ⟨?_, hplain, ?_⟩
  · cases hlast : hop.nodes.getLast? with
    | none =>
      have hnil := List.getLast?_eq_none_iff.1 hlast
      exact .inl ⟨hnil, h.fresh hnil⟩
    | some m =>
      refine .inr ⟨m, hlast, ?_⟩
      change Separates r.chars m.span.stop r.cursor
      rw [h.chars_eq]
      exact h.behind m hlast
  · change List.Forall₂ _ (t.usable hop.current r.rest source) (t.refusals id r hop)
    rw [h.current, ← h.legal.source_eq]
    exact forall₂_refusals hstuck

/-- A walk goes on below nodes that do not redirect, until it arrives or is stuck. -/
theorem Walk.stops {chars : List Char} {source : σ} (ht : t.WellShaped) {w : ParseResult σ}
    (hwalk : t.Walk id r hop w) (h : t.Ready chars source id r hop)
    (hplain : t.Plain hop) : t.Arrived w ∨ t.Stuck source w := by
  induction hwalk with
  | @stop id r hop p hp hends => exact .inl (arrived_arrival (takes_of_mem_picks ht hp) hends)
  | @onward id r hop w p hp hmore hnode _ ih =>
    exact ih (h.onward ht hp hmore) ((takes_of_mem_picks ht hp).plain hplain hnode)
  | @jump id target r hop w p hp hmore htarget _ ih =>
    have hready : t.Ready chars source target (r.advance (p.passed + 1))
        (landing hop.source target (r.advance (p.passed + 1))) := by
      rw [h.legal.source_eq]
      exact ready_start target (by rw [Reader.chars_advance, h.chars_eq])
    -- a hop in front changes neither the innermost hop nor the errors
    rcases ih hready plain_start with harrived | hstuck
    · refine .inl ⟨harrived.spared, ?_⟩
      rw [ParseResult.behind, Trail.last_cons]
      exact harrived.place
    · refine .inr ⟨?_, ?_, ?_⟩ <;> rw [ParseResult.behind, Trail.last_cons]
      · exact hstuck.place
      · exact hstuck.plain
      · exact hstuck.refused
  | @deadEnd id r hop hstuck => exact .inr (stuck_impasse h hplain hstuck)

/-! ## What is left at the place -/

lemma candidates_sublist_children (t : CommandTree σ) (id : NodeId) (text : List Char) :
    (t.candidates id text).Sublist (t.children id) := by
  unfold candidates
  simp only
  split
  · next name literal hfind =>
    have hmem := List.mem_of_mem_filter (List.mem_of_find?_eq_some hfind)
    exact List.singleton_sublist.2 (List.mem_map.2 ⟨_, hmem, rfl⟩)
  · exact List.filter_sublist.map Prod.snd

/-- Where reading is stuck, the errors are about the candidates in their order, and each is the one that its
candidate ends with. -/
lemma Stuck.keyed {source : σ} {w : ParseResult σ} (h : t.Stuck source w) :
    w.failures.map Prod.fst = t.usable w.trail.last.current w.reader.rest source ∧
      ∀ f ∈ w.failures, t.matchToken w.reader w.trail.last f.1 = .error f.2 := by
  have hrefused := h.refused
  generalize t.usable w.trail.last.current w.reader.rest source = candidates at hrefused ⊢
  generalize w.failures = failures at hrefused ⊢
  induction hrefused with
  | nil => simp
  | cons hhead _ ih =>
    refine ⟨by rw [List.map_cons, hhead.1, ih.1], fun f hf => ?_⟩
    rcases List.mem_cons.1 hf with rfl | hf
    · exact hhead.1 ▸ hhead.2
    · exact ih.2 f hf

/-- Every error of a place where reading is stuck is what the type of an argument says there. -/
lemma Stuck.exists_argument {source : σ} {w : ParseResult σ} (ht : t.WellShaped) (h : t.Stuck source w)
    (hsource : w.trail.last.source = source) {f : NodeId × SyntaxError} (hf : f ∈ w.failures) :
    ∃ name type provider, (t.node f.1).pattern = some (.argument name type provider) ∧
      f.2 = type.refusal source w.reader := by
  have hmatch := h.keyed.2 f hf
  have husable : f.1 ∈ t.usable w.trail.last.current w.reader.rest source :=
    h.keyed.1 ▸ List.mem_map_of_mem hf
  have hcandidate := (mem_usable.1 husable).1
  obtain ⟨p, hp⟩ := ht.pattern_of_child (mem_children_of_mem_candidates hcandidate)
  cases p with
  | literal k =>
    obtain ⟨reached, hok⟩ : ∃ reached, t.matchToken w.reader w.trail.last f.1 = .ok reached :=
      matchToken_of_keyword ht hcandidate hp
    rw [hok] at hmatch
    cases hmatch
  | argument name type provider =>
    have hrefusal := refusal_of_matchToken hp hmatch
    rw [hsource] at hrefusal
    exact ⟨name, type, provider, hp, hrefusal⟩

end CommandTree

/-- Between two texts there is a place. -/
lemma Reader.seek?_append (lead rest : String) :
    (ofString (lead ++ rest)).seek? (Text.width lead.toList) = some ⟨lead.toList, rest.toList⟩ := by
  have hchars : (ofString (lead ++ rest)).chars = lead.toList ++ rest.toList := String.toList_append
  rw [seek?, hchars, Text.splitAt?_append]
  rfl

/-- What an argument is refused for is located at or after the place, within the input. -/
lemma ArgumentType.refusal_located (type : ArgumentType σ) (source : σ) (r : Reader) :
    (type.refusal source r).input = some r.input ∧
      ∃ offset, (type.refusal source r).cursor = some offset ∧ r.cursor ≤ offset ∧
        offset ≤ r.totalWidth ∧ (Text.splitAt? r.chars offset).isSome := by
  have hchars := r.chars_advance (type.scan (some source) r.rest).passed
  refine ⟨?_, (r.advance (type.scan (some source) r.rest).passed).cursor, rfl,
    r.cursor_le_cursor_advance _, ?_, ?_⟩
  · simp only [refusal, Reader.error, SyntaxError.located, Reader.input, hchars]
  · rw [r.totalWidth_eq, ← hchars, ← Reader.totalWidth_eq]
    exact Reader.cursor_le_totalWidth _
  · rw [← hchars, Reader.splitAt?_cursor]
    rfl

/-- Only a type of one's own is refused for something else than its token or a missing separator, and only if it
says so itself. -/
lemma ArgumentType.custom_of_refusal {type : ArgumentType σ} {source : σ} {r : Reader} {reason : Reason}
    (hreason : reason.isAboutToken = false) (hseparator : reason ≠ .expectedSeparator)
    (h : (type.refusal source r).reason = reason) :
    ∃ own : CustomType σ, type = .custom own ∧ (own.scan (some source) r.rest).outcome = .error reason := by
  have houtcome : (type.scan (some source) r.rest).outcome = .error reason := by
    simp only [refusal, Reader.error, SyntaxError.located] at h
    cases hscan : (type.scan (some source) r.rest).outcome with
    | error reason' =>
      rw [hscan] at h
      exact congrArg Except.error h
    | ok value =>
      rw [hscan] at h
      exact absurd h.symm hseparator
  obtain ⟨own, rfl⟩ := custom_of_outcome hreason houtcome
  exact ⟨own, rfl, houtcome⟩

lemma ArgumentType.refusal_literalIncorrect {type : ArgumentType σ} {source : σ} {r : Reader} {k : String}
    (h : (type.refusal source r).reason = .literalIncorrect k) :
    ∃ own : CustomType σ, type = .custom own ∧
      (own.scan (some source) r.rest).outcome = .error (.literalIncorrect k) :=
  custom_of_refusal rfl Reason.noConfusion h

namespace CommandTree

variable {t : CommandTree σ}

/-! ## Reading from a place -/

lemma walk_parseReader (t : CommandTree σ) (r : Reader) (source : σ) :
    t.Walk rootId r (.start source rootId r.cursor) (t.parseReader r source) :=
  t.walk_parseFrom ..

lemma legal_parseReader (ht : t.WellShaped) (r : Reader) (source : σ) :
    t.LegalTrail r.chars source rootId r.cursor (t.parseReader r source).trail ∧
      StopsAt r.chars (t.parseReader r source).trail.last (t.parseReader r source).reader :=
  (t.walk_parseReader r source).legal ht (ready_start rootId rfl)

lemma arrived_or_stuck_parseReader (ht : t.WellShaped) (r : Reader) (source : σ) :
    t.Arrived (t.parseReader r source) ∨ t.Stuck source (t.parseReader r source) :=
  (t.walk_parseReader r source).stops ht (ready_start rootId rfl) plain_start

/-- Reading keeps the characters of the input. -/
lemma chars_parse (ht : t.WellShaped) (input : String) (source : σ) :
    (t.parse input source).reader.chars = input.toList :=
  (legal_parseReader ht (.ofString input) source).2.chars_eq

lemma input_parse (ht : t.WellShaped) (input : String) (source : σ) :
    (t.parse input source).reader.input = input := by
  rw [Reader.input, chars_parse ht, String.ofList_toList]

/-- Reading stops where it has arrived, without errors, or where it is stuck, with the errors of the candidates
that the source may use at the node that it has come to.  They stand in the order of registration.  Each is
about an argument and is what the type of the argument says there; it carries the whole input and a place in
it that is not before the one where reading stopped.  None speaks of a keyword, unless a type of one's own
does so itself. -/
theorem parseReader_stops (ht : t.Reachable) (r : Reader) (source : σ) :
    (t.Arrived (t.parseReader r source) ∨ t.Stuck source (t.parseReader r source)) ∧
      (((t.parseReader r source).failures.map Prod.fst).Sublist
        (t.children (t.parseReader r source).trail.last.current)) ∧
      ∀ f ∈ (t.parseReader r source).failures,
        ∃ name type provider, (t.node f.1).pattern = some (.argument name type provider) ∧
          f.2 = type.refusal source (t.parseReader r source).reader ∧
          f.2.input = some r.input ∧
          (∃ offset, f.2.cursor = some offset ∧ (t.parseReader r source).reader.cursor ≤ offset ∧
            offset ≤ r.totalWidth ∧ (Text.splitAt? r.chars offset).isSome) ∧
          ∀ k, f.2.reason = .literalIncorrect k → ∃ own : CustomType σ, type = .custom own ∧
            (own.scan (some source) (t.parseReader r source).reader.rest).outcome =
              .error (.literalIncorrect k) := by
  have hshape := ht.wellShaped
  have hstops := arrived_or_stuck_parseReader hshape r source
  obtain ⟨hlegal, hplace⟩ := legal_parseReader hshape r source
  have hsource := (hlegal.hops _ (Trail.last_mem_hops _)).source_eq
  refine ⟨hstops, ?_, ?_⟩
  · rcases hstops with harrived | hstuck
    · rw [harrived.spared]
      exact List.nil_sublist _
    · rw [hstuck.keyed.1]
      exact List.filter_sublist.trans (t.candidates_sublist_children _ _)
  · intro f hf
    rcases hstops with harrived | hstuck
    · rw [harrived.spared] at hf
      cases hf
    · obtain ⟨name, type, provider, hpattern, heq⟩ := hstuck.exists_argument hshape hsource hf
      obtain ⟨hinput, offset, hcursor, hge, hle, hsome⟩ :=
        type.refusal_located source (t.parseReader r source).reader
      rw [Reader.totalWidth_eq, hplace.chars_eq, ← Reader.totalWidth_eq] at hle
      rw [Reader.input, hplace.chars_eq] at hinput
      rw [hplace.chars_eq] at hsome
      refine ⟨name, type, provider, hpattern, heq, heq ▸ hinput, ⟨offset, heq ▸ hcursor, hge, hle, hsome⟩, ?_⟩
      intro k hk
      exact ArgumentType.refusal_literalIncorrect (heq ▸ hk)

end CommandTree
end CommandEngine
