import CommandEngine.ByteParse
import CommandEngine.Proofs.ArgumentParser
import CommandEngine.Proofs.Stopping

/-!
# Commands read by byte offsets

Reading a command by byte offsets (`CommandTree.parseReaderBy`) asks nothing of the parsers of one's own and may
break off.  Where these parsers keep to what is documented, and the types in the tree have their scans
(`CommandTree.Documents`), it leads where `CommandTree.parseReader` leads, at the byte offset of that place:
`CommandTree.parseReaderBy_bytes`.  So whatever is proved of reading by scans holds of reading with such parsers.

The proof follows the code.  A node is matched by its parser as it is by its scan (`matchNodeBy_gives`), and so is a
token.  Candidates that are tried one after the other are chosen from as they are when all have been tried
(`tryEach_bytes`): one more step of a candidate changes what is made of the steps (`CommandTree.settle`) just as
trying it does.  The depth is met by induction, for every token takes at least the separator behind it.

What this says of the errors that are recorded is `CommandTree.parseReaderBy_stops`.  It is the documented conduct of
the parsers that gives every error its input and its place, and there is nothing to keep a parser from speaking of a
keyword (`CommandTree.not_locatesFailures`).
-/

namespace CommandEngine

variable {σ : Type}

/-- The types of one's own in a tree stand for parsers that keep to what is documented, by the scans of these. -/
structure CommandTree.Documents (t : CommandTree σ) (own : CustomType σ → ArgumentParser σ) : Prop where
  documented : ∀ {id name type provider}, (t.node id).pattern = some (.argument name (.custom type) provider) →
    (own type).Documented
  scan_eq : ∀ {id name type provider}, (t.node id).pattern = some (.argument name (.custom type) provider) →
    type.scan = (own type).scan

/-- The outcome with a byte offset for the place. -/
def ParseResult.bytes (w : ParseResult σ) : ByteParse σ := ⟨w.trail, w.reader.bytes, w.failures⟩

namespace ByteParse

lemma rank_bytes (w : ParseResult σ) : w.bytes.rank = w.rank := by
  rw [rank, ParseResult.bytes, w.reader.canReadBytes_one_bytes]
  rfl

lemma best?_bytes (readings : List (ParseResult σ)) :
    best? (readings.map ParseResult.bytes) = (ParseResult.best? readings).map ParseResult.bytes := by
  induction readings with
  | nil => rfl
  | cons w rest ih =>
    rw [List.map_cons, best?, ih, ParseResult.best?]
    cases ParseResult.best? rest with
    | none => rfl
    | some v =>
      simp only [Option.map_some, rank_bytes]
      split <;> rfl

lemma error?_bytes (w : ParseResult σ) : w.bytes.error? = w.error? := by
  have hleft : w.bytes.reader.canReadBytes 1 = !w.isComplete := by
    rw [ParseResult.bytes, w.reader.canReadBytes_one_bytes, ParseResult.isComplete, Reader.canRead, Bool.not_not]
  rw [error?, hleft, ParseResult.error?]
  cases w.isComplete <;> rfl

lemma execute_bytes (w : ParseResult σ) : w.bytes.execute = w.execute := by
  rw [execute, error?_bytes, ParseResult.execute]
  rfl

end ByteParse

namespace ByteReader

lemma spanFrom_bytes (r : Reader) (n : Nat) :
    spanFrom r.cursor (r.advance n).bytes = some (.ok (r.ahead n), (r.advance n).bytes) :=
  dif_pos (r.cursor_le_cursor_advance n)

lemma skipped?_bytes (r : Reader) : r.bytes.skipped? = some (r.advance 1).bytes := by
  rw [skipped?, skip_bytes]
  rfl

/-- What an action does at a place: it gives a value and is that many characters further on, or it gives an error. -/
def Action.Gives {α : Type} (act : Action α) (r : Reader) : Except SyntaxError (α × Nat) → Prop
  | .ok (value, passed) => act r.bytes = some (.ok value, (r.advance passed).bytes)
  | .error e => ∃ next, act r.bytes = some (.error e, next)

/-- Behind a token something is left if and only if a byte is. -/
lemma canReadBytes_one_advance (r : Reader) (passed : Nat) :
    (r.advance passed).bytes.canReadBytes 1 = decide (passed < r.rest.length) := by
  rw [Reader.canReadBytes_one_bytes, Reader.rest_advance, ← Bool.coe_iff_coe, decide_eq_true_iff, Bool.not_eq_true',
    ← Bool.not_eq_true, List.isEmpty_iff, List.drop_eq_nil_iff, Nat.not_le]

/-- Behind a token that has ended a second character is left if and only if a second byte is. -/
lemma canReadBytes_two_advance {r : Reader} {passed : Nat} (hends : endsToken (r.rest.drop passed) = true) :
    (r.advance passed).bytes.canReadBytes 2 = decide (passed + 1 < r.rest.length) := by
  have hlength := List.length_drop (i := passed) (l := r.rest)
  rw [Reader.canReadBytes_bytes, Reader.canReadBytes, Reader.remainingWidth, Reader.rest_advance, decide_eq_decide]
  cases hrest : r.rest.drop passed with
  | nil =>
    rw [hrest, List.length_nil] at hlength
    rw [Text.width_nil]
    omega
  | cons c rest =>
    rw [hrest] at hends hlength
    have hwidth : c.utf8Size = 1 := beq_iff_eq.1 hends ▸ rfl
    rw [List.length_cons] at hlength
    rw [Text.width_cons, hwidth]
    cases rest with
    | nil =>
      rw [List.length_nil] at hlength
      rw [Text.width_nil]
      omega
    | cons d rest =>
      have hpos := d.utf8Size_pos
      rw [List.length_cons] at hlength
      rw [Text.width_cons]
      omega

end ByteReader

namespace CommandTree

variable {t : CommandTree σ} {own : CustomType σ → ArgumentParser σ} {id : NodeId} {r : Reader} {hop taken : Hop σ}

/-! ## Candidates -/

lemma candidatesBy_bytes (t : CommandTree σ) (id : NodeId) (r : Reader) :
    t.candidatesBy id r.bytes = some (t.candidates id r.rest) := by
  rw [candidatesBy]
  split
  · next hnone => simp only [candidates, List.isEmpty_iff.1 hnone, List.find?_nil]
  · rw [r.remaining?_bytes, Option.map_some, Reader.remaining, String.toList_ofList]

/-- Every argument of the tree is read as its type says. -/
lemma Documents.reads (h : t.Documents own) {name : String} {type : ArgumentType σ} {provider : Option (Provider σ)}
    (hpattern : (t.node id).pattern = some (.argument name type provider)) (source : Option σ) :
    (type.parse own source).Reads (type.scan source) := by
  cases type with
  | custom type =>
    change (own type source).Reads (type.scan source)
    rw [h.scan_eq hpattern]
    exact (h.documented hpattern).reads source
  | _ => exact ArgumentType.parse_reads_of_isBuiltIn own rfl source

section Record

variable {α : Type} {act : ByteReader.Action α} {scan : Scan α}

lemma record_of_failed (h : act.Reads scan) (record : α → Span → Hop σ) {reason : Reason} {passed : Nat}
    (hscan : scan r.rest = .failed reason passed) :
    (do let value ← act
        let span ← ByteReader.spanFrom r.cursor
        return record value span : ByteReader.Action (Hop σ)) r.bytes =
      some (.error ((r.advance passed).error reason), (r.advance passed).bytes) :=
  ByteReader.bind_error (h.failed hscan)

/-- What an action finds is recorded with the span that it has passed. -/
lemma record_of_found (h : act.Reads scan) (record : α → Span → Hop σ) {value : α} {passed : Nat}
    (hscan : scan r.rest = .found value passed) :
    (do let value ← act
        let span ← ByteReader.spanFrom r.cursor
        return record value span : ByteReader.Action (Hop σ)) r.bytes =
      some (.ok (record value (r.ahead passed)), (r.advance passed).bytes) :=
  (ByteReader.bind_ok (h.found hscan)).trans (ByteReader.bind_ok (ByteReader.spanFrom_bytes r passed))

end Record

/-- A node is matched by its parser as it is by its scan. -/
lemma matchNodeBy_gives (hown : t.Documents own) (r : Reader) (hop : Hop σ) (id : NodeId) :
    (t.matchNodeBy own hop id).Gives r (t.matchNode r hop id) := by
  unfold matchNodeBy
  cases hpattern : (t.node id).pattern with
  | none =>
    simp only [matchNode, hpattern, ByteReader.Action.Gives, r.advance_zero]
    rfl
  | some p =>
    cases p with
    | literal keyword =>
      have hreads := ByteReader.readKeyword_reads keyword
      cases hscan : Scan.keyword keyword r.rest with
      | mk outcome passed =>
        cases outcome with
        | ok value =>
          simp only [matchNode, hpattern, hscan]
          exact record_of_found hreads _ hscan
        | error reason =>
          simp only [matchNode, hpattern, hscan]
          exact ⟨_, record_of_failed hreads _ hscan⟩
    | argument name type provider =>
      have hreads := hown.reads hpattern (some hop.source)
      cases hscan : type.scan (some hop.source) r.rest with
      | mk outcome passed =>
        cases outcome with
        | ok value =>
          simp only [matchNode, hpattern, hscan]
          exact record_of_found hreads _ hscan
        | error reason =>
          simp only [matchNode, hpattern, hscan]
          exact ⟨_, record_of_failed hreads _ hscan⟩

/-- A token is matched by the parser of its node as it is by the scan. -/
lemma matchTokenBy_gives (hown : t.Documents own) (r : Reader) (hop : Hop σ) (id : NodeId) :
    (t.matchTokenBy own hop id).Gives r (t.matchToken r hop id) := by
  have hnode := matchNodeBy_gives hown r hop id
  unfold matchToken
  cases hmatch : t.matchNode r hop id with
  | error e =>
    rw [hmatch] at hnode
    obtain ⟨next, hnode⟩ := hnode
    exact ⟨next, ByteReader.bind_error hnode⟩
  | ok found =>
    obtain ⟨reached, passed⟩ := found
    rw [hmatch] at hnode
    have hends := ByteReader.unlessEnded_bytes (r.advance passed) (ByteReader.fail .expectedSeparator)
    simp only
    split
    · next hend =>
      exact (ByteReader.bind_ok hnode).trans (ByteReader.bind_ok (hends.trans (if_pos hend)))
    · next hend =>
      exact ⟨_, (ByteReader.bind_ok hnode).trans (ByteReader.bind_error (hends.trans (if_neg hend)))⟩

/-! ## Candidates one after the other -/

/-- What a step leads to, unless it fails or takes a redirect. -/
def resultOf (t : CommandTree σ) (r : Reader) : Step σ r → Option (ParseResult σ)
  | .arrived reached passed => some ⟨.single reached, r.advance passed, []⟩
  | .onward child reached passed _ => some (t.parseFrom child (r.advance (passed + 1)) reached)
  | _ => none

/-- What reading makes of the steps of candidates, behind others whose readings and errors are given. -/
def settle (t : CommandTree σ) (r : Reader) (hop : Hop σ) (steps : List (Step σ r)) (readings : List (ParseResult σ))
    (failures : List (NodeId × SyntaxError)) : ParseResult σ :=
  match steps.findSome? Step.jump? with
  | some j =>
    let next := r.advance (j.passed + 1)
    (t.parseFrom j.target next (landing hop.source j.target next)).behind j.hop
  | none =>
    (ParseResult.best? (readings ++ steps.filterMap (t.resultOf r))).getD
      ⟨.single hop, r, failures ++ steps.filterMap Step.failure?⟩

lemma parseFrom_eq_settle (t : CommandTree σ) (id : NodeId) (r : Reader) (hop : Hop σ) :
    t.parseFrom id r hop = t.settle r hop ((t.usable id r.rest hop.source).map (t.stepAt r hop)) [] [] := by
  rw [parseFrom, settle]
  cases ((t.usable id r.rest hop.source).map (t.stepAt r hop)).findSome? Step.jump? with
  | some j => rfl
  | none =>
    simp only [List.nil_append]
    congr 2

section Settle

variable {steps : List (Step σ r)} {readings : List (ParseResult σ)} {failures : List (NodeId × SyntaxError)}

lemma settle_nil : t.settle r hop [] readings failures = (ParseResult.best? readings).getD ⟨.single hop, r, failures⟩ := by
  simp only [settle, List.findSome?_nil, List.filterMap_nil, List.append_nil]

lemma settle_failed (id : NodeId) (e : SyntaxError) :
    t.settle r hop (.failed id e :: steps) readings failures = t.settle r hop steps readings (failures ++ [(id, e)]) := by
  simp only [settle, List.findSome?_cons, Step.jump?, List.filterMap_cons, resultOf, Step.failure?, List.append_assoc,
    List.singleton_append]

lemma settle_of_result {step : Step σ r} {w : ParseResult σ} (hresult : t.resultOf r step = some w)
    (hjump : step.jump? = none) (hfailure : step.failure? = none) :
    t.settle r hop (step :: steps) readings failures = t.settle r hop steps (readings ++ [w]) failures := by
  simp only [settle, List.findSome?_cons, hjump, List.filterMap_cons, hresult, hfailure, List.append_assoc,
    List.singleton_append]

lemma settle_of_jump {step : Step σ r} {j : Step.Jump σ r} (hjump : step.jump? = some j) :
    t.settle r hop (step :: steps) readings failures =
      (t.parseFrom j.target (r.advance (j.passed + 1)) (landing hop.source j.target (r.advance (j.passed + 1)))).behind
        j.hop := by
  simp only [settle, List.findSome?_cons, hjump]

end Settle

/-- A token that matches ends where it is left. -/
lemma endsToken_of_matchToken {passed : Nat} (h : t.matchToken r hop id = .ok (taken, passed)) :
    endsToken (r.rest.drop passed) = true := by
  unfold matchToken at h
  split at h
  · cases h
  · split at h
    · next hends =>
      cases h
      exact hends
    · cases h

section Tries

variable {readOn : NodeId → ByteReader → Hop σ → Option (ByteParse σ)} {passed : Nat}
  (htoken : t.matchTokenBy own hop id r.bytes = some (.ok taken, (r.advance passed).bytes))
  (hends : endsToken (r.rest.drop passed) = true) (rest : List NodeId) (readings : List (ByteParse σ))
  (failures : List (NodeId × SyntaxError))

include htoken

lemma tryEach_of_jump {target : NodeId} (htarget : (t.node id).target? = some target) (hmore : passed < r.rest.length) :
    t.tryEach own readOn r.bytes hop (id :: rest) readings failures =
      (readOn target (r.advance (passed + 1)).bytes (landing hop.source target (r.advance (passed + 1)))).map
        (ByteParse.behind taken) := by
  have hleft : (r.advance passed).bytes.canReadBytes 1 = true := by
    rw [ByteReader.canReadBytes_one_advance, decide_eq_true hmore]
  simp only [tryEach, htoken, htarget, hleft, if_true, ByteReader.skipped?_bytes, Reader.advance_advance]
  rw [Option.map_eq_bind]
  rfl

include hends

lemma tryEach_of_onward (htarget : (t.node id).target? = none) (hmore : passed + 1 < r.rest.length) :
    t.tryEach own readOn r.bytes hop (id :: rest) readings failures =
      (readOn id (r.advance (passed + 1)).bytes taken).bind fun w =>
        t.tryEach own readOn r.bytes hop rest (readings ++ [w]) failures := by
  have hleft : (r.advance passed).bytes.canReadBytes 2 = true := by
    rw [ByteReader.canReadBytes_two_advance hends, decide_eq_true hmore]
  simp only [tryEach, htoken, htarget, hleft, if_true, ByteReader.skipped?_bytes, Reader.advance_advance]
  rfl

lemma tryEach_of_arrived (hstop : ¬ t.goesOn r ⟨id, taken, passed⟩) :
    t.tryEach own readOn r.bytes hop (id :: rest) readings failures =
      t.tryEach own readOn r.bytes hop rest (readings ++ [⟨.single taken, (r.advance passed).bytes, []⟩]) failures := by
  cases htarget : (t.node id).target? with
  | some target =>
    have hleft : (r.advance passed).bytes.canReadBytes 1 = false := by
      rw [ByteReader.canReadBytes_one_advance, decide_eq_false (mt (goesOn_of_target htarget).2 hstop)]
    simp only [tryEach, htoken, htarget, hleft, Bool.false_eq_true, if_false]
  | none =>
    have hleft : (r.advance passed).bytes.canReadBytes 2 = false := by
      rw [ByteReader.canReadBytes_two_advance hends, decide_eq_false (mt (goesOn_of_no_target htarget).2 hstop)]
    simp only [tryEach, htoken, htarget, hleft, Bool.false_eq_true, if_false]

end Tries

/-- Candidates that are tried one after the other are chosen from as they are when all have been tried. -/
lemma tryEach_bytes (hown : t.Documents own) {readOn : NodeId → ByteReader → Hop σ → Option (ByteParse σ)}
    (hreadOn : ∀ id n hop, n < r.rest.length →
      readOn id (r.advance (n + 1)).bytes hop = some (t.parseFrom id (r.advance (n + 1)) hop).bytes)
    (ids : List NodeId) (readings : List (ParseResult σ)) (failures : List (NodeId × SyntaxError)) :
    t.tryEach own readOn r.bytes hop ids (readings.map ParseResult.bytes) failures =
      some (t.settle r hop (ids.map (t.stepAt r hop)) readings failures).bytes := by
  induction ids generalizing readings failures with
  | nil =>
    rw [tryEach, ByteParse.best?_bytes, List.map_nil, settle_nil]
    cases ParseResult.best? readings <;> rfl
  | cons id rest ih =>
    have htoken := matchTokenBy_gives hown r hop id
    -- a reading more among those that are given
    have hmore : ∀ w : ParseResult σ,
        t.tryEach own readOn r.bytes hop rest (readings.map ParseResult.bytes ++ [w.bytes]) failures =
          some (t.settle r hop (rest.map (t.stepAt r hop)) (readings ++ [w]) failures).bytes := by
      intro w
      have hih := ih (readings ++ [w]) failures
      rwa [List.map_append] at hih
    rw [List.map_cons]
    cases hmatch : t.matchToken r hop id with
    | error e =>
      rw [hmatch] at htoken
      obtain ⟨next, htoken⟩ := htoken
      rw [tryEach, htoken, stepAt_of_error hmatch, settle_failed]
      exact ih readings _
    | ok found =>
      obtain ⟨taken, passed⟩ := found
      rw [hmatch] at htoken
      have hends := endsToken_of_matchToken hmatch
      rw [stepAt_of_ok hmatch]
      cases hjump : (stepOf t r ⟨id, taken, passed⟩).jump? with
      | some j =>
        obtain ⟨hgo, htarget, hhop, hpassed⟩ := stepOf_jump hjump
        rw [settle_of_jump hjump, tryEach_of_jump htoken _ _ _ htarget hgo.passed_lt,
          hreadOn j.target passed _ hgo.passed_lt, hhop, hpassed]
        rfl
      | none =>
        rcases stepOf_of_no_jump hjump with ⟨hstop, hstep⟩ | ⟨hgo, htarget, hstep⟩
        · rw [hstep, settle_of_result rfl rfl rfl, tryEach_of_arrived htoken hends _ _ _ hstop]
          exact hmore ⟨.single taken, r.advance passed, []⟩
        · rw [hstep, settle_of_result rfl rfl rfl,
            tryEach_of_onward htoken hends _ _ _ htarget ((goesOn_of_no_target htarget).1 hgo),
            hreadOn id passed taken hgo.passed_lt]
          exact hmore (t.parseFrom id (r.advance (passed + 1)) taken)

/-- Reading on by byte offsets leads where reading on leads, if it may go deep enough. -/
theorem parseFromBy_bytes (hown : t.Documents own) {depth : Nat} (h : r.rest.length < depth) :
    t.parseFromBy own depth id r.bytes hop = some (t.parseFrom id r hop).bytes := by
  induction depth generalizing id r hop with
  | zero => exact absurd h (Nat.not_lt_zero _)
  | succ depth ih =>
    have hreadOn : ∀ id n hop, n < r.rest.length → t.parseFromBy own depth id (r.advance (n + 1)).bytes hop =
        some (t.parseFrom id (r.advance (n + 1)) hop).bytes := by
      intro id n hop hn
      have hless := Reader.length_rest_advance_lt hn
      exact ih (by omega)
    rw [parseFromBy, candidatesBy_bytes, parseFrom_eq_settle]
    exact tryEach_bytes hown hreadOn (t.usable id r.rest hop.source) [] []

/-- Reading a command by byte offsets leads where reading it leads. -/
theorem parseReaderBy_bytes (hown : t.Documents own) (r : Reader) (source : σ) :
    t.parseReaderBy own r.bytes source = some (t.parseReader r source).bytes := by
  have hdepth : r.rest.length < r.bytes.totalWidth + 1 := by
    have hlength := Text.length_le_width r.rest
    rw [Reader.totalWidth_bytes, Reader.totalWidth, Reader.remainingWidth]
    omega
  exact parseFromBy_bytes hown hdepth

lemma parseBy_bytes (hown : t.Documents own) (input : String) (source : σ) :
    t.parseReaderBy own (.ofString input) source = some (t.parse input source).bytes := by
  rw [← Reader.bytes_ofString]
  exact parseReaderBy_bytes hown (.ofString input) source

/-- A command that is read by byte offsets runs as it does anyway. -/
theorem executeBy_eq (hown : t.Documents own) (input : String) (source : σ) :
    t.executeBy own input source = some (t.execute input source) := by
  rw [executeBy, parseBy_bytes hown, Option.map_some, ByteParse.execute_bytes]
  rfl

end CommandTree

/-! ## Where reading stops -/

/-- What a type has to say by its parser where it is refused: its own error, or that the token does not end where the
parser has come to. -/
def ArgumentType.refusalBy (own : CustomType σ → ArgumentParser σ) (type : ArgumentType σ) (source : σ) (b : ByteReader) :
    Option SyntaxError :=
  (type.parse own (some source) b).map fun
    | (.error e, _) => e
    | (.ok _, next) => next.error .expectedSeparator

lemma ArgumentType.refusalBy_bytes {own : CustomType σ → ArgumentParser σ} {type : ArgumentType σ} {source : σ}
    (h : (type.parse own (some source)).Reads (type.scan (some source))) (r : Reader) :
    type.refusalBy own source r.bytes = some (type.refusal source r) := by
  cases hscan : type.scan (some source) r.rest with
  | mk outcome passed =>
    cases outcome with
    | error reason =>
      rw [refusalBy, h.failed hscan, refusal, hscan]
      rfl
    | ok value =>
      rw [refusalBy, h.found hscan, refusal, hscan]
      rfl

/-- A refusal that does not ask for a separator is the answer of the parser. -/
lemma ArgumentType.answer_of_refusal {own : CustomType σ → ArgumentParser σ} {type : ArgumentType σ} {source : σ}
    {r : Reader} {e : SyntaxError} (h : (type.parse own (some source)).Reads (type.scan (some source)))
    (hrefusal : e = type.refusal source r) (hreason : e.reason ≠ .expectedSeparator) :
    ∃ next, type.parse own (some source) r.bytes = some (.error e, next) := by
  obtain ⟨⟨answer, next⟩, hanswer, heq⟩ := Option.map_eq_some_iff.1 (hrefusal ▸ refusalBy_bytes h r)
  cases answer with
  | error e' => exact ⟨next, heq ▸ hanswer⟩
  | ok value => exact absurd (heq ▸ rfl) hreason

namespace CommandTree

variable {t : CommandTree σ} {own : CustomType σ → ArgumentParser σ}

/-- A mark is a single sign. -/
def markParser : ArgumentParser Unit := fun _ => do
  ByteReader.expect '@'
  return .bool true

/-- The type of marks. -/
def mark : CustomType Unit := { typeName := "Mark", scan := markParser.scan }

lemma markParser_documented : markParser.Documented := by
  have hreads := (ByteReader.expect_reads '@').map fun _ => Value.bool true
  exact ArgumentParser.documented_of_reads fun _ => hreads

/-- A keyword with a mark and a number below it. -/
def tagging : CommandTree Unit :=
  ⟨#[{ Node.root with children := [("tag", 1)] },
    ⟨some (.literal "tag"), [("mark", 2), ("level", 3)], none, none, none⟩,
    ⟨some (.argument "mark" (.custom mark) none), [], some fun _ => .ok 1, none, none⟩,
    ⟨some (.argument "level" (.integer ⟨1, 9⟩) none), [], some fun _ => .ok 2, none, none⟩]⟩

lemma tagging_reachable : tagging.Reachable :=
  .register (s := { NodeSpec.ofPattern (.literal "tag") with children :=
    [{ NodeSpec.ofPattern (.argument "mark" (.custom mark) none) with handler := some fun _ => .ok 1 },
      { NodeSpec.ofPattern (.argument "level" (.integer ⟨1, 9⟩) none) with handler := some fun _ => .ok 2 }] }) .empty rfl

lemma tagging_documents : tagging.Documents fun _ => markParser where
  documented _ := markParser_documented
  scan_eq {id} _ _ _ hpattern := by
    match id with
    | 0 => cases hpattern
    | 1 => cases hpattern
    | 2 =>
      cases hpattern
      rfl
    | 3 => cases hpattern
    | _ + 4 =>
      rw [node_of_size_le (Nat.le_add_left 4 _)] at hpattern
      cases hpattern

/-- Every error that reading an input records is about a place in it that is not before the one where reading stopped,
and none speaks of a keyword. -/
def LocatesFailures (t : CommandTree σ) (own : CustomType σ → ArgumentParser σ) (input : String) (source : σ) : Prop :=
  ∀ w, t.parseReaderBy own (.ofString input) source = some w → ∀ f ∈ w.failures,
    f.2.input = some input ∧
      (∃ offset, f.2.cursor = some offset ∧ w.reader.cursor ≤ offset ∧ offset ≤ Text.width input.toList ∧
        (Text.splitAt? input.toList offset).isSome) ∧
      ∀ k, f.2.reason ≠ .literalIncorrect k

/-- A parser that reads nothing and gives an error. -/
def refusing (error : ByteReader → SyntaxError) : ArgumentParser Unit := fun _ b => some (.error (error b), b)

lemma refusing_documented (reason : Reason) : (refusing fun b => b.error reason).Documented := by
  have hreads : ∀ source, ByteReader.Action.Reads (refusing (fun b => b.error reason) source)
      fun _ => .failed reason 0 := by
    intro source r
    rw [ByteReader.run_of_failed rfl, r.advance_zero]
    rfl
  exact ArgumentParser.documented_of_reads hreads

end CommandTree
end CommandEngine
