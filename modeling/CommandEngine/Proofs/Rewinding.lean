import CommandEngine.Proofs.Escapes
import CommandEngine.Proofs.Operations

/-!
# Where a read that fails leaves off

A read that fails leaves the reader where the token begins, so that something else can be tried there.  Two failures are
about a place inside quotes, and leave the reader at that place: an escape of a character that needs none is located at
that character, and a quote that is left open at the end of the input.  `Reader.FailsAt` says so for one failure and
`Token.Rewinds` for all failures of a read at a place.

How far a scan has passed when it fails is told by its reason (`Scan.FailsAfter`), which is shown scan by scan.  One
scan goes further: a truth value is read from a phrase, and an empty phrase in quotes has been passed when it is found
to be none.  `Token.rewinds_iff` says that every read of a token rewinds, except that of a truth value at an empty
phrase in quotes, and what happens there.
-/

namespace CommandEngine

/-- Whether a reason is about a place inside quotes. -/
def Reason.isInsideQuotes : Reason → Bool
  | invalidEscape _ | expectedEndOfQuote => true
  | _ => false

/-! ## How far a scan passes -/

namespace Scan

variable {α β : Type} {text : List Char}

/-- How far a scan of a token has passed when it fails for a reason. -/
inductive FailsAfter (text : List Char) : Reason → Nat → Prop
  /-- It has passed nothing. -/
  | start {reason : Reason} (hreason : reason.isInsideQuotes = false) : FailsAfter text reason 0
  /-- It has passed the opening quote, a body and the escape character. -/
  | badEscape {quote c : Char} {inner more : List Char} {body : List QuotedItem} (hquote : isQuote quote = true)
      (htext : text = quote :: inner) (h : Misescapes quote inner body c more) :
      FailsAfter text (.invalidEscape c) (1 + ((bodyText body).length + 1))
  /-- It has passed everything. -/
  | unclosed : FailsAfter text .expectedEndOfQuote text.length

/-- A scan that has passed as far as its reason says if it fails on a text. -/
def RewindsOn (scan : Scan α) (text : List Char) : Prop :=
  ∀ reason, (scan text).outcome = .error reason → FailsAfter text reason (scan text).passed

lemma rewindsOn_of_found {scan : Scan α} {value : α} {n : Nat} (h : scan text = .found value n) :
    RewindsOn scan text := by
  intro reason hreason
  rw [h] at hreason
  cases hreason

lemma rewindsOn_of_failed {scan : Scan α} {reason : Reason} {n : Nat} (h : scan text = .failed reason n)
    (hfails : FailsAfter text reason n) : RewindsOn scan text := by
  intro reason' hreason
  rw [h] at hreason ⊢
  cases hreason
  exact hfails

lemma RewindsOn.of_eq {scan scan' : Scan α} (h : RewindsOn scan text) (heq : scan' text = scan text) :
    RewindsOn scan' text := by
  intro reason hreason
  rw [heq] at hreason ⊢
  exact h reason hreason

lemma RewindsOn.map {scan : Scan α} (h : RewindsOn scan text) (f : α → β) :
    RewindsOn (fun text => (scan text).map f) text := by
  intro reason hreason
  rw [Scanned.passed_map]
  exact h reason (Scanned.map_outcome_error.1 hreason)

lemma number_rewindsOn [Numeral α] (text : List Char) : RewindsOn (number : Scan α) text := by
  rcases number_cases (α := α) text with hscan | ⟨token, hscan⟩ | ⟨value, hscan⟩
  · exact rewindsOn_of_failed hscan (.start rfl)
  · exact rewindsOn_of_failed hscan (.start rfl)
  · exact rewindsOn_of_found hscan

lemma bounded_rewindsOn [Numeral α] (b : Bounds α) (text : List Char) : RewindsOn (bounded b) text := by
  rcases bounded_cases b text with hscan | ⟨value, bound, hscan⟩ | ⟨value, bound, hscan⟩
  · exact (number_rewindsOn text).of_eq hscan
  · exact rewindsOn_of_failed hscan (.start rfl)
  · exact rewindsOn_of_failed hscan (.start rfl)

lemma word_rewindsOn (text : List Char) : RewindsOn word text := rewindsOn_of_found rfl

lemma symbol_rewindsOn (c : Char) (text : List Char) : RewindsOn (symbol c) text := by
  cases text with
  | nil => exact rewindsOn_of_failed rfl (.start rfl)
  | cons d rest =>
    by_cases hd : d = c
    · exact rewindsOn_of_found (if_pos hd)
    · exact rewindsOn_of_failed (if_neg hd) (.start rfl)

lemma ne_escape_of_isQuote {quote : Char} (h : isQuote quote = true) : quote ≠ escape := by
  rintro rfl
  exact absurd h (by decide)

/-- A scan that goes on up to the quote that comes next. -/
lemma rewindsOn_of_quote {scan : Scan String} {quote : Char} {inner : List Char} (hquote : isQuote quote = true)
    (h : scan (quote :: inner) = (upTo quote inner).after 1) : RewindsOn scan (quote :: inner) := by
  rcases upTo_cases quote inner with ⟨body, more, hcloses⟩ | ⟨body, c, more, hbad⟩ | hunclosed
  · rw [upTo_of_closes (ne_escape_of_isQuote hquote) hcloses] at h
    exact rewindsOn_of_found h
  · rw [upTo_of_misescapes hbad] at h
    exact rewindsOn_of_failed h (.badEscape hquote rfl hbad)
  · have hlength : 1 + inner.length = (quote :: inner).length := Nat.add_comm 1 _
    rw [hunclosed, Scanned.after, Scanned.failed, hlength] at h
    exact rewindsOn_of_failed h .unclosed

lemma quoted_rewindsOn (text : List Char) : RewindsOn quoted text := by
  cases text with
  | nil => exact rewindsOn_of_found rfl
  | cons c rest =>
    by_cases hquote : isQuote c = true
    · exact rewindsOn_of_quote hquote (if_pos hquote)
    · exact rewindsOn_of_failed (if_neg hquote) (.start rfl)

lemma phrase_rewindsOn (text : List Char) : RewindsOn phrase text := by
  cases text with
  | nil => exact rewindsOn_of_found rfl
  | cons c rest =>
    by_cases hquote : isQuote c = true
    · exact rewindsOn_of_quote hquote (if_pos hquote)
    · exact rewindsOn_of_found (if_neg hquote)

/-! ## Truth values -/

/-- A quote comes next, and is closed at once. -/
def OpensEmptyPhrase (text : List Char) : Prop :=
  ∃ quote more, isQuote quote = true ∧ text = quote :: quote :: more

lemma phrase_of_opensEmptyPhrase (h : OpensEmptyPhrase text) : phrase text = .found "" 2 := by
  obtain ⟨quote, more, hquote, rfl⟩ := h
  have hcloses : Closes quote (quote :: more) [] more := ⟨by simp [IsBody], rfl⟩
  rw [phrase, if_pos hquote, upTo_of_closes (ne_escape_of_isQuote hquote) hcloses]
  rfl

/-- A phrase is empty where there is no word, or where a quote is closed at once. -/
lemma phrase_eq_empty {n : Nat} (h : phrase text = .found "" n) : n = 0 ∨ OpensEmptyPhrase text := by
  cases text with
  | nil => exact .inl (congrArg Scanned.passed h).symm
  | cons c rest =>
    by_cases hquote : isQuote c = true
    · rw [phrase, if_pos hquote] at h
      rcases upTo_cases c rest with ⟨body, more, hcloses⟩ | ⟨body, d, more, hbad⟩ | hunclosed
      · rw [upTo_of_closes (ne_escape_of_isQuote hquote) hcloses] at h
        have hvalue : bodyValue body = [] :=
          String.ofList_injective (Except.ok.inj (congrArg Scanned.outcome h))
        -- every item stands for a character, so there is none before the closing quote
        obtain rfl := List.map_eq_nil_iff.1 hvalue
        exact .inr ⟨c, more, hquote, congrArg (c :: ·) hcloses.2⟩
      · rw [upTo_of_misescapes hbad] at h
        cases congrArg Scanned.outcome h
      · rw [hunclosed] at h
        cases congrArg Scanned.outcome h
    · rw [phrase, if_neg hquote] at h
      have htoken : (c :: rest).takeWhile isBareChar = [] :=
        String.ofList_injective (Except.ok.inj (congrArg Scanned.outcome h))
      have hlength : ((c :: rest).takeWhile isBareChar).length = n := congrArg Scanned.passed h
      rw [htoken] at hlength
      exact .inl hlength.symm

/-- The scan of a truth value passes too much at most where a phrase is opened and closed at once. -/
lemma boolean_rewindsOn (h : ¬ OpensEmptyPhrase text) : RewindsOn boolean text := by
  rcases boolean_cases text with ⟨reason, hphrase, hscan⟩ | ⟨hphrase, hscan⟩ | ⟨value, -, hscan⟩ | ⟨value, b, -, hscan⟩
  · exact rewindsOn_of_failed hscan (phrase_rewindsOn text reason hphrase)
  · have hnone : (phrase text).passed = 0 := (phrase_eq_empty (Scanned.eq_found hphrase rfl)).resolve_right h
    rw [hnone] at hscan
    exact rewindsOn_of_failed hscan (.start rfl)
  · exact rewindsOn_of_failed hscan (.start rfl)
  · exact rewindsOn_of_found hscan

end Scan

/-! ## Tokens -/

section Tokens

variable {σ α : Type} {text : List Char}

lemma TextKind.scan_rewindsOn (kind : TextKind) (text : List Char) : Scan.RewindsOn kind.scan text := by
  cases kind with
  | word => exact Scan.word_rewindsOn text
  | phrase => exact Scan.phrase_rewindsOn text
  | greedy => exact Scan.rewindsOn_of_found rfl

/-- Whether what is read is a token from its start.  What a terminator ends begins inside a token. -/
def Token.isWhole : Token σ α → Bool
  | upTo _ => false
  | _ => true

/-- Whether what is read is a truth value. -/
def Token.isTruth : Token σ α → Bool
  | boolean => true
  | argument .bool _ _ => true
  | _ => false

/-- A truth value is to be read where a phrase is opened and closed at once. -/
def Token.MeetsEmptyPhrase (token : Token σ α) (text : List Char) : Prop :=
  token.isTruth = true ∧ Scan.OpensEmptyPhrase text

lemma Token.scan_rewindsOn {token : Token σ α} (hwhole : token.isWhole = true)
    (h : ¬ token.MeetsEmptyPhrase text) : Scan.RewindsOn token.scan text := by
  cases token with
  | number α => exact Scan.number_rewindsOn text
  | word => exact Scan.word_rewindsOn text
  | quoted => exact Scan.quoted_rewindsOn text
  | phrase => exact Scan.phrase_rewindsOn text
  | upTo terminator => cases hwhole
  | boolean => exact Scan.boolean_rewindsOn fun hempty => h ⟨rfl, hempty⟩
  | symbol c => exact Scan.symbol_rewindsOn c text
  | argument type builtIn source =>
    cases type with
    | bool => exact (Scan.boolean_rewindsOn fun hempty => h ⟨rfl, hempty⟩).map Value.bool
    | integer b => exact (Scan.bounded_rewindsOn b text).map Value.int
    | long b => exact (Scan.bounded_rewindsOn b text).map Value.long
    | float b => exact (Scan.bounded_rewindsOn b text).map Value.float
    | double b => exact (Scan.bounded_rewindsOn b text).map Value.double
    | text kind => exact (kind.scan_rewindsOn text).map Value.string
    | custom own => cases builtIn

/-- An empty phrase in quotes is passed before it is refused as a truth value. -/
lemma Token.scan_of_meetsEmptyPhrase {token : Token σ α} (h : token.MeetsEmptyPhrase text) :
    token.scan text = .failed (.expectedValue .bool) 2 := by
  obtain ⟨htruth, hempty⟩ := h
  have hboolean : Scan.boolean text = .failed (.expectedValue .bool) 2 := by
    simp only [Scan.boolean, Scan.phrase_of_opensEmptyPhrase hempty, Scanned.found, if_true]
  cases token with
  | boolean => exact hboolean
  | argument type builtIn source =>
    cases type with
    | bool => exact congrArg (Scanned.map Value.bool) hboolean
    | _ => cases htruth
  | _ => cases htruth

end Tokens

/-! ## Places -/

/-- A read that began at `r` has failed and left the reader at `next`. -/
structure Reader.FailsAt (r : Reader) (e : SyntaxError) (next : Reader) : Prop where
  /-- The error is about the place where the reader is left. -/
  located : e = next.error e.reason
  /-- The first escape of a character that needs none is refused at that character. -/
  badEscape : ∀ c, e.reason = .invalidEscape c → ∃ quote inner body more, Scan.isQuote quote = true ∧
    r.rest = quote :: inner ∧ Scan.Misescapes quote inner body c more ∧
    next = ⟨r.past ++ quote :: (bodyText body ++ [Scan.escape]), c :: more⟩
  /-- A quote that is left open is missed at the end of the input. -/
  unclosed : e.reason = .expectedEndOfQuote → next = r.atEnd
  /-- Every other failure leaves the reader where it was. -/
  start : e.reason.isInsideQuotes = false → next = r

/-- A read rewinds at a place: if it fails, it leaves the reader where the token begins, or at the place inside quotes
that the failure is about. -/
def Token.Rewinds {σ α : Type} (token : Token σ α) (r : Reader) : Prop :=
  ∀ e next, r.run token.scan = (.error e, next) → r.FailsAt e next

namespace Reader

variable {r : Reader}

/-- What a scan has passed when it fails tells the place where the reader is left. -/
lemma failsAt_of_failsAfter {reason : Reason} {n : Nat} (h : Scan.FailsAfter r.rest reason n) :
    r.FailsAt ((r.advance n).error reason) (r.advance n) := by
  refine ⟨rfl, fun c hc => ?_, fun hunclosed => ?_, fun hstart => ?_⟩
  · obtain rfl : reason = .invalidEscape c := hc
    cases h with
    | start hreason => cases hreason
    | @badEscape quote _ inner more body hquote htext h =>
      refine ⟨quote, inner, body, more, hquote, htext, h, ?_⟩
      obtain ⟨past, ahead⟩ := r
      obtain rfl : ahead = quote :: inner := htext
      have htext : quote :: inner = (quote :: (bodyText body ++ [Scan.escape])) ++ c :: more := by simp [h.2.1]
      have hlength : 1 + ((bodyText body).length + 1) = (quote :: (bodyText body ++ [Scan.escape])).length := by
        simp [Nat.add_comm]
      rw [htext, hlength, advance_append]
  · obtain rfl : reason = .expectedEndOfQuote := hunclosed
    cases h with
    | start hreason => cases hreason
    | unclosed => exact r.advance_length
  · cases h with
    | start hreason => exact r.advance_zero
    | badEscape => cases hstart
    | unclosed => cases hstart

lemma cursor_advance_emptyPhrase (h : Scan.OpensEmptyPhrase r.rest) : (r.advance 2).cursor = r.cursor + 2 := by
  obtain ⟨quote, more, hquote, hrest⟩ := h
  have hsize : quote.utf8Size = 1 := by
    simp only [Scan.isQuote, Bool.or_eq_true, beq_iff_eq] at hquote
    rcases hquote with rfl | rfl <;> rfl
  rw [cursor_advance, hrest]
  simp [Text.width_cons, hsize]

end Reader

/-- At an empty phrase in quotes a truth value is missed only behind it, where the reader stays. -/
lemma Token.run_of_meetsEmptyPhrase {σ α : Type} {token : Token σ α} {r : Reader} (h : token.MeetsEmptyPhrase r.rest) :
    r.run token.scan = (.error ((r.advance 2).error (.expectedValue .bool)), r.advance 2) ∧
      (r.advance 2).cursor = r.cursor + 2 := by
  refine ⟨?_, Reader.cursor_advance_emptyPhrase h.2⟩
  simp only [Reader.run, scan_of_meetsEmptyPhrase h]
  rfl

/-- Every read of a token rewinds, wherever it begins, unless it is that of a truth value at an empty phrase in quotes.
That one fails behind the phrase, two bytes ahead. -/
theorem Token.rewinds_iff {σ α : Type} {token : Token σ α} (hwhole : token.isWhole = true) (r : Reader) :
    (token.Rewinds r ↔ ¬ token.MeetsEmptyPhrase r.rest) ∧
      (token.MeetsEmptyPhrase r.rest →
        r.run token.scan = (.error ((r.advance 2).error (.expectedValue .bool)), r.advance 2) ∧
          (r.advance 2).cursor = r.cursor + 2) := by
  refine ⟨⟨fun hrewinds hmeets => ?_, fun hnot e next hrun => ?_⟩, run_of_meetsEmptyPhrase⟩
  · -- a missing value is about no place inside quotes, so the reader would have to be back at the start
    obtain ⟨hrun, hcursor⟩ := run_of_meetsEmptyPhrase hmeets
    have hback : r.advance 2 = r := (hrewinds _ _ hrun).start rfl
    rw [hback] at hcursor
    omega
  · obtain ⟨reason, houtcome, rfl, rfl⟩ := Reader.outcome_of_run hrun
    exact Reader.failsAt_of_failsAfter (scan_rewindsOn hwhole hnot reason houtcome)

/-- Two quotes with nothing between them are no truth value, but they have been passed when that is found out. -/
theorem Token.not_rewinds_twoQuotes :
    (Reader.ofString "\"\"").cursor = 0 ∧
      (Reader.ofString "\"\"").run (boolean (σ := Unit)).scan =
        (.error (.located (.expectedValue .bool) "\"\"" 2), ⟨"\"\"".toList, []⟩) ∧
      Reader.cursor ⟨"\"\"".toList, []⟩ = 2 ∧ ¬ (boolean (σ := Unit)).Rewinds (Reader.ofString "\"\"") := by
  have hrun : (Reader.ofString "\"\"").run (boolean (σ := Unit)).scan =
      (.error (.located (.expectedValue .bool) "\"\"" 2), ⟨"\"\"".toList, []⟩) := by decide +kernel
  refine ⟨rfl, hrun, by decide, fun hrewinds => ?_⟩
  have hback := (hrewinds _ _ hrun).start rfl
  exact absurd hback (by decide)

/-- Behind a character of two bytes: an empty phrase in quotes, behind which the read of a truth value ends up; a phrase
that is refused as a truth value where it begins; and one with an escape of a letter. -/
theorem Token.rewinds_iff_quotes :
    (boolean (σ := Unit)).isWhole = true ∧
      ¬ (boolean (σ := Unit)).Rewinds ⟨"é ".toList, "'' x".toList⟩ ∧
      (⟨"é ".toList, "'' x".toList⟩ : Reader).run (boolean (σ := Unit)).scan =
        (.error (.located (.expectedValue .bool) "é '' x" 5), ⟨"é ''".toList, " x".toList⟩) ∧
      (boolean (σ := Unit)).Rewinds ⟨"é ".toList, "'no' x".toList⟩ ∧
      (phrase (σ := Unit)).Rewinds ⟨"é ".toList, "'a\\b' x".toList⟩ := by
  have hmeets : (boolean (σ := Unit)).MeetsEmptyPhrase "'' x".toList := ⟨rfl, '\'', " x".toList, rfl, rfl⟩
  have hother : ¬ (boolean (σ := Unit)).MeetsEmptyPhrase "'no' x".toList := by
    rintro ⟨-, quote, more, -, htext⟩
    obtain ⟨rfl, hrest⟩ := List.cons.inj htext
    exact absurd (List.cons.inj hrest).1 (by decide)
  have hsound := @rewinds_iff Unit Bool boolean rfl ⟨"é ".toList, "'' x".toList⟩
  have hplace : Reader.advance ⟨"é ".toList, "'' x".toList⟩ 2 = ⟨"é ''".toList, " x".toList⟩ := by decide
  refine ⟨rfl, fun hrewinds => hsound.1.1 hrewinds hmeets, ?_, (rewinds_iff rfl _).1.2 hother,
    (rewinds_iff rfl _).1.2 fun hmeets => ?_⟩
  · rw [(hsound.2 hmeets).1, hplace]
    decide +kernel
  · cases hmeets.1

end CommandEngine
