import CommandEngine.ByteReader
import Mathlib.Data.String.Basic

/-!
# What byte offsets stand for

At the offset of a place (`Reader.bytes`) a byte reader sees what the place sees: the characters before it, the
characters after it, and the next of them.  Adding the width of that character leads to the place after it, taking
the width off again leads back, and an offset that was noted earlier leads back to where it was noted.

`ByteReader.Action.Reads` says of an action that it does at every place what reading by a scan does: it never breaks
off, it gives the same value or the same error, and it leaves the reader at the offset of the place that the scan
leads to.  There is one such theorem for each way of reading, and the loops are met by induction on the text ahead.
-/

namespace CommandEngine

variable {α β : Type}

/-! ## Actions one after another -/

namespace ByteReader

lemma bind_ok {act : Action α} {f : α → Action β} {b next : ByteReader} {value : α}
    (h : act b = some (.ok value, next)) : (act >>= f) b = f value next := by
  have hbind : (act >>= f) b = (act b).bind fun (outcome, next) => ExceptT.bindCont f outcome next := rfl
  rw [hbind, h]
  rfl

lemma bind_error {act : Action α} {f : α → Action β} {b next : ByteReader} {e : SyntaxError}
    (h : act b = some (.error e, next)) : (act >>= f) b = some (.error e, next) := by
  have hbind : (act >>= f) b = (act b).bind fun (outcome, next) => ExceptT.bindCont f outcome next := rfl
  rw [hbind, h]
  rfl

lemma get_bind (f : ByteReader → Action β) (b : ByteReader) : ((get : Action ByteReader) >>= f) b = f b b := rfl

lemma setCursor_apply (offset : Nat) (b : ByteReader) : setCursor offset b = some (.ok (), ⟨b.input, offset⟩) := rfl

end ByteReader

/-! ## Standing at a place -/

/-- The byte offset of a place, with the input. -/
def Reader.bytes (r : Reader) : ByteReader := ⟨r.input, r.cursor⟩

namespace Reader

variable {r : Reader}

lemma bytes_ofString (input : String) : (ofString input).bytes = .ofString input := by
  simp [bytes, Reader.input, ofString, chars, cursor, ByteReader.ofString]

lemma cursor_bytes (r : Reader) : r.bytes.cursor = r.cursor := rfl

lemma splitAt?_bytes (r : Reader) : Text.splitAt? r.bytes.input.toList r.bytes.cursor = some (r.past, r.rest) := by
  rw [bytes, input, String.toList_ofList]
  exact r.splitAt?_cursor

lemma remaining?_bytes (r : Reader) : r.bytes.remaining? = some r.remaining := by
  rw [ByteReader.remaining?, splitAt?_bytes]
  rfl

lemma readText?_bytes (r : Reader) : r.bytes.readText? = some r.readText := by
  rw [ByteReader.readText?, splitAt?_bytes]
  rfl

lemma peek?_bytes (r : Reader) : r.bytes.peek? = some r.peek? := by
  rw [ByteReader.peek?, remaining?_bytes, Option.map_some, remaining, String.toList_ofList]
  rfl

lemma totalWidth_bytes (r : Reader) : r.bytes.totalWidth = r.totalWidth := by
  rw [ByteReader.totalWidth, bytes, input, String.toList_ofList, totalWidth_eq]

lemma canReadBytes_bytes (r : Reader) (n : Nat) : r.bytes.canReadBytes n = r.canReadBytes n := by
  rw [ByteReader.canReadBytes, totalWidth_bytes, totalWidth, canReadBytes, decide_eq_decide]
  exact Nat.add_le_add_iff_left

/-- Something is left if and only if a byte is. -/
lemma canReadBytes_one_bytes (r : Reader) : r.bytes.canReadBytes 1 = !r.rest.isEmpty := by
  rw [canReadBytes_bytes, canReadBytes, remainingWidth]
  cases r.rest with
  | nil => rfl
  | cons c rest =>
    have hpos := c.utf8Size_pos
    rw [Text.width_cons, List.isEmpty_cons, Bool.not_false, decide_eq_true_iff]
    omega

lemma error_bytes (r : Reader) (reason : Reason) : r.bytes.error reason = r.error reason := rfl

/-- A place ahead is in the same input. -/
lemma bytes_advance (r : Reader) (n : Nat) :
    (r.advance n).bytes = ⟨r.bytes.input, r.cursor + Text.width (r.rest.take n)⟩ := by
  rw [bytes, r.input_advance, cursor_advance]
  rfl

/-- At the end of the input there is nothing to pass. -/
lemma advance_of_nil (r : Reader) (h : r.rest = []) (n : Nat) : r.advance n = r := by
  obtain ⟨past, rest⟩ := r
  obtain rfl : rest = [] := h
  rw [advance, List.take_nil, List.drop_nil, List.append_nil]

lemma peek?_of_nil (r : Reader) (h : r.rest = []) : r.peek? = none := by
  rw [peek?, h, List.head?_nil]

lemma peek?_of_cons (r : Reader) {c : Char} {rest : List Char} (h : r.rest = c :: rest) : r.peek? = some c := by
  rw [peek?, h, List.head?_cons]

/-- Adding the width of the next character leads past it. -/
lemma past_bytes {c : Char} {rest : List Char} (h : r.rest = c :: rest) : r.bytes.past c = (r.advance 1).bytes := by
  rw [bytes_advance, h]
  rfl

/-- There is nothing to pass, or a next character and its width leads past it. -/
lemma peek?_cases (r : Reader) :
    r.peek? = none ∧ r.skip = r ∨ ∃ c, r.peek? = some c ∧ r.bytes.past c = r.skip.bytes := by
  cases hrest : r.rest with
  | nil => exact .inl ⟨r.peek?_of_nil hrest, r.advance_of_nil hrest 1⟩
  | cons c rest => exact .inr ⟨c, r.peek?_of_cons hrest, past_bytes hrest⟩

lemma past_cons_bytes (past : List Char) (c : Char) (rest : List Char) :
    (Reader.mk past (c :: rest)).bytes.past c = (Reader.mk (past ++ [c]) rest).bytes :=
  past_bytes rfl

lemma advance_cons (past : List Char) (c : Char) (rest : List Char) (n : Nat) :
    (Reader.mk past (c :: rest)).advance (1 + n) = (Reader.mk (past ++ [c]) rest).advance n := by
  rw [Nat.add_comm, advance, List.take_succ_cons, List.drop_succ_cons, advance, List.append_assoc]
  rfl

/-- Taking the width off again leads back before it. -/
lemma before_past_bytes (r : Reader) (c : Char) : (r.bytes.past c).before c = r.bytes := by
  simp [ByteReader.before, ByteReader.past, Reader.bytes]

lemma before_cons_bytes (past : List Char) (c : Char) (rest : List Char) :
    (Reader.mk (past ++ [c]) rest).bytes.before c = (Reader.mk past (c :: rest)).bytes := by
  rw [← past_cons_bytes, before_past_bytes]

/-- An earlier offset leads back to where it was noted. -/
lemma setCursor_bytes_advance (r : Reader) (n : Nat) :
    ByteReader.setCursor r.cursor (r.advance n).bytes = some (.ok (), r.bytes) := by
  rw [ByteReader.setCursor_apply, bytes_advance]
  rfl

end Reader

namespace ByteReader

variable {r : Reader}

lemma peek_bytes (r : Reader) : peek r.bytes = some (.ok r.peek?, r.bytes) := by
  rw [peek, r.peek?_bytes]
  rfl

lemma remaining_bytes (r : Reader) : remaining r.bytes = some (.ok r.remaining, r.bytes) := by
  rw [remaining, r.remaining?_bytes]
  rfl

/-- What lies between a place and one ahead of it is cut out of the input. -/
lemma sliceFrom_bytes (r : Reader) (n : Nat) :
    sliceFrom r.cursor (r.advance n).bytes = some (.ok (String.ofList (r.rest.take n)), (r.advance n).bytes) := by
  have hslice := r.slice?_advance n
  rw [sliceFrom, Reader.bytes, Reader.input, String.toList_ofList, Reader.chars_advance, hslice]
  rfl

/-- A token that is rejected is not passed. -/
lemma reject_bytes (r : Reader) (n : Nat) (reason : Reason) :
    (reject r.cursor reason : Action α) (r.advance n).bytes = some (.error (r.error reason), r.bytes) := by
  rw [reject, bind_ok (r.setCursor_bytes_advance n)]
  rfl

lemma skip_bytes (r : Reader) : skip r.bytes = some (.ok (), r.skip.bytes) := by
  rw [skip, bind_ok (peek_bytes r)]
  obtain ⟨hpeek, hskip⟩ | ⟨c, hpeek, hskip⟩ := r.peek?_cases
  · rw [hpeek, hskip]
    rfl
  · rw [hpeek, ← hskip]
    rfl

lemma take_bytes (r : Reader) : take r.bytes = some (.ok r.peek?, r.skip.bytes) := by
  rw [take, bind_ok (peek_bytes r)]
  obtain ⟨hpeek, hskip⟩ | ⟨c, hpeek, hskip⟩ := r.peek?_cases
  · rw [hpeek, hskip]
    rfl
  · rw [hpeek, ← hskip]
    rfl

/-- The loop stops where the run of characters ends. -/
lemma skipWhile_bytes (p : Char → Bool) (r : Reader) :
    r.bytes.skipWhile p = some (r.advance (r.rest.takeWhile p).length).bytes := by
  obtain ⟨past, rest⟩ := r
  induction rest generalizing past with
  | nil =>
    rw [skipWhile, Reader.peek?_bytes, Reader.advance_of_nil _ rfl]
    rfl
  | cons c rest ih =>
    have hpast : (Reader.mk past (c :: rest)).bytes.past c = (Reader.mk (past ++ [c]) rest).bytes :=
      Reader.past_bytes rfl
    rw [skipWhile, Reader.peek?_bytes]
    simp only [Reader.peek?, List.head?_cons]
    by_cases hc : p c
    · rw [if_pos hc, hpast, ih, List.takeWhile_cons_of_pos hc]
      simp [Reader.advance, Reader.bytes, Reader.input, Reader.chars, Reader.cursor]
    · rw [if_neg hc, List.takeWhile_cons_of_neg hc, List.length_nil, Reader.advance_zero]

lemma skipAll_bytes (p : Char → Bool) (r : Reader) :
    skipAll p r.bytes = some (.ok (), (r.advance (r.rest.takeWhile p).length).bytes) := by
  rw [skipAll, skipWhile_bytes]
  rfl

/-! ## Tokens -/

/-- An action does at every place what reading by a scan does. -/
def Action.Reads (act : Action α) (scan : Scan α) : Prop :=
  ∀ r : Reader, act r.bytes = some ((r.run scan).1, (r.run scan).2.bytes)

/-- What a scan finds is read, and the reader is left behind it. -/
lemma run_of_found {scan : Scan α} {value : α} {n : Nat} (h : scan r.rest = .found value n) :
    r.run scan = (.ok value, r.advance n) := by
  rw [Reader.run, h]
  rfl

lemma run_of_failed {scan : Scan α} {reason : Reason} {n : Nat} (h : scan r.rest = .failed reason n) :
    r.run scan = (.error ((r.advance n).error reason), r.advance n) := by
  rw [Reader.run, h]
  rfl

lemma Action.Reads.found {act : Action α} {scan : Scan α} (h : act.Reads scan) {value : α} {n : Nat}
    (hscan : scan r.rest = .found value n) : act r.bytes = some (.ok value, (r.advance n).bytes) := by
  rw [h r, run_of_found hscan]

lemma Action.Reads.failed {act : Action α} {scan : Scan α} (h : act.Reads scan) {reason : Reason} {n : Nat}
    (hscan : scan r.rest = .failed reason n) :
    act r.bytes = some (.error ((r.advance n).error reason), (r.advance n).bytes) := by
  rw [h r, run_of_failed hscan]

/-- A run of characters that has been passed is cut out of the input again. -/
lemma sliceFrom_token_bytes (p : Char → Bool) (r : Reader) :
    sliceFrom r.cursor (r.advance (r.rest.takeWhile p).length).bytes =
      some (.ok (String.ofList (r.rest.takeWhile p)), (r.advance (r.rest.takeWhile p).length).bytes) := by
  have htake : r.rest.take (r.rest.takeWhile p).length = r.rest.takeWhile p :=
    (List.prefix_iff_eq_take.1 (List.takeWhile_prefix p)).symm
  rw [sliceFrom_bytes, htake]

theorem readNumber_reads [Numeral α] : (readNumber : Action α).Reads Scan.number := by
  intro r
  rw [readNumber, get_bind, r.cursor_bytes, bind_ok (skipAll_bytes Scan.isNumberChar r),
    bind_ok (sliceFrom_token_bytes Scan.isNumberChar r)]
  by_cases htoken : r.rest.takeWhile Scan.isNumberChar = []
  · have hscan : (Scan.number r.rest : Scanned α) = .failed (.expectedValue (Numeral.kind α)) 0 := by
      simp only [Scan.number, htoken, if_true]
    rw [run_of_failed hscan, htoken, List.length_nil, Reader.advance_zero]
    rfl
  · have hne : String.ofList (r.rest.takeWhile Scan.isNumberChar) ≠ "" := by
      intro h
      exact htoken (by simpa using congrArg String.toList h)
    rw [if_neg hne, String.toList_ofList]
    cases hread : (Numeral.ofText? (r.rest.takeWhile Scan.isNumberChar) : Option α) with
    | some value =>
      have hscan : (Scan.number r.rest : Scanned α) = .found value (r.rest.takeWhile Scan.isNumberChar).length := by
        simp only [Scan.number, htoken, if_false, hread]
      rw [run_of_found hscan]
      rfl
    | none =>
      have hscan : (Scan.number r.rest : Scanned α) =
          .failed (.invalidValue (Numeral.kind α) (String.ofList (r.rest.takeWhile Scan.isNumberChar))) 0 := by
        simp only [Scan.number, htoken, if_false, hread]
      rw [run_of_failed hscan, Reader.advance_zero]
      exact reject_bytes r _ _

theorem readBounded_reads [Numeral α] (bounds : Bounds α) : (readBounded bounds).Reads (Scan.bounded bounds) := by
  intro r
  rw [readBounded, get_bind]
  rcases Scan.number_cases (α := α) r.rest with hscan | ⟨token, hscan⟩ | ⟨value, hscan⟩
  · rw [bind_error (readNumber_reads.failed hscan)]
    have hbounded : Scan.bounded bounds r.rest = .failed (.expectedValue (Numeral.kind α)) 0 := by
      simp only [Scan.bounded, hscan, Scanned.failed]
    rw [run_of_failed hbounded]
  · rw [bind_error (readNumber_reads.failed hscan)]
    have hbounded : Scan.bounded bounds r.rest = .failed (.invalidValue (Numeral.kind α) token) 0 := by
      simp only [Scan.bounded, hscan, Scanned.failed]
    rw [run_of_failed hbounded]
  · rw [bind_ok (readNumber_reads.found hscan)]
    by_cases hmin : Numeral.below value bounds.min
    · have hbounded : Scan.bounded bounds r.rest =
          .failed (.tooSmall (Numeral.kind α) (Numeral.text value) (Numeral.text bounds.min)) 0 := by
        simp only [Scan.bounded, hscan, Scanned.found, hmin, if_true]
      rw [run_of_failed hbounded, if_pos hmin, Reader.advance_zero]
      exact bind_error (reject_bytes r _ _)
    · by_cases hmax : Numeral.below bounds.max value
      · have hbounded : Scan.bounded bounds r.rest =
            .failed (.tooBig (Numeral.kind α) (Numeral.text value) (Numeral.text bounds.max)) 0 := by
          simp only [Scan.bounded, hscan, Scanned.found, hmin, hmax, if_true, if_false, Bool.false_eq_true]
        rw [run_of_failed hbounded, if_neg hmin, if_pos hmax, Reader.advance_zero]
        exact bind_error (reject_bytes r _ _)
      · have hbounded : Scan.bounded bounds r.rest =
            .found value (r.rest.takeWhile Scan.isNumberChar).length := by
          simp only [Scan.bounded, hscan, Scanned.found, hmin, hmax, if_false, Bool.false_eq_true]
        rw [run_of_found hbounded, if_neg hmin, if_neg hmax]
        rfl

theorem readWord_reads : readWord.Reads Scan.word := by
  intro r
  have hscan : Scan.word r.rest =
      .found (String.ofList (r.rest.takeWhile Scan.isBareChar)) (r.rest.takeWhile Scan.isBareChar).length := rfl
  rw [readWord, get_bind, r.cursor_bytes, bind_ok (skipAll_bytes Scan.isBareChar r), run_of_found hscan]
  exact sliceFrom_token_bytes Scan.isBareChar r

/-- What reading up to a terminator gives, with what has been read so far in front. -/
def spelled (r : Reader) (text : String) (s : Scanned (List Char)) : Option (Except SyntaxError String × ByteReader) :=
  let next := r.advance s.passed
  some ((s.outcome.map fun more => text ++ String.ofList more).mapError next.error, next.bytes)

lemma spelled_after (past : List Char) (c : Char) (rest : List Char) (text : String) (s : Scanned (List Char)) :
    spelled ⟨past, c :: rest⟩ text (s.after 1) = spelled ⟨past ++ [c], rest⟩ text s := by
  have hnext : (Reader.mk past (c :: rest)).advance (s.after 1).passed =
      (Reader.mk (past ++ [c]) rest).advance s.passed := Reader.advance_cons past c rest s.passed
  rw [spelled, spelled, hnext]
  rfl

/-- A character that has been read stands behind what was read before it. -/
lemma spelled_map (r : Reader) (c : Char) (text : String) (s : Scanned (List Char)) :
    spelled r text (s.map (c :: ·)) = spelled r (text.push c) s := by
  obtain ⟨outcome, passed⟩ := s
  cases outcome with
  | error reason => rfl
  | ok more =>
    have htext : text ++ String.ofList (c :: more) = text.push c ++ String.ofList more := by
      simp [← String.toList_inj]
    simp only [spelled, Scanned.map, Scanned.found, Except.map, htext]

lemma spelled_failed (r : Reader) (text : String) (reason : Reason) :
    spelled r text (.failed reason 0) = some (.error (r.error reason), r.bytes) := by
  have hnext : r.advance (Scanned.failed reason 0 : Scanned (List Char)).passed = r := r.advance_zero
  rw [spelled, hnext]
  rfl

lemma readUntilFrom_nil (terminator : Char) (escaped : Bool) (text : String) (past : List Char) :
    readUntilFrom terminator escaped text (Reader.mk past []).bytes =
      some (.error ((Reader.mk past []).error .expectedEndOfQuote), (Reader.mk past []).bytes) := by
  rw [readUntilFrom, Reader.peek?_bytes]
  rfl

lemma readUntilFrom_cons (terminator : Char) (escaped : Bool) (text : String) (past : List Char) (c : Char)
    (rest : List Char) :
    readUntilFrom terminator escaped text (Reader.mk past (c :: rest)).bytes =
      if escaped then
        if c = terminator ∨ c = Scan.escape then
          readUntilFrom terminator false (text.push c) (Reader.mk (past ++ [c]) rest).bytes
        else
          some (.error ((Reader.mk past (c :: rest)).error (.invalidEscape c)), (Reader.mk past (c :: rest)).bytes)
      else if c = Scan.escape then readUntilFrom terminator true text (Reader.mk (past ++ [c]) rest).bytes
      else if c = terminator then some (.ok text, (Reader.mk (past ++ [c]) rest).bytes)
      else readUntilFrom terminator false (text.push c) (Reader.mk (past ++ [c]) rest).bytes := by
  rw [readUntilFrom, Reader.peek?_bytes]
  simp only [Reader.peek?, List.head?_cons, Reader.past_cons_bytes, Reader.before_cons_bytes, Reader.error_bytes]

/-- The loop does what the scan does. -/
lemma readUntilFrom_bytes (terminator : Char) (rest : List Char) (past : List Char) (text : String) :
    readUntilFrom terminator false text (Reader.mk past rest).bytes =
      spelled ⟨past, rest⟩ text (Scan.untilChars terminator rest) := by
  fun_induction Scan.untilChars terminator rest generalizing past text with
  | case1 => rw [readUntilFrom_nil, spelled_failed]
  | case2 =>
    rw [readUntilFrom_cons, if_neg Bool.false_ne_true, if_pos rfl, readUntilFrom_nil, ← spelled_failed _ text,
      ← spelled_after]
    rfl
  | case3 d more hd ih =>
    rw [readUntilFrom_cons, if_neg Bool.false_ne_true, if_pos rfl, readUntilFrom_cons, if_pos rfl, if_pos hd, ih,
      ← spelled_map, ← spelled_after, ← spelled_after, Scanned.after_after]
  | case4 d more hd =>
    rw [readUntilFrom_cons, if_neg Bool.false_ne_true, if_pos rfl, readUntilFrom_cons, if_pos rfl, if_neg hd,
      ← spelled_failed _ text, ← spelled_after]
    rfl
  | case5 rest hne =>
    rw [readUntilFrom_cons, if_neg Bool.false_ne_true, if_neg hne, if_pos rfl]
    simp [spelled, Scanned.found, Except.map, Except.mapError, Reader.advance]
  | case6 c rest hne hne' ih =>
    rw [readUntilFrom_cons, if_neg Bool.false_ne_true, if_neg hne, if_neg hne', ih, ← spelled_map, ← spelled_after]

theorem readUntil_reads (terminator : Char) : (readUntil terminator).Reads (Scan.upTo terminator) := by
  rintro ⟨past, rest⟩
  rw [readUntil, readUntilFrom_bytes, Reader.run, Scan.upTo]
  obtain ⟨outcome, passed⟩ := Scan.untilChars terminator rest
  cases outcome with
  | error reason => rfl
  | ok more => simp [spelled, Scanned.map, Scanned.found, Except.map, Except.mapError]

/-- What is read behind the next character is what is scanned behind it. -/
lemma bind_skip_bytes {act : Action α} {scan : Scan α} (h : act.Reads scan) {c : Char} {rest : List Char}
    (hrest : r.rest = c :: rest) :
    (do
      skip
      act) r.bytes = some ((r.run fun _ => (scan rest).after 1).1, (r.run fun _ => (scan rest).after 1).2.bytes) := by
  obtain ⟨past, rest'⟩ := r
  obtain rfl : rest' = c :: rest := hrest
  have hskip : (Reader.mk past (c :: rest)).skip = Reader.mk (past ++ [c]) rest := rfl
  have hnext : (Reader.mk past (c :: rest)).advance ((scan rest).after 1).passed =
      (Reader.mk (past ++ [c]) rest).advance (scan rest).passed := Reader.advance_cons past c rest _
  rw [bind_ok (skip_bytes _), hskip, h, Reader.run, Reader.run, hnext]
  rfl

theorem readQuoted_reads : readQuoted.Reads Scan.quoted := by
  intro r
  rw [readQuoted, bind_ok (peek_bytes r)]
  cases hrest : r.rest with
  | nil =>
    have hscan : Scan.quoted r.rest = .found "" 0 := by rw [hrest]; rfl
    rw [r.peek?_of_nil hrest, run_of_found hscan, Reader.advance_zero]
    rfl
  | cons c rest =>
    rw [r.peek?_of_cons hrest]
    by_cases hc : Scan.isQuote c
    · have hscan : Scan.quoted r.rest = (Scan.upTo c rest).after 1 := by rw [hrest, Scan.quoted, if_pos hc]
      rw [Reader.run, hscan]
      simp only [hc, if_true]
      exact bind_skip_bytes (readUntil_reads c) hrest
    · have hscan : Scan.quoted r.rest = .failed .expectedStartOfQuote 0 := by rw [hrest, Scan.quoted, if_neg hc]
      rw [run_of_failed hscan, Reader.advance_zero]
      simp only [hc, Bool.false_eq_true, if_false]
      rfl

theorem readPhrase_reads : readPhrase.Reads Scan.phrase := by
  intro r
  rw [readPhrase, bind_ok (peek_bytes r)]
  cases hrest : r.rest with
  | nil =>
    have hscan : Scan.phrase r.rest = .found "" 0 := by rw [hrest]; rfl
    rw [r.peek?_of_nil hrest, run_of_found hscan, Reader.advance_zero]
    rfl
  | cons c rest =>
    rw [r.peek?_of_cons hrest]
    by_cases hc : Scan.isQuote c
    · have hscan : Scan.phrase r.rest = (Scan.upTo c rest).after 1 := by rw [hrest, Scan.phrase, if_pos hc]
      rw [Reader.run, hscan]
      simp only [hc, if_true]
      exact bind_skip_bytes (readUntil_reads c) hrest
    · have hscan : Scan.phrase r.rest = Scan.word r.rest := by rw [hrest, Scan.phrase, if_neg hc]
      rw [Reader.run, hscan]
      simp only [hc, Bool.false_eq_true, if_false]
      exact readWord_reads r

theorem readBoolean_reads : readBoolean.Reads Scan.boolean := by
  intro r
  rw [readBoolean, get_bind, r.cursor_bytes]
  cases hphrase : Scan.phrase r.rest with
  | mk outcome passed =>
    cases outcome with
    | error reason =>
      have hscan : Scan.boolean r.rest = .failed reason passed := by simp only [Scan.boolean, hphrase]
      rw [bind_error (readPhrase_reads.failed hphrase), run_of_failed hscan]
    | ok value =>
      rw [bind_ok (readPhrase_reads.found hphrase)]
      by_cases hempty : value = ""
      · have hscan : Scan.boolean r.rest = .failed (.expectedValue .bool) passed := by
          simp only [Scan.boolean, hphrase, hempty, if_true]
        rw [run_of_failed hscan, if_pos hempty]
        rfl
      · rw [if_neg hempty]
        by_cases htrue : value = "true"
        · have hscan : Scan.boolean r.rest = .found true passed := by
            simp only [Scan.boolean, hphrase]
            rw [if_neg hempty, if_pos htrue]
          rw [run_of_found hscan, if_pos htrue]
          rfl
        · rw [if_neg htrue]
          by_cases hfalse : value = "false"
          · have hscan : Scan.boolean r.rest = .found false passed := by
              simp only [Scan.boolean, hphrase]
              rw [if_neg hempty, if_neg htrue, if_pos hfalse]
            rw [run_of_found hscan, if_pos hfalse]
            rfl
          · have hscan : Scan.boolean r.rest = .failed (.invalidValue .bool value) 0 := by
              simp only [Scan.boolean, hphrase]
              rw [if_neg hempty, if_neg htrue, if_neg hfalse]
            rw [run_of_failed hscan, Reader.advance_zero, if_neg hfalse]
            exact reject_bytes r _ _

theorem expect_reads (c : Char) : (expect c).Reads (Scan.symbol c) := by
  intro r
  rw [expect, bind_ok (peek_bytes r)]
  by_cases hpeek : r.peek? = some c
  · obtain ⟨rest, hrest⟩ : ∃ rest, r.rest = c :: rest := List.head?_eq_some_iff.1 hpeek
    have hscan : Scan.symbol c r.rest = .found () 1 := by rw [hrest, Scan.symbol, if_pos rfl]
    rw [run_of_found hscan, if_neg (not_not.2 hpeek)]
    exact skip_bytes r
  · have hscan : Scan.symbol c r.rest = .failed (.expectedSymbol c) 0 := by
      cases hrest : r.rest with
      | nil => rfl
      | cons d rest =>
        have hne : d ≠ c := fun h => hpeek (by rw [r.peek?_of_cons hrest, h])
        rw [Scan.symbol, if_neg hne]
    rw [run_of_failed hscan, Reader.advance_zero, if_pos hpeek]
    rfl

/-- Where a token may end nothing is done. -/
lemma unlessEnded_bytes (r : Reader) (otherwise : Action Unit) :
    unlessEnded otherwise r.bytes = if endsToken r.rest then some (.ok (), r.bytes) else otherwise r.bytes := by
  rw [unlessEnded, get_bind, r.canReadBytes_one_bytes]
  cases hrest : r.rest with
  | nil => rfl
  | cons c rest =>
    rw [List.isEmpty_cons, Bool.not_false, if_pos rfl, bind_ok (peek_bytes r), r.peek?_of_cons hrest, endsToken]
    by_cases hc : c = separator
    · rw [if_neg (not_not.2 (congrArg some hc)), if_pos (beq_iff_eq.2 hc)]
      rfl
    · rw [if_pos fun h => hc (Option.some.inj h), if_neg fun h => hc (beq_iff_eq.1 h)]

theorem readKeyword_reads (keyword : String) : (readKeyword keyword).Reads (Scan.keyword keyword) := by
  intro r
  rw [readKeyword, get_bind, r.cursor_bytes, bind_ok (remaining_bytes r), Reader.remaining, String.toList_ofList]
  by_cases hprefix : keyword.toList.isPrefixOf r.rest
  · obtain ⟨behind, hrest⟩ := List.isPrefixOf_iff_prefix.1 hprefix
    have hpast : setCursor (r.cursor + Text.width keyword.toList) r.bytes =
        some (.ok (), (r.advance keyword.toList.length).bytes) := by
      rw [setCursor_apply, Reader.bytes_advance, ← hrest, List.take_left]
    rw [if_pos hprefix, bind_ok hpast, unlessEnded_bytes, Reader.rest_advance]
    by_cases hends : endsToken (r.rest.drop keyword.toList.length)
    · have hscan : Scan.keyword keyword r.rest = .found () keyword.toList.length := by
        rw [Scan.keyword, hprefix, hends]
        rfl
      rw [if_pos hends, run_of_found hscan]
    · have hscan : Scan.keyword keyword r.rest = .failed (.literalIncorrect keyword) 0 := by
        rw [Scan.keyword, Bool.eq_false_iff.2 hends, Bool.and_false]
        rfl
      rw [if_neg hends, run_of_failed hscan, Reader.advance_zero]
      exact reject_bytes r _ _
  · have hscan : Scan.keyword keyword r.rest = .failed (.literalIncorrect keyword) 0 := by
      rw [Scan.keyword, Bool.eq_false_iff.2 hprefix, Bool.false_and]
      rfl
    rw [if_neg hprefix, run_of_failed hscan, Reader.advance_zero]
    rfl

theorem readRest_reads : readRest.Reads Scan.remainder := by
  intro r
  have hscan : Scan.remainder r.rest = .found r.remaining r.rest.length := rfl
  have hend : setCursor r.bytes.totalWidth r.bytes = some (.ok (), r.atEnd.bytes) := by
    rw [setCursor_apply]
    simp [Reader.bytes, Reader.atEnd, Reader.input, Reader.chars, Reader.cursor, totalWidth]
  rw [readRest, bind_ok (remaining_bytes r), get_bind, bind_ok hend, run_of_found hscan, Reader.advance_length]
  rfl

end ByteReader
end CommandEngine
