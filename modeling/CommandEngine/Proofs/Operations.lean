import CommandEngine.Proofs.ArgumentParser
import CommandEngine.Proofs.Stopping

/-!
# Reading by operations

An input is read by operations: skipping characters, reading tokens and arguments, and going to an offset
(`Operation`).  `ByteReader.Reaches` is what any number of them, one after the other, lead to.

A byte reader cuts its input at whatever offset it has come to, and breaks off where there is no cut.  Offsets are
bytes while characters take up to four of them, and operations add and subtract widths, go back to where a token
began, and step back before reporting an escape.  That every offset they come to is a boundary between characters is
the invariant (`ByteReader.StandsIn`); boundaries are meant as `String.Pos.Raw.IsValid` has them.

At a boundary every operation does what a scan of the text ahead says (`Token.action_reads`), and a scan passes no
more characters than there are (`Scan.Within`).  So it arrives at a boundary again, and is located there if it fails
(`Operation.exists_advance`).  `ByteReader.sound_of_reaches` puts this together.
-/

namespace CommandEngine

/-! ## Byte offsets -/

namespace Text

lemma width_eq_utf8ByteSize (cs : List Char) : width cs = (String.ofList cs).utf8ByteSize := by
  induction cs with
  | nil => rfl
  | cons c cs ih => rw [width_cons, ih, String.ofList_cons, String.utf8ByteSize_append, String.utf8ByteSize_singleton]

/-- A text is cut exactly at the boundaries between its characters. -/
lemma isSome_splitAt?_iff (input : String) (n : Nat) :
    (splitAt? input.toList n).isSome ↔ String.Pos.Raw.IsValid input ⟨n⟩ := by
  rw [String.Pos.Raw.isValid_iff_exists_append, Option.isSome_iff_exists]
  constructor
  · rintro ⟨⟨before, after⟩, hcut⟩
    refine ⟨String.ofList before, String.ofList after, ?_, ?_⟩
    · rw [← String.ofList_append, append_of_splitAt? hcut, String.ofList_toList]
    · rw [← width_of_splitAt? hcut, width_eq_utf8ByteSize]
      rfl
  · rintro ⟨before, after, rfl, hn⟩
    have hwidth : n = width before.toList := by
      rw [width_eq_utf8ByteSize, String.ofList_toList]
      exact congrArg String.Pos.Raw.byteIdx hn
    exact ⟨_, by rw [hwidth, String.toList_append, splitAt?_append]⟩

end Text

/-! ## Scans within the text ahead -/

/-- A scan that passes no more characters than there are. -/
def Scan.Within {α : Type} (scan : Scan α) : Prop := ∀ text, (scan text).passed ≤ text.length

namespace Scanned

variable {α β : Type}

lemma passed_map (f : α → β) (s : Scanned α) : (s.map f).passed = s.passed := by
  obtain ⟨outcome, passed⟩ := s
  cases outcome <;> rfl

lemma passed_after (n : Nat) (s : Scanned α) : (s.after n).passed = n + s.passed := rfl

end Scanned

namespace Scan

variable {α β : Type}

lemma Within.map {scan : Scan α} (h : Within scan) (f : α → β) : Within fun text => (scan text).map f := by
  intro text
  rw [Scanned.passed_map]
  exact h text

/-- A scan of what comes after the first character. -/
lemma Within.after_one {scan : Scan α} (h : Within scan) (c : Char) (rest : List Char) :
    ((scan rest).after 1).passed ≤ (c :: rest).length := by
  have hrest := h rest
  rw [Scanned.passed_after, List.length_cons]
  omega

lemma length_takeWhile_le (p : Char → Bool) (text : List Char) : (text.takeWhile p).length ≤ text.length :=
  (List.takeWhile_prefix p).length_le

lemma number_within [Numeral α] : Within (number : Scan α) := by
  intro text
  rcases number_cases (α := α) text with hscan | ⟨token, hscan⟩ | ⟨value, hscan⟩ <;> rw [hscan]
  · exact Nat.zero_le _
  · exact Nat.zero_le _
  · exact length_takeWhile_le isNumberChar text

lemma bounded_within [Numeral α] (b : Bounds α) : Within (bounded b) := by
  intro text
  rcases bounded_cases b text with hscan | ⟨value, bound, hscan⟩ | ⟨value, bound, hscan⟩ <;> rw [hscan]
  · exact number_within text
  · exact Nat.zero_le _
  · exact Nat.zero_le _

lemma word_within : Within word := length_takeWhile_le isBareChar

lemma untilChars_within (terminator : Char) : Within (untilChars terminator) := by
  intro text
  fun_induction untilChars terminator text with
  | case1 => exact Nat.le_refl _
  | case2 => exact Nat.le_refl _
  | case3 d more _ ih =>
    rw [Scanned.passed_after, Scanned.passed_map, List.length_cons, List.length_cons]
    omega
  | case4 d more _ => exact Nat.succ_le_succ (Nat.zero_le _)
  | case5 rest _ => exact Nat.succ_le_succ (Nat.zero_le _)
  | case6 c rest _ _ ih =>
    rw [Scanned.passed_after, Scanned.passed_map, List.length_cons]
    omega

lemma upTo_within (terminator : Char) : Within (upTo terminator) := (untilChars_within terminator).map String.ofList

lemma quoted_within : Within quoted := by
  intro text
  cases text with
  | nil => exact Nat.le_refl _
  | cons c rest =>
    rw [quoted]
    split
    · exact (upTo_within c).after_one c rest
    · exact Nat.zero_le _

lemma phrase_within : Within phrase := by
  intro text
  cases text with
  | nil => exact Nat.le_refl _
  | cons c rest =>
    rw [phrase]
    split
    · exact (upTo_within c).after_one c rest
    · exact word_within (c :: rest)

lemma boolean_within : Within boolean := by
  intro text
  have hphrase := phrase_within text
  rcases boolean_cases text with ⟨reason, -, hscan⟩ | ⟨-, hscan⟩ | ⟨value, -, hscan⟩ | ⟨value, b, -, hscan⟩ <;>
    rw [hscan]
  · exact hphrase
  · exact hphrase
  · exact Nat.zero_le _
  · exact hphrase

lemma symbol_within (c : Char) : Within (symbol c) := by
  intro text
  cases text with
  | nil => exact Nat.le_refl _
  | cons d rest =>
    rw [symbol]
    split
    · exact Nat.succ_le_succ (Nat.zero_le _)
    · exact Nat.zero_le _

end Scan

lemma TextKind.scan_within (kind : TextKind) : Scan.Within kind.scan := by
  cases kind with
  | word => exact Scan.word_within
  | phrase => exact Scan.phrase_within
  | greedy => exact fun text => Nat.le_refl _

lemma ArgumentType.scan_within {σ : Type} {type : ArgumentType σ} (h : type.isBuiltIn = true) (source : Option σ) :
    Scan.Within (type.scan source) := by
  cases type with
  | bool => exact Scan.boolean_within.map Value.bool
  | integer b => exact (Scan.bounded_within b).map Value.int
  | long b => exact (Scan.bounded_within b).map Value.long
  | float b => exact (Scan.bounded_within b).map Value.float
  | double b => exact (Scan.bounded_within b).map Value.double
  | text kind => exact kind.scan_within.map Value.string
  | custom own => cases h

/-! ## Moving to a place -/

namespace Reader

lemma input_ofString (input : String) : (ofString input).input = input := String.ofList_toList

lemma toList_input (r : Reader) : r.input.toList = r.chars := String.toList_ofList

/-- A read fails where its scan does, and its error is about the place that it leads to. -/
lemma outcome_of_run {α : Type} {scan : Scan α} {r next : Reader} {e : SyntaxError}
    (h : r.run scan = (.error e, next)) :
    ∃ reason, (scan r.rest).outcome = .error reason ∧ e = next.error reason ∧
      next = r.advance (scan r.rest).passed := by
  obtain ⟨houtcome, rfl⟩ := Prod.mk.inj h
  cases hscan : (scan r.rest).outcome with
  | ok value =>
    rw [hscan] at houtcome
    cases houtcome
  | error reason =>
    rw [hscan] at houtcome
    exact ⟨reason, rfl, (Except.error.inj houtcome).symm, rfl⟩

lemma exists_advance_skip (r : Reader) : ∃ n ≤ r.rest.length, r.skip = r.advance n := by
  obtain ⟨past, rest⟩ := r
  cases rest with
  | nil => exact ⟨0, Nat.le_refl _, rfl⟩
  | cons c rest => exact ⟨1, Nat.le_add_left 1 _, rfl⟩

end Reader

/-! ## Operations -/

/-- What can be read at a place, with the type of what it is read as. -/
inductive Token (σ : Type) : Type → Type 1
  | number (α : Type) [Numeral α] : Token σ α
  | word : Token σ String
  | quoted : Token σ String
  | phrase : Token σ String
  | upTo (terminator : Char) : Token σ String
  | boolean : Token σ Bool
  | symbol (c : Char) : Token σ Unit
  | argument (type : ArgumentType σ) (builtIn : type.isBuiltIn = true) (source : Option σ) : Token σ Value

/-- The scan for a token. -/
def Token.scan {σ α : Type} : Token σ α → Scan α
  | number _ => Scan.number
  | word => Scan.word
  | quoted => Scan.quoted
  | phrase => Scan.phrase
  | upTo terminator => Scan.upTo terminator
  | boolean => Scan.boolean
  | symbol c => Scan.symbol c
  | argument type _ source => type.scan source

lemma Token.scan_within {σ α : Type} (token : Token σ α) : Scan.Within token.scan := by
  cases token with
  | number α => exact Scan.number_within
  | word => exact Scan.word_within
  | quoted => exact Scan.quoted_within
  | phrase => exact Scan.phrase_within
  | upTo terminator => exact Scan.upTo_within terminator
  | boolean => exact Scan.boolean_within
  | symbol c => exact Scan.symbol_within c
  | argument type builtIn source => exact type.scan_within builtIn source

/-- What can be done at a place, with the type of what it gives. -/
inductive Operation (σ : Type) : Type → Type 1
  /-- Skips a character. -/
  | skip : Operation σ Unit
  /-- Takes a character. -/
  | take : Operation σ (Option Char)
  /-- Skips blank characters. -/
  | skipBlanks : Operation σ Unit
  /-- Reads a token. -/
  | read {α : Type} (token : Token σ α) : Operation σ α
  /-- Goes to an offset. -/
  | seek (offset : Nat) : Operation σ Unit

section Operations

variable {σ α : Type} (own : CustomType σ → ArgumentParser σ)

/-- Reads a token. -/
def Token.action : Token σ α → ByteReader.Action α
  | number _ => ByteReader.readNumber
  | word => ByteReader.readWord
  | quoted => ByteReader.readQuoted
  | phrase => ByteReader.readPhrase
  | upTo terminator => ByteReader.readUntil terminator
  | boolean => ByteReader.readBoolean
  | symbol c => ByteReader.expect c
  | argument type _ source => type.parse own source

/-- Performs an operation. -/
def Operation.action : Operation σ α → ByteReader.Action α
  | skip => ByteReader.skip
  | take => ByteReader.take
  | skipBlanks => ByteReader.skipBlanks
  | read token => token.action own
  | seek offset => ByteReader.setCursor offset

/-- The offset that an operation goes to. -/
def Operation.target? : Operation σ α → Option Nat
  | seek offset => some offset
  | _ => none

/-- A token is read as its scan says. -/
lemma Token.action_reads (token : Token σ α) : (token.action own).Reads token.scan := by
  cases token with
  | number α => exact ByteReader.readNumber_reads
  | word => exact ByteReader.readWord_reads
  | quoted => exact ByteReader.readQuoted_reads
  | phrase => exact ByteReader.readPhrase_reads
  | upTo terminator => exact ByteReader.readUntil_reads terminator
  | boolean => exact ByteReader.readBoolean_reads
  | symbol c => exact ByteReader.expect_reads c
  | argument type builtIn source => exact type.parse_reads_of_isBuiltIn own builtIn source

/-- An operation that goes to no offset gives an answer at every place: it passes characters that are ahead, and an
error is about the place that it leads to. -/
lemma Operation.exists_advance (op : Operation σ α) (htarget : op.target? = none) (r : Reader) :
    ∃ n ≤ r.rest.length, ∃ outcome, op.action own r.bytes = some (outcome, (r.advance n).bytes) ∧
      ∀ e, outcome = .error e → ∃ reason, e = (r.advance n).error reason := by
  cases op with
  | skip =>
    obtain ⟨n, hn, hskip⟩ := r.exists_advance_skip
    refine ⟨n, hn, .ok (), ?_, fun e h => by cases h⟩
    rw [← hskip]
    exact ByteReader.skip_bytes r
  | take =>
    obtain ⟨n, hn, hskip⟩ := r.exists_advance_skip
    refine ⟨n, hn, .ok r.peek?, ?_, fun e h => by cases h⟩
    rw [← hskip]
    exact ByteReader.take_bytes r
  | skipBlanks =>
    exact ⟨_, Scan.length_takeWhile_le Text.isBlank r.rest, .ok (), ByteReader.skipAll_bytes Text.isBlank r,
      fun e h => by cases h⟩
  | read token =>
    refine ⟨_, token.scan_within r.rest, _, token.action_reads own r, fun e h => ?_⟩
    obtain ⟨reason, -, herror, -⟩ := Reader.outcome_of_run (Prod.ext h rfl)
    exact ⟨reason, herror⟩
  | seek offset => cases htarget

end Operations

/-! ## Places -/

namespace ByteReader

/-- A reader stands at a place of an input. -/
structure StandsIn (input : String) (b : ByteReader) : Prop where
  input_eq : b.input = input
  /-- The offset is a boundary between characters. -/
  boundary : String.Pos.Raw.IsValid input ⟨b.cursor⟩
  within : b.cursor ≤ input.utf8ByteSize
  /-- What was read and what is left can be cut out of the input, and are the input. -/
  parts : ∃ read left, b.readText? = some read ∧ b.remaining? = some left ∧ read ++ left = input ∧
    read.utf8ByteSize = b.cursor

lemma standsIn_bytes (r : Reader) : r.bytes.StandsIn r.input where
  input_eq := rfl
  boundary := by
    rw [r.cursor_bytes, ← Text.isSome_splitAt?_iff, Reader.toList_input, r.splitAt?_cursor]
    rfl
  within := by
    rw [r.cursor_bytes, Reader.input, ← Text.width_eq_utf8ByteSize, ← r.totalWidth_eq]
    exact r.cursor_le_totalWidth
  parts := ⟨r.readText, r.remaining, r.readText?_bytes, r.remaining?_bytes, String.ofList_append.symm,
    (Text.width_eq_utf8ByteSize r.past).symm⟩

/-- A boundary of an input is the offset of a place. -/
lemma exists_bytes_eq {input : String} {offset : Nat} (h : String.Pos.Raw.IsValid input ⟨offset⟩) :
    ∃ r : Reader, r.input = input ∧ r.bytes = ⟨input, offset⟩ := by
  rw [← Text.isSome_splitAt?_iff, Option.isSome_iff_exists] at h
  obtain ⟨⟨past, rest⟩, hcut⟩ := h
  have hinput : (Reader.mk past rest).input = input := by
    rw [Reader.input, Reader.chars, Text.append_of_splitAt? hcut, String.ofList_toList]
  refine ⟨⟨past, rest⟩, hinput, ?_⟩
  rw [Reader.bytes, hinput, Reader.cursor, Text.width_of_splitAt? hcut]

lemma StandsIn.exists_bytes {input : String} {b : ByteReader} (h : b.StandsIn input) :
    ∃ r : Reader, r.input = input ∧ r.bytes = b := by
  obtain ⟨r, hinput, hbytes⟩ := exists_bytes_eq h.boundary
  exact ⟨r, hinput, hbytes.trans (by rw [← h.input_eq])⟩

end ByteReader

/-- How an operation goes with a reader that stands in an input, unless it is sent to an offset that is no
boundary. -/
structure Operation.SoundAt {σ α : Type} (own : CustomType σ → ArgumentParser σ) (input : String) (b : ByteReader)
    (op : Operation σ α) : Prop where
  /-- It does not break off. -/
  answers : ∃ outcome next, op.action own b = some (outcome, next)
  stands : ∀ outcome next, op.action own b = some (outcome, next) → next.StandsIn input
  /-- It ends at no smaller offset unless it goes to one. -/
  forward : op.target? = none → ∀ outcome next, op.action own b = some (outcome, next) → b.cursor ≤ next.cursor
  arrives : ∀ offset ∈ op.target?, ∀ outcome next, op.action own b = some (outcome, next) → next.cursor = offset
  /-- An error has the whole input and the offset that the reader is left at. -/
  located : ∀ e next, op.action own b = some (.error e, next) → e.input = some input ∧ e.cursor = some next.cursor

section Sound

variable {σ α : Type} {own : CustomType σ → ArgumentParser σ}

/-- An operation may be sent to boundaries only. -/
def Operation.Lawful (input : String) (op : Operation σ α) : Prop :=
  ∀ offset ∈ op.target?, String.Pos.Raw.IsValid input ⟨offset⟩

lemma Operation.soundAt {input : String} {b : ByteReader} (h : b.StandsIn input) {op : Operation σ α}
    (hop : op.Lawful input) : op.SoundAt own input b := by
  obtain ⟨r, rfl, rfl⟩ := h.exists_bytes
  cases htarget : op.target? with
  | none =>
    obtain ⟨n, hn, outcome, hact, herror⟩ := op.exists_advance own htarget r
    have hstands : (r.advance n).bytes.StandsIn r.input := r.input_advance n ▸ ByteReader.standsIn_bytes _
    refine ⟨⟨_, _, hact⟩, fun o next h => ?_, fun _ o next h => ?_, fun offset hoffset => ?_, fun e next h => ?_⟩
    · rw [hact] at h
      cases h
      exact hstands
    · rw [hact] at h
      cases h
      exact r.cursor_le_cursor_advance n
    · rw [htarget] at hoffset
      cases hoffset
    · rw [hact] at h
      cases h
      obtain ⟨reason, rfl⟩ := herror e rfl
      exact ⟨congrArg some (r.input_advance n), rfl⟩
  | some offset =>
    have hvalid := hop offset htarget
    cases op with
    | seek sent =>
      obtain rfl : sent = offset := Option.some.inj htarget
      obtain ⟨s, hinput, hbytes⟩ := ByteReader.exists_bytes_eq hvalid
      have hact : ByteReader.setCursor sent r.bytes = some (.ok (), s.bytes) := hbytes ▸ rfl
      have hstands : s.bytes.StandsIn r.input := hinput ▸ ByteReader.standsIn_bytes s
      have hcursor : s.bytes.cursor = sent := by rw [hbytes]
      refine ⟨⟨_, _, hact⟩, fun o next h => ?_, fun hno => ?_, fun offset hoffset o next h => ?_, fun e next h => ?_⟩
      · obtain ⟨rfl, rfl⟩ := Prod.mk.inj (Option.some.inj (hact.symm.trans h))
        exact hstands
      · cases hno
      · obtain ⟨rfl, rfl⟩ := Prod.mk.inj (Option.some.inj (hact.symm.trans h))
        cases hoffset
        exact hcursor
      · cases hact.symm.trans h
    | _ => cases htarget

namespace ByteReader

/-- What operations lead to, one after the other, where none is sent to an offset that is no boundary. -/
inductive Reaches (own : CustomType σ → ArgumentParser σ) (start : ByteReader) : ByteReader → Prop
  | refl : Reaches own start start
  | step {α : Type} {op : Operation σ α} {outcome : Except SyntaxError α} {b next : ByteReader}
      (reached : Reaches own start b) (lawful : op.Lawful start.input)
      (performed : op.action own b = some (outcome, next)) : Reaches own start next

/-- Whatever operations lead to stands at a place of the input, since every one of them keeps that. -/
lemma Reaches.standsIn {start b : ByteReader} (h : Reaches own start b) (hstart : start.StandsIn start.input) :
    b.StandsIn start.input := by
  induction h with
  | refl => exact hstart
  | step _ lawful performed ih => exact (Operation.soundAt ih lawful).stands _ _ performed

/-- From the start of an input operations lead to places of the input, and there every operation gives an answer
without breaking off, ends at a place again and at no smaller offset unless it is sent to one, and fails about the
offset that it leaves the reader at. -/
theorem sound_of_reaches {input : String} {b : ByteReader} (h : (ofString input).Reaches own b) :
    b.StandsIn input ∧ ∀ (α : Type) (op : Operation σ α), op.Lawful input → op.SoundAt own input b := by
  have hstart : (ofString input).StandsIn input := by
    have hplace := standsIn_bytes (Reader.ofString input)
    rwa [Reader.input_ofString, Reader.bytes_ofString] at hplace
  have hstands := h.standsIn hstart
  exact ⟨hstands, fun α op hop => Operation.soundAt hstands hop⟩

/-- A character of two bytes is taken and a blank is skipped.  What is ahead is no truth value: the reader goes back
to where it began, and there the error is.  Between the two bytes of the character there is no place. -/
theorem sound_of_reaches_accent :
    Reaches (fun (_ : CustomType Unit) _ => fail .unknownCommand) (ofString "é ja") ⟨"é ja", 3⟩ ∧
      StandsIn "é ja" ⟨"é ja", 3⟩ ∧
      readBoolean ⟨"é ja", 3⟩ = some (.error (.located (.invalidValue .bool "ja") "é ja" 3), ⟨"é ja", 3⟩) ∧
      SyntaxError.cursor (.located (.invalidValue .bool "ja") "é ja" 3) = some 3 ∧
      ¬ String.Pos.Raw.IsValid "é ja" ⟨1⟩ := by
  have htake : take (ofString "é ja") = some (.ok (some 'é'), ⟨"é ja", 2⟩) := by decide +kernel
  have hskip : skipBlanks ⟨"é ja", 2⟩ = some (.ok (), ⟨"é ja", 3⟩) := by
    have hplace : Reader.bytes ⟨['é'], " ja".toList⟩ = ⟨"é ja", 2⟩ := by decide +kernel
    rw [← hplace, skipBlanks, skipAll_bytes]
    decide +kernel
  have hboolean : readBoolean ⟨"é ja", 3⟩ =
      some (.error (.located (.invalidValue .bool "ja") "é ja" 3), ⟨"é ja", 3⟩) := by
    have hplace : Reader.bytes ⟨"é ".toList, "ja".toList⟩ = ⟨"é ja", 3⟩ := by decide +kernel
    rw [← hplace, readBoolean_reads]
    decide +kernel
  -- none of these operations goes to an offset
  have htaking : (Operation.take : Operation Unit _).Lawful "é ja" := fun _ h => by cases h
  have hskipping : (Operation.skipBlanks : Operation Unit _).Lawful "é ja" := fun _ h => by cases h
  have hreading : (Operation.read .boolean : Operation Unit _).Lawful "é ja" := fun _ h => by cases h
  have hreached : Reaches (fun (_ : CustomType Unit) _ => fail .unknownCommand) (ofString "é ja") ⟨"é ja", 3⟩ :=
    .step (.step .refl htaking htake) hskipping hskip
  obtain ⟨hstands, hsound⟩ := sound_of_reaches hreached
  have hlocated := (hsound Bool (.read .boolean) hreading).located _ _ hboolean
  refine ⟨hreached, hstands, hboolean, hlocated.2, ?_⟩
  rw [← Text.isSome_splitAt?_iff]
  decide +kernel

end ByteReader
end Sound
end CommandEngine
