import CommandEngine.Argument.Parser
import CommandEngine.Proofs.ByteReader
import CommandEngine.Proofs.Settling

/-!
# What parsers of arguments keep to

The parser of a built-in type does at every place what the scan of the type says
(`ArgumentType.parse_reads_of_isBuiltIn`).  A parser of one's own may do anything, and what it is expected to do is
said by `ArgumentParser.Documented`: it answers and does not go back, its answer follows from the source and the
text ahead, and its errors are about the place where it leaves the reader.

A parser has a scan of the text ahead, found by starting it on that text alone (`ArgumentParser.scan`).  The parser
does at every place what this scan says if it keeps to what is documented, and only then does it follow any scan at
all (`ArgumentParser.documented_iff`).  So where a `CustomType` stands for a parser, exactly this is assumed of it.
-/

namespace CommandEngine

variable {σ : Type}

/-! ## Built-in types -/

lemma ByteReader.Action.Reads.map {α β : Type} {act : Action α} {scan : Scan α} (h : act.Reads scan) (f : α → β) :
    Action.Reads (do return f (← act)) fun text => (scan text).map f := by
  intro r
  cases hscan : scan r.rest with
  | mk outcome passed =>
    cases outcome with
    | error reason =>
      have hmap : (fun text => (scan text).map f) r.rest = .failed reason passed := by simp only [hscan, Scanned.map]
      rw [run_of_failed hmap]
      exact bind_error (h.failed hscan)
    | ok value =>
      have hmap : (fun text => (scan text).map f) r.rest = .found (f value) passed := by
        simp only [hscan, Scanned.map]
      rw [run_of_found hmap]
      exact bind_ok (h.found hscan)

lemma TextKind.parse_reads (kind : TextKind) : kind.parse.Reads kind.scan := by
  cases kind with
  | word => exact ByteReader.readWord_reads
  | phrase => exact ByteReader.readPhrase_reads
  | greedy => exact ByteReader.readRest_reads

/-- The parsers of the built-in types read what their scans say. -/
lemma ArgumentType.parse_reads_of_isBuiltIn (own : CustomType σ → ArgumentParser σ) {type : ArgumentType σ}
    (h : type.isBuiltIn = true) (source : Option σ) : (type.parse own source).Reads (type.scan source) := by
  cases type with
  | bool => exact ByteReader.readBoolean_reads.map Value.bool
  | integer b => exact (ByteReader.readBounded_reads b).map Value.int
  | long b => exact (ByteReader.readBounded_reads b).map Value.long
  | float b => exact (ByteReader.readBounded_reads b).map Value.float
  | double b => exact (ByteReader.readBounded_reads b).map Value.double
  | text kind => exact kind.parse_reads.map Value.string
  | custom type => cases h

/-! ## Types of one's own -/

/-- What is expected of a parser that reads an argument. -/
structure ArgumentParser.Documented (parse : ArgumentParser σ) : Prop where
  /-- It answers, and leaves the input as it is and the reader at a place that is not before the one where it began. -/
  forward : ∀ source (r : Reader), ∃ answer n, parse source r.bytes = some (answer, (r.advance n).bytes)
  /-- What it finds, or why it finds nothing, and how far it goes follow from the source and the text ahead. -/
  ahead : ∀ source {r r' : Reader} {answer n}, r.rest = r'.rest →
    parse source r.bytes = some (answer, (r.advance n).bytes) →
      ∃ answer', parse source r'.bytes = some (answer', (r'.advance n).bytes) ∧
        answer'.mapError SyntaxError.reason = answer.mapError SyntaxError.reason
  /-- Its errors are about the place where it leaves the reader. -/
  located : ∀ source {r : Reader} {e next}, parse source r.bytes = some (.error e, next) → ∃ reason, e = next.error reason

/-- What a parser does at the start of a text, as a scan of it. -/
def ArgumentParser.scan (parse : ArgumentParser σ) (source : Option σ) : Scan Value := fun text =>
  let start := ByteReader.ofString (String.ofList text)
  let (answer, next) := (parse source start).getD (.error (start.error .expectedSeparator), start)
  ⟨answer.mapError SyntaxError.reason, ((Text.splitAt? text next.cursor).map fun (token, _) => token.length).getD 0⟩

namespace Reader

/-- Going on by more characters than there are leads to the end. -/
lemma advance_length_take (r : Reader) (n : Nat) : r.advance (r.rest.take n).length = r.advance n := by
  rcases Nat.le_total n r.rest.length with hle | hle
  · rw [List.length_take_of_le hle]
  · rw [List.take_of_length_le hle, advance_length, advance, List.take_of_length_le hle,
      List.drop_of_length_le hle]
    rfl

end Reader

namespace ArgumentParser

open ByteReader (run_of_found run_of_failed)

variable {parse : ArgumentParser σ}

/-- Where the text of a scan lies ahead, a documented parser does what it does at the start of that text. -/
lemma Documented.exists_answer (h : parse.Documented) (source : Option σ) (r : Reader) :
    ∃ answer, parse source r.bytes = some (answer, (r.advance (parse.scan source r.rest).passed).bytes) ∧
      answer.mapError SyntaxError.reason = (parse.scan source r.rest).outcome := by
  obtain ⟨first, n, hfirst⟩ := h.forward source ⟨[], r.rest⟩
  obtain ⟨answer, hanswer, hreasons⟩ := h.ahead source (show (Reader.mk [] r.rest).rest = r.rest from rfl) hfirst
  have hstart : ByteReader.ofString (String.ofList r.rest) = (Reader.mk [] r.rest).bytes := by
    rw [← Reader.bytes_ofString, Reader.ofString, String.toList_ofList]
  have hcut : Text.splitAt? r.rest ((Reader.mk [] r.rest).advance n).cursor = some (r.rest.take n, r.rest.drop n) := by
    have hparts := Text.splitAt?_append (r.rest.take n) (r.rest.drop n)
    rw [List.take_append_drop] at hparts
    exact hparts
  have hscan : parse.scan source r.rest = ⟨first.mapError SyntaxError.reason, (r.rest.take n).length⟩ := by
    simp only [scan, hstart, hfirst, Option.getD_some, Reader.cursor_bytes, hcut, Option.map_some]
  refine ⟨answer, ?_, by rw [hscan, hreasons]⟩
  rw [hscan, r.advance_length_take, hanswer]

/-- A documented parser does at every place what its scan says of the text ahead. -/
theorem Documented.reads (h : parse.Documented) (source : Option σ) : (parse source).Reads (parse.scan source) := by
  intro r
  obtain ⟨answer, hanswer, hreasons⟩ := h.exists_answer source r
  cases answer with
  | ok value =>
    have hscan : parse.scan source r.rest = .found value (parse.scan source r.rest).passed :=
      congrArg (Scanned.mk · _) hreasons.symm
    rw [hanswer, run_of_found hscan]
  | error e =>
    obtain ⟨reason, rfl⟩ := h.located source hanswer
    have hscan : parse.scan source r.rest = .failed reason (parse.scan source r.rest).passed :=
      congrArg (Scanned.mk · _) hreasons.symm
    rw [hanswer, run_of_failed hscan, Reader.error_bytes]

/-- A parser that follows a scan keeps to what is documented. -/
theorem documented_of_reads {scan : Option σ → Scan Value} (h : ∀ source, (parse source).Reads (scan source)) :
    parse.Documented where
  forward source r := ⟨_, _, h source r⟩
  ahead source r r' answer n hrest hanswer := by
    obtain ⟨houtcome, hplace⟩ := Prod.mk.inj (Option.some.inj ((h source r).symm.trans hanswer))
    have hwidth : Text.width (r.rest.take (scan source r.rest).passed) = Text.width (r.rest.take n) := by
      have hcursor := congrArg ByteReader.cursor hplace
      change (r.advance (scan source r.rest).passed).cursor = (r.advance n).cursor at hcursor
      rw [Reader.cursor_advance, Reader.cursor_advance] at hcursor
      omega
    have hplace' : (r'.advance (scan source r'.rest).passed).bytes = (r'.advance n).bytes := by
      rw [Reader.bytes_advance, Reader.bytes_advance, ← hrest, hwidth]
    refine ⟨(r'.run (scan source)).1, (h source r').trans (congrArg (fun next => some (_, next)) hplace'), ?_⟩
    rw [← houtcome, Reader.run, Reader.run, ← hrest]
    cases (scan source r.rest).outcome <;> rfl
  located source r e next hanswer := by
    obtain ⟨houtcome, rfl⟩ := Prod.mk.inj (Option.some.inj ((h source r).symm.trans hanswer))
    rw [Reader.run] at houtcome
    cases hscan : (scan source r.rest).outcome with
    | ok value =>
      rw [hscan] at houtcome
      cases houtcome
    | error reason =>
      rw [hscan] at houtcome
      exact ⟨reason, (Except.error.inj houtcome).symm⟩

/-- The parsers that follow a scan of the text ahead are those that keep to what is documented. -/
theorem documented_iff : parse.Documented ↔ ∃ scan : Option σ → Scan Value, ∀ source, (parse source).Reads (scan source) :=
  ⟨fun h => ⟨parse.scan, h.reads⟩, fun ⟨_, h⟩ => documented_of_reads h⟩

end ArgumentParser
end CommandEngine
