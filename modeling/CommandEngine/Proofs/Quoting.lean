import CommandEngine.Proofs.Keywords
import CommandEngine.Proofs.Settling
import Mathlib.Data.List.TakeWhile

/-!
# Quoting and reading back

`TextKind.quote` writes a text in the form in which its kind reads it.  A phrase is written as it is if it is
bare, and otherwise in double quotes with the escape character before every quote and every escape character;
reading resolves the escapes one by one and stops at the first quote that none of them covers
(`Scan.untilChars_escaped`).  So a phrase is read back whatever stands before it, and whatever follows it if that
begins with a separator (`Scan.phrase_quote`, `TextKind.run_quote`).

In a command there is one text that does not come back: the empty one is bare, so it is written as nothing
at all, and where nothing follows the separator there is no token to be read.  `CommandTree.survives_iff` says
that this is the only exception.
-/

namespace CommandEngine

variable {σ : Type}

/-! ## Reading back what was quoted -/

namespace Phrase

lemma escaped_cons_of_special {c : Char} (hc : c = Scan.escape ∨ c = '"') (rest : List Char) :
    escaped (c :: rest) = Scan.escape :: c :: escaped rest := by
  rw [escaped, if_pos hc]

lemma escaped_cons_of_plain {c : Char} (hc : ¬ (c = Scan.escape ∨ c = '"')) (rest : List Char) :
    escaped (c :: rest) = c :: escaped rest := by
  rw [escaped, if_neg hc]

lemma quote_of_bare {value : String} (h : isBare value.toList = true) : quote value = value := by
  rw [quote, if_pos h]

lemma toList_quote_of_not_bare {value : String} (h : isBare value.toList = false) :
    (quote value).toList = '"' :: (escaped value.toList ++ ['"']) := by
  rw [quote, h, if_neg Bool.false_ne_true, String.toList_ofList]

/-- Only the empty text is written as nothing. -/
lemma quote_eq_empty_iff {value : String} : quote value = "" ↔ value = "" := by
  constructor
  · intro h
    by_cases hbare : isBare value.toList = true
    · rwa [quote_of_bare hbare] at h
    · have hquoted := toList_quote_of_not_bare (Bool.eq_false_of_not_eq_true hbare)
      rw [h] at hquoted
      exact absurd hquoted.symm (List.cons_ne_nil _ _)
  · rintro rfl
    rfl

end Phrase

namespace Scan

open Phrase

/-- The escapes of a text are resolved up to the quote that ends it. -/
lemma untilChars_escaped (value rest : List Char) :
    untilChars '"' (escaped value ++ '"' :: rest) = .found value ((escaped value).length + 1) := by
  induction value with
  | nil =>
    rw [escaped, List.nil_append, untilChars_of_ne (by decide), if_pos rfl]
    rfl
  | cons c value ih =>
    by_cases hc : c = escape ∨ c = '"'
    · have hback : c = '"' ∨ c = escape := hc.symm
      rw [escaped_cons_of_special hc, List.cons_append, List.cons_append, untilChars_escape, if_pos hback, ih]
      refine Scanned.after_eq_found.2 ⟨(escaped value).length + 1, rfl, ?_⟩
      rw [List.length_cons, List.length_cons]
      omega
    · obtain ⟨hescape, hquote⟩ := not_or.1 hc
      rw [escaped_cons_of_plain hc, List.cons_append, untilChars_of_ne hescape, if_neg hquote, ih]
      refine Scanned.after_eq_found.2 ⟨(escaped value).length + 1, rfl, ?_⟩
      rw [List.length_cons]
      omega

/-- A bare word is read up to the end of its token. -/
lemma takeWhile_bare {token rest : List Char} (htoken : isBare token = true) (hrest : endsToken rest = true) :
    (token ++ rest).takeWhile isBareChar = token := by
  have hstop : rest.takeWhile isBareChar = [] := by
    rcases rest with _ | ⟨c, rest⟩
    · rfl
    · have hc : c = separator := by simpa [endsToken] using hrest
      rw [hc]
      rfl
  rw [List.takeWhile_append_of_pos (List.all_eq_true.1 htoken), hstop, List.append_nil]

lemma word_of_bare {token rest : List Char} (htoken : isBare token = true) (hrest : endsToken rest = true) :
    word (token ++ rest) = .found (String.ofList token) token.length := by
  simp only [word, takeWhile_bare htoken hrest]

lemma isQuote_of_bare {c : Char} (h : isBareChar c = true) : isQuote c = false := by
  by_contra hquote
  rw [Bool.not_eq_false, isQuote, Bool.or_eq_true, beq_iff_eq, beq_iff_eq] at hquote
  rcases hquote with rfl | rfl <;> exact absurd h (by decide)

/-- Where no quote comes next, a phrase is a word. -/
lemma phrase_of_bare {token rest : List Char} (htoken : isBare token = true) (hrest : endsToken rest = true) :
    phrase (token ++ rest) = word (token ++ rest) := by
  rcases token with _ | ⟨c, token⟩
  · rcases rest with _ | ⟨c, rest⟩
    · rfl
    · have hc : c = separator := by simpa [endsToken] using hrest
      rw [hc]
      rfl
  · have hc : isQuote c = false := isQuote_of_bare (List.all_eq_true.1 htoken c (List.mem_cons_self ..))
    rw [List.cons_append, phrase, hc, if_neg Bool.false_ne_true]

/-- A quoted text is read back up to its end. -/
theorem phrase_quote (value : String) {rest : List Char} (hrest : endsToken rest = true) :
    phrase ((quote value).toList ++ rest) = .found value (quote value).toList.length := by
  by_cases hbare : isBare value.toList = true
  · rw [quote_of_bare hbare, phrase_of_bare hbare hrest, word_of_bare hbare hrest, String.ofList_toList]
  · rw [toList_quote_of_not_bare (Bool.eq_false_of_not_eq_true hbare), List.cons_append, List.append_assoc,
      List.singleton_append, phrase, if_pos (by decide), upTo, untilChars_escaped]
    refine Scanned.after_eq_found.2 ⟨_, Scanned.map_eq_found.2 ⟨_, rfl, String.ofList_toList⟩, ?_⟩
    rw [List.length_cons, List.length_append, List.length_singleton]
    omega

/-- A text that is read as one word has the characters of a word only. -/
lemma forall_isBareChar_of_word {text : String} (h : (word text.toList).outcome = .ok text) :
    ∀ c ∈ text.toList, isBareChar c = true := by
  have htoken : String.ofList (text.toList.takeWhile isBareChar) = text := Except.ok.inj h
  have hwhole : text.toList.takeWhile isBareChar = text.toList := by
    conv_rhs => rw [← htoken, String.toList_ofList]
  exact List.takeWhile_eq_self_iff.1 hwhole

end Scan

namespace Reader

/-- A scan that takes a token moves on to its end. -/
lemma run_of_found {α : Type} {scan : Scan α} {value : α} {token rest : List Char} (past : List Char)
    (h : scan (token ++ rest) = .found value token.length) :
    (⟨past, token ++ rest⟩ : Reader).run scan = (.ok value, ⟨past ++ token, rest⟩) := by
  simp only [run, h, Scanned.found, advance_append]
  rfl

end Reader

/-- Every kind of text reads back what it has written: a phrase after any text and before any end of a token, a
greedy text from a whole input, and a word if and only if its characters are those of a word. -/
theorem TextKind.run_quote (value : String) :
    (∀ lead rest : String, endsToken rest.toList = true →
      ∃ r, (Reader.ofString (lead ++ phrase.quote value ++ rest)).seek? (Text.width lead.toList) = some r ∧
        r.run phrase.scan = (.ok value, ⟨(lead ++ phrase.quote value).toList, rest.toList⟩)) ∧
      (Reader.ofString (greedy.quote value)).run greedy.scan =
        (.ok value, (Reader.ofString (greedy.quote value)).atEnd) ∧
      ((Reader.ofString (word.quote value)).run word.scan =
          (.ok value, (Reader.ofString (word.quote value)).atEnd) ↔
        ∀ c ∈ value.toList, Scan.isBareChar c = true) := by
  have hwhole : ∀ {scan : Scan String}, scan (value.toList ++ []) = .found value value.toList.length →
      (Reader.ofString value).run scan = (.ok value, (Reader.ofString value).atEnd) := by
    intro scan h
    have hrun := Reader.run_of_found [] h
    rw [List.append_nil] at hrun
    exact hrun
  refine ⟨fun lead rest hrest => ?_, hwhole ?_, fun h => ?_, fun h => hwhole ?_⟩
  · refine ⟨⟨lead.toList, (phrase.quote value).toList ++ rest.toList⟩, ?_, ?_⟩
    · rw [String.append_assoc, Reader.seek?_append, String.toList_append]
    · rw [String.toList_append]
      exact Reader.run_of_found lead.toList (Scan.phrase_quote value hrest)
  · rw [List.append_nil]
    show Scan.remainder value.toList = _
    rw [Scan.remainder, String.ofList_toList]
  · have hread := Except.ok.inj (congrArg Prod.fst h)
    exact Scan.forall_isBareChar_of_word (congrArg Except.ok hread)
  · have hword := Scan.word_of_bare (List.all_eq_true.2 h) (show endsToken [] = true from rfl)
    rwa [String.ofList_toList] at hword

/-- A text with both quotes, an escape character and a space, between other text. -/
theorem TextKind.run_quote_mixed :
    endsToken " now".toList = true ∧ phrase.quote "it's \\ \"é\"" = "\"it's \\\\ \\\"é\\\"\"" ∧
      (∃ r, (Reader.ofString ("say " ++ phrase.quote "it's \\ \"é\"" ++ " now")).seek? 4 = some r ∧
        r.run phrase.scan = (.ok "it's \\ \"é\"",
          ⟨("say " ++ phrase.quote "it's \\ \"é\"").toList, " now".toList⟩)) ∧
      ¬ (Reader.ofString "it's").run word.scan = (.ok "it's", (Reader.ofString "it's").atEnd) := by
  refine ⟨by decide, by decide +kernel, (run_quote _).1 "say " " now" (by decide), fun h => ?_⟩
  have hbare := (run_quote "it's").2.2.1 h '\'' (by decide)
  exact absurd hbare (by decide)

/-! ## Quoted values in a command -/

namespace CommandTree

variable {t : CommandTree σ} {source : σ} {k name : String} {c a : NodeId}

/-- A keyword at the top of the tree whose only child is an argument that takes a phrase; the source may use both,
and the keyword does not redirect. -/
structure PhraseCommand (t : CommandTree σ) (source : σ) (k name : String) (c a : NodeId) : Prop where
  child : t.child? rootId k = some c
  literal : (t.node c).isLiteral = true
  unbroken : separator ∉ k.toList
  plain : (t.node c).target? = none
  usable : (t.node c).canUse source = true
  only : t.children c = [a]
  takes : ∃ provider, (t.node a).pattern = some (.argument name (.text .phrase) provider)
  usable_argument : (t.node a).canUse source = true

/-- The line of a command with one value, quoted. -/
def quotedLine (k value : String) : String := k ++ " " ++ TextKind.phrase.quote value

/-- A quoted value comes back: the line is read to its end, and the argument has the value. -/
def Survives (t : CommandTree σ) (source : σ) (k name value : String) : Prop :=
  (t.parse (quotedLine k value) source).isComplete = true ∧
    (t.parse (quotedLine k value) source).context.argument name = .ok value

/-- The hop after an argument has been read as a text. -/
def bound (t : CommandTree σ) (hop : Hop σ) (name value : String) (a : NodeId) (span : Span) : Hop σ :=
  t.entered (hop.withArgument name ⟨span, .string value⟩) a span

lemma toList_quotedLine (k value : String) :
    (quotedLine k value).toList = k.toList ++ separator :: (Phrase.quote value).toList := by
  rw [quotedLine, String.toList_append, String.toList_append, List.append_assoc]
  rfl

namespace PhraseCommand

/-- The argument is the only candidate below the keyword. -/
lemma usable_eq (h : t.PhraseCommand source k name c a) (text : List Char) :
    t.usable c text source = [a] := by
  obtain ⟨provider, hpattern⟩ := h.takes
  have hargument : (t.node a).isLiteral = false := by
    rw [Node.isLiteral, hpattern]
    rfl
  obtain ⟨entry, hentry, hid⟩ := List.map_eq_singleton_iff.1 h.only
  have hcandidates : t.candidates c text = [a] := by
    simp [candidates, literals, arguments, hentry, hid, hargument]
  rw [CommandTree.usable, hcandidates, List.filter_singleton, h.usable_argument]
  rfl

/-- A quoted value at the end of the input is taken as a whole. -/
lemma picks_eq (h : t.PhraseCommand source k name c a) {r : Reader} {hop : Hop σ} (hsource : hop.source = source)
    {value : String} (hrest : r.rest = (Phrase.quote value).toList) :
    t.picks c r hop = [⟨a, t.bound hop name value a (r.ahead r.rest.length), r.rest.length⟩] := by
  obtain ⟨provider, hpattern⟩ := h.takes
  have hscan : (ArgumentType.text .phrase).scan (some hop.source) r.rest =
      .found (.string value) r.rest.length := by
    have hphrase := Scan.phrase_quote value (show endsToken [] = true from rfl)
    rw [List.append_nil, ← hrest] at hphrase
    exact Scanned.map_eq_found.2 ⟨value, hphrase, rfl⟩
  have hmatch : t.matchToken r hop a =
      .ok (t.bound hop name value a (r.ahead r.rest.length), r.rest.length) := by
    simp only [matchToken, matchNode, hpattern, hscan, Scanned.found, List.drop_length]
    rfl
  rw [picks, hsource, h.usable_eq]
  simp [pick?, hmatch]

/-- A value that is written as something is read to the end of the line. -/
lemma parse_of_ne_empty (h : t.PhraseCommand source k name c a) (ht : t.WellShaped) {value : String}
    (hvalue : value ≠ "") :
    ∃ (r : Reader) (hop : Hop σ) (span : Span), t.parse (quotedLine k value) source =
      ⟨.single (t.bound hop name value a span), r.advance r.rest.length, []⟩ ∧ hop.arguments = [] := by
  have hrest : (Reader.ofString (quotedLine k value)).rest =
      k.toList ++ separator :: (Phrase.quote value).toList := toList_quotedLine k value
  have hquoted : (Phrase.quote value).toList ≠ [] := by
    intro hnil
    exact hvalue (Phrase.quote_eq_empty_iff.1 (String.toList_injective hnil))
  have hkeyword : t.parse (quotedLine k value) source = _ :=
    parseFrom_of_keyword ht h.child h.literal h.unbroken h.plain h.usable hquoted hrest
  refine ⟨_, _, _, hkeyword.trans (parseFrom_of_sole_ends (h.picks_eq rfl (rest_advance_word hrest)) ?_), rfl⟩
  intro hmore
  exact absurd hmore.passed_lt (Nat.lt_irrefl _)

/-- Where nothing follows the separator, reading ends with the keyword. -/
lemma parse_of_empty (h : t.PhraseCommand source k name c a) (ht : t.WellShaped) :
    (t.parse (quotedLine k "") source).reader.rest = [separator] := by
  have hrest : (Reader.ofString (quotedLine k "")).rest = k.toList ++ [separator] := toList_quotedLine k ""
  have htoken : k.toList = (Reader.ofString (quotedLine k "")).rest.takeWhile (· ≠ separator) := by
    rw [hrest, takeWhile_token h.unbroken rfl]
  have hparse : t.parse (quotedLine k "") source = _ :=
    parseFrom_of_sole_ends (picks_of_keyword ht h.child h.literal h.usable htoken) ?_
  · rw [hparse, arrival, Reader.rest_advance, hrest, List.drop_left]
  · rw [goesOn_of_no_target h.plain, hrest, List.length_append]
    exact Nat.lt_irrefl _

end PhraseCommand

/-- A quoted value comes back from a command if and only if it is not empty: the empty text is the only one that
is written as nothing. -/
theorem survives_iff (ht : t.Reachable) (h : t.PhraseCommand source k name c a) (value : String) :
    t.Survives source k name value ↔ value ≠ "" := by
  constructor
  · rintro ⟨hcomplete, -⟩ rfl
    rw [ParseResult.isComplete, Reader.canRead, h.parse_of_empty ht.wellShaped] at hcomplete
    exact absurd hcomplete (by decide)
  · intro hvalue
    obtain ⟨r, hop, span, hparse, hnone⟩ := h.parse_of_ne_empty ht.wellShaped hvalue
    rw [Survives, hparse]
    constructor
    · simp [ParseResult.isComplete, Reader.canRead]
    · simp [ParseResult.context, Trail.context, Trail.single, Context.argument, Context.parsed?, bound,
        entered, Hop.withNode, Hop.withArgument, hnone, Hop.putArgument, Stored.ofValue?]

/-- A keyword that takes a phrase. -/
def herald : CommandTree Unit :=
  ⟨#[{ Node.root with children := [("say", 1)] },
    ⟨some (.literal "say"), [("text", 2)], none, none, none⟩,
    ⟨some (.argument "text" (.text .phrase) none), [], none, none, none⟩]⟩

lemma herald_reachable : herald.Reachable :=
  Reachable.register (s := { NodeSpec.ofPattern (.literal "say") with
    children := [.ofPattern (.argument "text" (.text .phrase) none)] }) .empty rfl

lemma herald_phraseCommand : herald.PhraseCommand () "say" "text" 1 2 :=
  ⟨rfl, rfl, by decide, rfl, rfl, rfl, ⟨none, rfl⟩, rfl⟩

/-- A value with a quote, an escape character and a space comes back, and the empty one does not. -/
theorem survives_iff_herald :
    herald.Reachable ∧ herald.PhraseCommand () "say" "text" 1 2 ∧ herald.Survives () "say" "text" "a \"b\" \\" ∧
      ¬ herald.Survives () "say" "text" "" :=
  ⟨herald_reachable, herald_phraseCommand, (survives_iff herald_reachable herald_phraseCommand _).2 (by decide),
    fun h => (survives_iff herald_reachable herald_phraseCommand _).1 h rfl⟩

/-- The empty text does not come back: it is written as nothing, and the line is not read to its end. -/
theorem not_survives_empty :
    herald.PhraseCommand () "say" "text" 1 2 ∧ quotedLine "say" "" = "say " ∧
      (herald.parse (quotedLine "say" "") ()).isComplete = false ∧ ¬ herald.Survives () "say" "text" "" := by
  have hincomplete : (herald.parse (quotedLine "say" "") ()).isComplete = false := by decide +kernel
  refine ⟨herald_phraseCommand, by decide, hincomplete, fun h => ?_⟩
  rw [Survives, hincomplete] at h
  exact absurd h.1 (by decide)

end CommandTree
end CommandEngine
