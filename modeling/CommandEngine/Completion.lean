import CommandEngine.Parse

/-!
# Completing a command

To complete a command at a byte offset, every child of the node before that offset is asked for
suggestions, as if the input ended there.  A child that refuses contributes nothing; what the others
suggest is merged over the whole input.
-/

namespace CommandEngine

variable {σ : Type}

/-- What a provider's answer contributes; a refusal contributes nothing, and a fault gets through. -/
def Provider.contribution : Except ProviderFailure Suggestions → Except SuggestionFault Suggestions
  | .ok s => .ok s
  | .error (.refused _) => .ok .empty
  | .error (.faulty fault) => .error fault

namespace CommandTree

/-- What a node suggests; the root suggests nothing. -/
def suggest (t : CommandTree σ) (id : NodeId) : Provider σ :=
  ((t.node id).pattern.map Pattern.suggest).getD Provider.none

/-- The suggestions of every child of a node, in order. -/
def suggestBelow (t : CommandTree σ) (parent : NodeId) (context : Context σ) (c : Collector) :
    Except SuggestionFault (List Suggestions) :=
  (t.children parent).mapM fun child => Provider.contribution (t.suggest child context c)

/-- The suggestions for a command at a byte offset of its input. -/
def completeAt (t : CommandTree σ) (r : ParseResult σ) (offset : Nat) :
    Except SuggestionFault Suggestions :=
  match r.trail.anchor? offset, Text.splitAt? r.reader.chars offset with
  | some anchor, some (before, _) =>
    let truncated := String.ofList before
    let collector := Collector.new truncated (min anchor.start offset)
    (t.suggestBelow anchor.parent (r.trail.context truncated) collector).bind fun results =>
      Suggestions.orDisordered (Suggestions.merge? r.reader.input results)
  | _, _ => .ok .empty

/-- The suggestions for a command at the end of its input. -/
def complete (t : CommandTree σ) (r : ParseResult σ) : Except SuggestionFault Suggestions :=
  t.completeAt r r.reader.totalWidth

end CommandTree
end CommandEngine
