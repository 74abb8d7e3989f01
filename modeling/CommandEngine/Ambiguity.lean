import CommandEngine.Usage

/-!
# Ambiguities

Two children of one node are ambiguous if an example of the first is accepted by the second.
-/

namespace CommandEngine

/-- Examples of `child` that its `sibling` accepts too. -/
structure Ambiguity where
  parent : NodeId
  child : NodeId
  sibling : NodeId
  inputs : List String
  deriving DecidableEq

namespace CommandTree

variable {σ : Type}

/-- The ambiguities between one child and its siblings. -/
def ambiguitiesOf (t : CommandTree σ) (parent child : NodeId) : List Ambiguity :=
  (t.children parent).filterMap fun sibling =>
    if child = sibling then none
    else
      let shared := (t.node child).examples.filter (t.node sibling).accepts
      if shared.isEmpty then none else some ⟨parent, child, sibling, distinctTexts shared⟩

/-- The ambiguities among the children of a node and everywhere below, a child's own before those
below it. -/
def ambiguitiesBelow (t : CommandTree σ) (parent : NodeId) : List Ambiguity :=
  (t.later parent).flatMap fun ⟨c, h⟩ =>
    have : t.size - c < t.size - parent := Nat.sub_lt_sub_left (Nat.lt_trans h.1 h.2) h.1
    t.ambiguitiesOf parent c ++ ambiguitiesBelow t c
termination_by t.size - parent

/-- All ambiguities of a tree. -/
def ambiguities (t : CommandTree σ) : List Ambiguity := t.ambiguitiesBelow rootId

end CommandTree
end CommandEngine
