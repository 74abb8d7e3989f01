import CommandEngine.Grammar.Schema

/-!
# The demonstration grammar

The grammar that commands are run against when no other one is given.
-/

namespace CommandEngine
namespace Console
namespace Demo

/-- A node with nothing attached. -/
def node (pattern : GrammarPattern) : GrammarNode :=
  ⟨pattern, [], none, none, none, false, none, []⟩

/-- A keyword with children. -/
def keyword (name : String) (children : List GrammarNode) : GrammarNode :=
  { node (.literal name) with children }

/-- A keyword that does something. -/
def ending (name : String) (action : Action) : GrammarNode :=
  { node (.literal name) with executes := some action }

/-- A keyword that redirects. -/
def detour (name : String) (target : List String) : GrammarNode :=
  { node (.literal name) with redirect := some target }

/-- An argument whose value is the result. -/
def result (name : String) (type : GrammarType) : GrammarNode :=
  { node (.argument name type) with executes := some (.argument name) }

/-- The names that are suggested for people. -/
def people : List String := ["alice", "bob", "carol"]

/-- The demonstration grammar. -/
def grammar : Grammar where
  version := "1.0.0"
  commands :=
    [ending "ping" (.constant 1),
      keyword "echo" [result "text" .greedy],
      keyword "say" [result "message" .string],
      detour "msg" ["say"],
      keyword "give"
        [{ node (.argument "player" .word) with
            suggestions := people
            children := [result "count" (.integer ⟨some 1, some 64⟩)] }],
      keyword "toggle" [result "flag" .bool],
      keyword "scale" [result "factor" (.double ⟨some (.ofInt 0), some (.ofInt 10)⟩)],
      { keyword "admin"
          [ending "reload" (.constant 0), ending "shutdown" (.fail "refusing to shut down")] with
        requires := some "admin" },
      keyword "as"
        [{ node (.argument "who" .word) with
            suggestions := people
            redirect := some []
            modifier := some (.rename "who") }],
      keyword "each"
        [{ node (.argument "names" .string) with
            redirect := some []
            fork := true
            modifier := some (.split "names") }],
      detour "run" []]

end Demo
end Console
end CommandEngine
