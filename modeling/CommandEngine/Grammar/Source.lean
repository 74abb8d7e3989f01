import CommandEngine.Inspect
import CommandEngine.Json.Basic

/-!
# Sources with permissions

The commands of a grammar are run for a source that has a name and holds permissions.  Permissions are
kept sorted and without repetitions, so two sources are equal if they have the same name and hold the
same permissions.
-/

namespace CommandEngine

/-- Someone commands are run for. -/
structure Source where
  name : String
  /-- The permissions held, sorted and without repetitions. -/
  permissions : List String
  deriving DecidableEq

namespace Source

/-- A source that holds no permissions. -/
def named (name : String) : Source := ⟨name, []⟩

/-- Puts a permission among others that are sorted, unless it is there already. -/
def insertPermission (p : String) : List String → List String
  | [] => [p]
  | q :: rest =>
    match Text.order p.toList q.toList with
    | .lt => p :: q :: rest
    | .eq => q :: rest
    | .gt => q :: insertPermission p rest

/-- The source with one more permission. -/
def grant (s : Source) (p : String) : Source :=
  { s with permissions := insertPermission p s.permissions }

/-- The source with several more permissions. -/
def grantAll (s : Source) (ps : List String) : Source := ps.foldl grant s

/-- Whether the source holds a permission. -/
def holds (s : Source) (p : String) : Bool := s.permissions.contains p

/-- The same permissions under another name. -/
def renamed (s : Source) (name : String) : Source := { s with name }

/-- A source for inspection. -/
def inspect (s : Source) : String :=
  Inspect.record "GrammarSource"
    [("name", Text.inspect s.name), ("permissions", Inspect.set (s.permissions.map Text.inspect))]

end Source
end CommandEngine
