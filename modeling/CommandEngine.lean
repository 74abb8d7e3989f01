import CommandEngine.Ambiguity
import CommandEngine.Completion
import CommandEngine.Console.Answer
import CommandEngine.Execution
import CommandEngine.Grammar.Build
import CommandEngine.Inspect
import CommandEngine.Json.Encode
import CommandEngine.Main
import CommandEngine.Usage
import CommandEngine.Proofs.Tree.Merge
import CommandEngine.Proofs.Walk
import CommandEngine.Proofs.Tiling
import CommandEngine.Proofs.BestWalk
import CommandEngine.Proofs.Grammar.Declarations
import CommandEngine.Proofs.Schedule
import CommandEngine.Proofs.Permission
import CommandEngine.Proofs.Tree.Growth
import CommandEngine.Proofs.Tree.Registry
import CommandEngine.Proofs.Tree.Arena
import CommandEngine.Proofs.Tree.Stored
import CommandEngine.Proofs.Tree.Exclusion
import CommandEngine.Proofs.Commitment
import CommandEngine.Proofs.Inheritance
import CommandEngine.Proofs.Stopping
import CommandEngine.Proofs.Completion.Anchor
import CommandEngine.Proofs.Settling
import CommandEngine.Proofs.Completion.Cut
import CommandEngine.Proofs.Grammar.Building
import CommandEngine.Proofs.Simulation
import CommandEngine.Proofs.Keywords
import CommandEngine.Proofs.Likeness
import CommandEngine.Proofs.Alias
import CommandEngine.Proofs.Sorting
import CommandEngine.Proofs.Registration
import CommandEngine.Proofs.Forwarding
import CommandEngine.Proofs.UsageLines
import CommandEngine.Proofs.Completion.Contribution
import CommandEngine.Proofs.Completion.Placement
import CommandEngine.Proofs.Completion.Offer
import CommandEngine.Proofs.Renumbering
import CommandEngine.Proofs.Grammar.Order
import CommandEngine.Proofs.Quoting
import CommandEngine.Proofs.LinearSorting
import CommandEngine.Proofs.Suggestion.NormalForm
import CommandEngine.Proofs.Suggestion.Outcome
import CommandEngine.Proofs.AscendingSorting
import CommandEngine.Proofs.Suggestion.Consistency
import CommandEngine.Proofs.Suggestion.Repetition
import CommandEngine.Proofs.Completion.Literals
import CommandEngine.Proofs.Classification
import CommandEngine.Proofs.Tree.Paths
import CommandEngine.Proofs.KeywordLookup
import CommandEngine.Proofs.KeywordLines
import CommandEngine.Proofs.Lead
import CommandEngine.Proofs.Escapes
import CommandEngine.Proofs.IntegerReading
import CommandEngine.Proofs.Operations
import CommandEngine.Proofs.ByteParse
import CommandEngine.Proofs.Ambiguity
import CommandEngine.Proofs.Rewinding
