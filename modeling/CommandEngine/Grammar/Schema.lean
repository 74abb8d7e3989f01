import CommandEngine.Argument.Type
import CommandEngine.Json.Number

/-!
# Grammars

A `Grammar` describes a command tree as data: keywords and typed arguments, what is done where a command
ends, which permission is required, and where redirects lead.  It is written as a JSON document.
`Grammar.ofText?` reads such a document and `Grammar.toJson` writes one, leaving out what has its
default value.
-/

namespace CommandEngine

/-! ## Types -/

/-- Bounds of which either may be missing. -/
structure OpenBounds (α : Type) where
  min : Option α
  max : Option α
  deriving DecidableEq

/-- The type of an argument. -/
inductive GrammarType
  | bool
  | word
  | string
  | greedy
  | integer (bounds : OpenBounds Int32)
  | long (bounds : OpenBounds Int64)
  | float (bounds : OpenBounds Single)
  | double (bounds : OpenBounds Double)
  deriving DecidableEq

/-- What is done where a command ends. -/
inductive Action
  /-- The result is a constant. -/
  | constant (value : Int32)
  /-- The result is an argument, as a number. -/
  | argument (name : String)
  /-- The command fails with a message. -/
  | fail (message : String)
  deriving DecidableEq

/-- How a redirect derives the sources that the rest of a command is run for. -/
inductive SourceRule
  /-- One source for each part of a list in an argument, named after it. -/
  | split (argument : String)
  /-- One source, named after an argument. -/
  | rename (argument : String)
  deriving DecidableEq

/-- A keyword or an argument. -/
inductive GrammarPattern
  | literal (keyword : String)
  | argument (name : String) (type : GrammarType)
  deriving DecidableEq

/-- A node of a grammar. -/
structure GrammarNode where
  pattern : GrammarPattern
  children : List GrammarNode
  executes : Option Action
  /-- The permission that a source has to hold to use the node. -/
  requires : Option String
  /-- The path of the node that the command goes on at. -/
  redirect : Option (List String)
  fork : Bool
  modifier : Option SourceRule
  suggestions : List String

/-- A description of a command tree. -/
structure Grammar where
  version : String
  commands : List GrammarNode

namespace GrammarPattern

/-- The keyword, or the name of the argument. -/
def name : GrammarPattern → String
  | literal keyword => keyword
  | argument name _ => name

/-- Whether the pattern is a keyword. -/
def isLiteral : GrammarPattern → Bool
  | literal _ => true
  | argument .. => false

end GrammarPattern

/-- The name of a node. -/
def GrammarNode.name (n : GrammarNode) : String := n.pattern.name

/-! ## Reading -/

namespace Json

/-- A text. -/
def asString? : Json → Option String
  | string s => some s
  | _ => none

/-- A truth value. -/
def asBool? : Json → Option Bool
  | bool b => some b
  | _ => none

/-- A list of texts. -/
def asStrings? : Json → Option (List String)
  | array items => items.mapM asString?
  | _ => none

/-- An integer within limits, which has to be written as one. -/
def asInt? (low high : Int) : Json → Option Int
  | number (.integer n) => if low ≤ n ∧ n ≤ high then some n else none
  | _ => none

/-- An integer of 32 bits. -/
def asInt32? (v : Json) : Option Int32 :=
  (v.asInt? Int32.minValue.toInt Int32.maxValue.toInt).map Int32.ofInt

/-- An integer of 64 bits. -/
def asInt64? (v : Json) : Option Int64 :=
  (v.asInt? Int64.minValue.toInt Int64.maxValue.toInt).map Int64.ofInt

/-- A number, rounded to a format. -/
def asFloating? {f : FloatFormat} : Json → Option (Floating f)
  | number (.integer n) => some (.ofInt n)
  | number (.single x) => some (x.convert f)
  | number (.double x) => some (x.convert f)
  | _ => none

/-- Something that `null` stands for the lack of. -/
def asOption? {α : Type} (read : Json → Option α) : Json → Option (Option α)
  | null => some none
  | v => (read v).map some

/-- The values of the fields with a name. -/
def valuesOf {α : Type} (name : String) (fields : List (String × α)) : List α :=
  fields.filterMap fun (key, v) => if key = name then some v else none

/-- The value of a field that may be missing but not repeated. -/
def field? {α β : Type} (name : String) (default : β) (read : α → Option β)
    (fields : List (String × α)) : Option β :=
  match valuesOf name fields with
  | [] => some default
  | [v] => read v
  | _ => none

/-- The value of a field that is neither missing nor repeated. -/
def required? {α β : Type} (name : String) (read : α → Option β) (fields : List (String × α)) :
    Option β :=
  match valuesOf name fields with
  | [v] => read v
  | _ => none

end Json

/-- Reads bounds: an object with the two ends, or an array of them in order. -/
def OpenBounds.ofJson? {α : Type} (read : Json → Option α) : Json → Option (OpenBounds α)
  | .object fields => do
    let min ← Json.field? "min" none (Json.asOption? read) fields
    let max ← Json.field? "max" none (Json.asOption? read) fields
    return ⟨min, max⟩
  | .array [] => some ⟨none, none⟩
  | .array [a] => (Json.asOption? read a).map fun min => ⟨min, none⟩
  | .array [a, b] => do
    let min ← Json.asOption? read a
    let max ← Json.asOption? read b
    return ⟨min, max⟩
  | _ => none

/-- The types that are written as a word. -/
def GrammarType.ofWord? : String → Option GrammarType
  | "bool" => some .bool
  | "word" => some .word
  | "string" => some .string
  | "greedy" => some .greedy
  | _ => none

/-- Reads a type: a word, or an object with one field. -/
def GrammarType.ofJson? : Json → Option GrammarType
  | .string s => ofWord? s
  | .object [("integer", v)] => (OpenBounds.ofJson? Json.asInt32? v).map .integer
  | .object [("long", v)] => (OpenBounds.ofJson? Json.asInt64? v).map .long
  | .object [("float", v)] => (OpenBounds.ofJson? Json.asFloating? v).map .float
  | .object [("double", v)] => (OpenBounds.ofJson? Json.asFloating? v).map .double
  | .object [(s, .null)] => ofWord? s
  | _ => none

/-- Reads an action: an object with one field. -/
def Action.ofJson? : Json → Option Action
  | .object [("return", v)] => v.asInt32?.map .constant
  | .object [("argument", .string s)] => some (.argument s)
  | .object [("fail", .string s)] => some (.fail s)
  | _ => none

/-- Reads a rule for sources: an object with one field. -/
def SourceRule.ofJson? : Json → Option SourceRule
  | .object [("split", .string s)] => some (.split s)
  | .object [("as", .string s)] => some (.rename s)
  | _ => none

/-- Reads what a node matches: a keyword if there is one, else an argument. -/
def GrammarPattern.ofFields? (fields : List (String × Json)) : Option GrammarPattern :=
  ((Json.required? "literal" Json.asString? fields).map .literal).or do
    let name ← Json.required? "argument" Json.asString? fields
    let type ← Json.required? "type" GrammarType.ofJson? fields
    return .argument name type

mutual

/-- Reads a node. -/
def GrammarNode.ofJson? : Json → Option GrammarNode
  | .object fields => do
    let children ← match ← GrammarNode.childrenOf? fields with
      | [] => some []
      | [children] => some children
      | _ => none
    let executes ← Json.field? "executes" none (Json.asOption? Action.ofJson?) fields
    let requires ← Json.field? "requires" none (Json.asOption? Json.asString?) fields
    let redirect ← Json.field? "redirect" none (Json.asOption? Json.asStrings?) fields
    let fork ← Json.field? "fork" false Json.asBool? fields
    let modifier ← Json.field? "modifier" none (Json.asOption? SourceRule.ofJson?) fields
    let suggestions ← Json.field? "suggestions" [] Json.asStrings? fields
    let pattern ← GrammarPattern.ofFields? fields
    return { pattern, children, executes, requires, redirect, fork, modifier, suggestions }
  | _ => none

/-- Reads a list of nodes. -/
def GrammarNode.listOfJson? : List Json → Option (List GrammarNode)
  | [] => some []
  | v :: rest => do
    let node ← GrammarNode.ofJson? v
    let nodes ← GrammarNode.listOfJson? rest
    return node :: nodes

/-- Reads every list of children among the fields of a node. -/
def GrammarNode.childrenOf? : List (String × Json) → Option (List (List GrammarNode))
  | [] => some []
  | (key, v) :: rest => do
    let others ← GrammarNode.childrenOf? rest
    if key = "children" then
      match v with
      | .array items => return (← GrammarNode.listOfJson? items) :: others
      | _ => none
    else return others

end

namespace Grammar

/-- How deep arrays and objects of a document may be nested, the document itself not counted. -/
def nestingLimit : Nat := 126

/-- Reads a version. -/
def versionOf? (v : JsonSyntax) : Option String := (v.decode? nestingLimit).bind Json.asString?

/-- Reads a list of commands. -/
def commandsOf? (v : JsonSyntax) : Option (List GrammarNode) :=
  match v.decode? nestingLimit with
  | some (.array items) => GrammarNode.listOfJson? items
  | _ => none

/-- Reads a grammar: an object, of which other fields are left alone, or an array of the fields in
order. -/
def ofSyntax? : JsonSyntax → Option Grammar
  | .object fields => do
    let fields ← fields.mapM fun (key, v) => (JsonSyntax.stringValue? key).map fun name => (name, v)
    let version ← Json.required? "schema_version" versionOf? fields
    let commands ← Json.field? "commands" [] commandsOf? fields
    return ⟨version, commands⟩
  | .array [v] => (versionOf? v).map fun version => ⟨version, []⟩
  | .array [v, c] => do
    let version ← versionOf? v
    let commands ← commandsOf? c
    return ⟨version, commands⟩
  | _ => none

/-- Reads a document. -/
def ofText? (text : String) : Option Grammar := (JsonSyntax.parse? text).bind ofSyntax?

end Grammar

/-! ## Writing -/

/-- A field that is left out if there is nothing to write. -/
def Json.optional {α : Type} (name : String) (write : α → Json) : Option α → List (String × Json)
  | none => []
  | some a => [(name, write a)]

/-- A list of texts that is left out if it is empty. -/
def Json.nonempty (name : String) : List String → List (String × Json)
  | [] => []
  | l => [(name, .strings l)]

/-- Writes bounds. -/
def OpenBounds.toJson {α : Type} (write : α → Json) (b : OpenBounds α) : Json :=
  .object (Json.optional "min" write b.min ++ Json.optional "max" write b.max)

/-- Writes a type. -/
def GrammarType.toJson : GrammarType → Json
  | bool => .string "bool"
  | word => .string "word"
  | string => .string "string"
  | greedy => .string "greedy"
  | integer b => .object [("integer", b.toJson fun n => .ofInt n.toInt)]
  | long b => .object [("long", b.toJson fun n => .ofInt n.toInt)]
  | float b => .object [("float", b.toJson fun x => .number (.single x))]
  | double b => .object [("double", b.toJson fun x => .number (.double x))]

/-- Writes an action. -/
def Action.toJson : Action → Json
  | constant n => .object [("return", .ofInt n.toInt)]
  | argument name => .object [("argument", .string name)]
  | fail message => .object [("fail", .string message)]

/-- Writes a rule for sources. -/
def SourceRule.toJson : SourceRule → Json
  | split name => .object [("split", .string name)]
  | rename name => .object [("as", .string name)]

/-- Writes what a node matches. -/
def GrammarPattern.toFields : GrammarPattern → List (String × Json)
  | literal keyword => [("literal", .string keyword)]
  | argument name type => [("argument", .string name), ("type", type.toJson)]

mutual

/-- Writes a node. -/
def GrammarNode.toJson : GrammarNode → Json
  | ⟨pattern, children, executes, requires, redirect, fork, modifier, suggestions⟩ =>
    .object (pattern.toFields
      ++ (match children with
        | [] => []
        | first :: rest => [("children", .array (GrammarNode.toJson first :: GrammarNode.listToJson rest))])
      ++ Json.optional "executes" Action.toJson executes
      ++ Json.optional "requires" Json.string requires
      ++ Json.optional "redirect" Json.strings redirect
      ++ (if fork then [("fork", .bool true)] else [])
      ++ Json.optional "modifier" SourceRule.toJson modifier
      ++ Json.nonempty "suggestions" suggestions)

/-- Writes a list of nodes. -/
def GrammarNode.listToJson : List GrammarNode → List Json
  | [] => []
  | n :: rest => GrammarNode.toJson n :: GrammarNode.listToJson rest

end

/-- Writes a grammar. -/
def Grammar.toJson (g : Grammar) : Json :=
  .object [("schema_version", .string g.version), ("commands", .array (GrammarNode.listToJson g.commands))]

end CommandEngine
