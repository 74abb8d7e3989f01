import CommandEngine.Grammar.Schema
import CommandEngine.Scan
import CommandEngine.Tree.Build

/-!
# Checking a grammar

A grammar that has been read is checked before it is used: the version, the names, the bounds, and which
fields go together.  The first fault is reported with the place of the field that has it.
-/

namespace CommandEngine

/-- Why a grammar cannot be used. -/
inductive GrammarError
  /-- The text is not a JSON document of the right form. -/
  | invalidJson
  /-- A field breaks a rule. -/
  | invalidField (field reason : String)
  /-- A redirect leads nowhere. -/
  | unresolvedRedirect (source target : String)
  /-- The tree refused a node. -/
  | build (path : String) (cause : BuildError)
  deriving DecidableEq

namespace GrammarError

/-- The wording of a fault. -/
def message : GrammarError → String
  | invalidJson => "invalid grammar JSON"
  | invalidField field reason => "invalid " ++ field ++ ": " ++ reason
  | unresolvedRedirect source target =>
    "redirect at '" ++ source ++ "' targets unknown path '" ++ target ++ "'"
  | build path cause => "cannot register '" ++ path ++ "': " ++ cause.message

/-- The wordings of the faults that led to this one. -/
def causes : GrammarError → List String
  | build _ cause => [cause.message]
  | _ => []

end GrammarError

/-- The first of two ends is not above the second, where both are given. -/
def OpenBounds.check {α : Type} [Numeral α] (b : OpenBounds α) (field : String) :
    Except GrammarError Unit :=
  match b.min, b.max with
  | some min, some max =>
    if Numeral.below max min then
      .error (.invalidField field
        ("min (" ++ Numeral.text min ++ ") > max (" ++ Numeral.text max ++ ")"))
    else .ok ()
  | _, _ => .ok ()

/-- Checks the bounds of a type. -/
def GrammarType.check (field : String) : GrammarType → Except GrammarError Unit
  | integer b => b.check field
  | long b => b.check field
  | float b => b.check field
  | double b => b.check field
  | _ => .ok ()

/-- Checks the name of a node. -/
def GrammarPattern.checkName (p : GrammarPattern) (field : String) : Except GrammarError Unit :=
  if Text.trim p.name.toList = [] then .error (.invalidField field "name must not be empty")
  else if p.isLiteral && p.name.toList.contains separator then
    .error (.invalidField field ("literal '" ++ p.name ++ "' must not contain spaces"))
  else .ok ()

/-- Checks the type of an argument; a keyword has no suggestions. -/
def GrammarPattern.checkType (p : GrammarPattern) (suggestions : List String) (field : String) :
    Except GrammarError Unit :=
  match p with
  | argument _ type => type.check (field ++ ".type")
  | literal _ =>
    if suggestions.isEmpty then .ok ()
    else .error (.invalidField (field ++ ".suggestions") "only argument nodes take suggestions")

/-- Checks that a node that redirects has no children, and that one that does not has nothing that
belongs to a redirect. -/
def GrammarNode.checkRedirect (n : GrammarNode) (field : String) : Except GrammarError Unit :=
  if n.redirect.isSome then
    if n.children.isEmpty then .ok ()
    else .error (.invalidField (field ++ ".redirect")
      ("'" ++ n.name ++ "' cannot redirect and have children"))
  else if n.fork then .error (.invalidField (field ++ ".fork") "requires a redirect")
  else if n.modifier.isSome then .error (.invalidField (field ++ ".modifier") "requires a redirect")
  else .ok ()

/-- The place of an item of a list. -/
def itemField (list : String) (index : Nat) : String := list ++ "[" ++ toString index ++ "]"

mutual

/-- Checks a node and everything below it. -/
def GrammarNode.check (field : String) : GrammarNode → Except GrammarError Unit
  | ⟨pattern, children, executes, requires, redirect, fork, modifier, suggestions⟩ => do
    pattern.checkName field
    pattern.checkType suggestions field
    GrammarNode.checkRedirect
      ⟨pattern, children, executes, requires, redirect, fork, modifier, suggestions⟩ field
    GrammarNode.checkAll (field ++ ".children") 0 children

/-- Checks several nodes, numbered from `index` on. -/
def GrammarNode.checkAll (list : String) (index : Nat) : List GrammarNode → Except GrammarError Unit
  | [] => .ok ()
  | n :: rest => do
    GrammarNode.check (itemField list index) n
    GrammarNode.checkAll list (index + 1) rest

end

namespace Grammar

/-- The only major version that is understood. -/
def majorVersion : Nat := 1

/-- Checks the version: its first number counts. -/
def checkVersion (version : String) : Except GrammarError Unit :=
  let trimmed := Text.trim version.toList
  if trimmed = [] then .error (.invalidField "schema_version" "must not be empty")
  else if Digits.integer? (trimmed.takeWhile (· ≠ '.')) = some (majorVersion : Int) then .ok ()
  else .error (.invalidField "schema_version"
    ("unsupported version '" ++ String.ofList trimmed ++ "' (expected " ++ toString majorVersion
      ++ ".x)"))

/-- Checks the commands, numbered from `index` on.  Each has to be a keyword. -/
def checkCommands (index : Nat) : List GrammarNode → Except GrammarError Unit
  | [] => .ok ()
  | n :: rest =>
    let field := itemField "commands" index
    if n.pattern.isLiteral then do
      n.check field
      checkCommands (index + 1) rest
    else .error (.invalidField field "top-level commands must be literals")

/-- Checks a grammar. -/
def check (g : Grammar) : Except GrammarError Unit := do
  checkVersion g.version
  checkCommands 0 g.commands

/-- Reads a document and checks the grammar in it. -/
def load (text : String) : Except GrammarError Grammar :=
  match ofText? text with
  | none => .error .invalidJson
  | some g => g.check.map fun _ => g

end Grammar
end CommandEngine
