import CommandEngine.Ambiguity
import CommandEngine.Completion
import CommandEngine.Console.Demo
import CommandEngine.Console.Options
import CommandEngine.Console.Report
import CommandEngine.Grammar.Build
import CommandEngine.Json.Encode

/-!
# Answers

`Console.answer` does what a command line asks for.  The result is an `Answer`: an exit code, the text
written to the output, and the messages for the person at the terminal.
-/

namespace CommandEngine
namespace Console

/-- What comes of a command line. -/
structure Answer where
  exit : Nat
  output : String
  messages : List Message
  deriving DecidableEq

namespace Answer

/-- An output line for each text. -/
def lines (l : List String) : String := String.join (l.map (· ++ "\n"))

/-- A JSON document, its fields sorted. -/
def document (v : Json) : String := v.sorted.pretty ++ "\n"

/-- Success with an output. -/
def ok (output : String) : Answer := ⟨0, output, []⟩

/-- Something that is not about the line itself went wrong. -/
def failure (format : Format) (message : String) : Answer :=
  match format with
  | .json =>
    ⟨1, document (.object [("success", .bool false), ("error", .string "command_failed"),
      ("message", .string message)]), []⟩
  | .pretty => ⟨1, "", [.line ("error: " ++ message)]⟩

end Answer

open Answer

/-! ## Lines -/

/-- Runs a line. -/
def runLine (t : CommandTree Source) (input : String) (source : Source) (format : Format) : Answer :=
  let run := t.execute input source
  let notices := run.notices
  match run.outcome, format with
  | .error e, .json => ⟨1, document (.object [("ok", .bool false), ("error", e.toJson)]), []⟩
  | .error e, .pretty => ⟨1, "", messagesOf input e⟩
  | .ok n, .json =>
    .ok (document (.object [("ok", .bool true), ("result", .ofInt n.toInt),
      ("notifications", .array (notices.map fun x =>
        .object [("source", .string x.context.source.name), ("success", .bool x.success),
          ("result", .ofInt x.result.toInt)]))]))
  | .ok n, .pretty =>
    let told := if 1 < notices.length then notices.map fun x =>
        .line (x.context.source.name ++ ": "
          ++ if x.success then Digits.ofInt x.result.toInt else "failed")
      else []
    ⟨0, lines [Digits.ofInt n.toInt], told⟩

/-- A hop as JSON. -/
def hopJson (t : CommandTree Source) (input : String) (h : Hop Source) : Json :=
  .object [("range", h.span.toJson), ("executable", .bool h.handler.isSome),
    ("nodes", .array (h.nodes.map fun m =>
      .object [("name", .string (t.node m.node).name), ("range", m.span.toJson)])),
    ("arguments", .array (h.arguments.map fun (name, p) =>
      .object [("name", .string name), ("text", .string (p.span.text input)),
        ("range", p.span.toJson)]))]

/-- A hop as lines. -/
def hopLines (t : CommandTree Source) (input : String) (index : Nat) (h : Hop Source) : List String :=
  let names := h.nodes.map fun m => (t.node m.node).name
  ("hop " ++ toString index ++ " " ++ h.span.display ++ ": " ++ pathText names
      ++ if h.handler.isSome then " (executable)" else "")
    :: h.arguments.map fun (name, p) =>
      "  " ++ name ++ " = " ++ p.span.text input ++ " " ++ p.span.display

/-- Shows what a line is read as. -/
def parseLine (t : CommandTree Source) (input : String) (source : Source) (format : Format) : Answer :=
  let r := t.parse input source
  let exit := if r.error?.isSome then 1 else 0
  match format with
  | .json =>
    ⟨exit, document (.object [("complete", .bool r.isComplete), ("consumed", .ofNat r.reader.cursor),
      ("hops", .array (r.trail.hops.map (hopJson t input))),
      ("candidate_errors", .array (r.failures.map fun (id, e) =>
        .object [("node", .string (t.node id).name), ("error", e.toJson)])),
      ("error", .ofOption SyntaxError.toJson r.error?)]), []⟩
  | .pretty =>
    ⟨exit, lines (r.trail.hops.zipIdx.flatMap fun (h, index) => hopLines t input index h),
      (r.error?.map (messagesOf input)).getD []⟩

/-- The exit code for faulty suggestions. -/
def faultExit : Nat := 101

/-- Completes a line. -/
def suggestLine (t : CommandTree Source) (input : String) (cursor : Option Nat) (source : Source)
    (format : Format) : Answer :=
  let width := Text.width input.toList
  let cursor := cursor.getD width
  if width < cursor then
    failure format ("cursor " ++ toString cursor ++ " is past the end of the input ("
      ++ toString width ++ " bytes)")
  else match t.completeAt (t.parse input source) cursor, format with
    | .error fault, _ => ⟨faultExit, "", [.line fault.message]⟩
    | .ok found, .json =>
      .ok (document (.object [("input", .string input), ("cursor", .ofNat cursor),
        ("range", found.span.toJson), ("suggestions", .array (found.list.map Suggestion.toJson))]))
    | .ok found, .pretty =>
      ⟨0, lines (found.list.map fun s =>
          match s.tooltip with
          | some tooltip => s.text ++ "  (" ++ tooltip ++ ")"
          | none => s.text),
        if found.isEmpty then [.line "no suggestions"] else []⟩

/-! ## Trees -/

/-- Shows the usage lines below a path. -/
def usageBelow (t : CommandTree Source) (path : List String) (smart unrestricted : Bool)
    (source : Source) (format : Format) : Answer :=
  match t.find? path with
  | none => failure format ("no node at path '" ++ pathText path ++ "'")
  | some id =>
    let found :=
      if smart then (t.smartUsage id source !unrestricted).map Prod.snd
      else t.allUsage id source !unrestricted
    match format with
    | .json => .ok (document (.object [("path", .strings path), ("usage", .strings found)]))
    | .pretty =>
      let lead := pathText path
      .ok (lines (found.map fun line =>
        if lead = "" then line else if line = "" then lead else CommandTree.joinUsage lead line))

/-- Shows the ambiguities of a tree. -/
def showAmbiguities (t : CommandTree Source) (format : Format) : Answer :=
  let found := t.ambiguities
  match format with
  | .json =>
    .ok (document (.object [("ambiguities", .array (found.map fun a =>
      .object [("parent", .strings (t.path a.parent)), ("child", .string (t.node a.child).usage),
        ("sibling", .string (t.node a.sibling).usage), ("inputs", .strings a.inputs)]))]))
  | .pretty =>
    ⟨0, lines (found.map fun a =>
        let path := t.path a.parent
        (if path.isEmpty then "<root>" else pathText path) ++ ": " ++ (t.node a.child).usage ++ " and "
          ++ (t.node a.sibling).usage ++ " both accept " ++ Text.join ", " a.inputs),
      if found.isEmpty then [.line "no ambiguities"] else []⟩

/-- A text in cyan. -/
def cyan (s : String) : String := "\x1b[36m" ++ s ++ "\x1b[0m"

/-- Explains a code. -/
def explainCode (id : String) (format : Format) : Answer :=
  match format, ErrorCode.explain? id with
  | .json, explanation =>
    .ok (document (.object [("id", .string id), ("explanation", .ofOption .string explanation)]))
  | .pretty, some text => .ok (lines [cyan id ++ ": " ++ text])
  | .pretty, none => .ok (lines [id ++ ": (no explanation available)"])

/-! ## Requests -/

/-- The wording of a fault and of everything that led to it. -/
def chainText (context : String) (e : GrammarError) : String :=
  Text.join ": " (context :: e.message :: e.causes)

/-- The tree that commands are run against: that of the grammar in a file, or the demonstration. -/
def loadTree (path : Option String) (read : String → Except String String) :
    Except String (CommandTree Source) :=
  match path with
  | none => Demo.grammar.build.mapError (chainText "failed to load grammar file '<embedded>'")
  | some path =>
    match read path with
    | .error cause => .error ("failed to read grammar file '" ++ path ++ "': " ++ cause)
    | .ok text =>
      (Grammar.loadTree text).mapError (chainText ("failed to load grammar file '" ++ path ++ "'"))

/-- Does what is asked, given how files are read. -/
def Request.answer (r : Request) (read : String → Except String String) : Answer :=
  let source := (Source.named r.sourceName).grantAll r.permissions
  match r.task with
  | .explain id => explainCode id r.format
  | task =>
    match loadTree r.grammar read with
    | .error message => failure r.format message
    | .ok t =>
      match task with
      | .run input => runLine t input source r.format
      | .parse input => parseLine t input source r.format
      | .suggest input cursor => suggestLine t input cursor source r.format
      | .usage path smart unrestricted => usageBelow t path smart unrestricted source r.format
      | .ambiguities => showAmbiguities t r.format
      | .explain id => explainCode id r.format

/-- How the program is called. -/
def synopsis : String :=
  lines ["Usage: [OPTIONS] run <INPUT>", "       [OPTIONS] parse <INPUT>",
    "       [OPTIONS] suggest [--cursor <CURSOR>] <INPUT>",
    "       [OPTIONS] usage [--smart] [--unrestricted] [PATH]...", "       [OPTIONS] ambiguities",
    "       [OPTIONS] explain <ID>", "",
    "Options: --output <pretty|json>, --grammar <GRAMMAR>, --as <SOURCE_NAME>,",
    "         -p, --permission <PERMISSION>, -v, --verbose, -h, --help"]

/-- The answer to a command line. -/
def answer (args : List String) (read : String → Except String String) : Answer :=
  match Request.ofArguments args with
  | .error .help => .ok synopsis
  | .error .faulty => ⟨2, "", [.line "the arguments are not understood; try --help"]⟩
  | .ok request => request.answer read

end Console
end CommandEngine
