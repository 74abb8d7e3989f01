import CommandEngine.Number.Decimal

/-!
# The command line

What can be asked of the program: to run, parse or complete a line, to show usage lines or ambiguities,
and to explain a code.  `Request.ofArguments` reads the arguments of a call.

Options may stand before or after the name of the task, with their value in the next argument or after
an equals sign; one-letter options may be written together.  Nothing may be given twice on the same
side of the name, except permissions; what stands after the name goes before what stands in
front of it.  After `--` there are no more options.
-/

namespace CommandEngine
namespace Console

/-- How answers are written. -/
inductive Format
  | pretty
  | json
  deriving DecidableEq

/-- A format by its name. -/
def Format.ofWord? : String → Option Format
  | "pretty" => some pretty
  | "json" => some json
  | _ => none

/-- The largest offset that can be given. -/
def maxOffset : Nat := twoTo 64 - 1

/-- Reads an offset; a plus sign may stand before its digits. -/
def offset? (text : String) : Option Nat :=
  let digits := match text.toList with
    | '+' :: ds => ds
    | ds => ds
  if digits ≠ [] ∧ digits.all Digits.isDigit ∧ Digits.value digits ≤ maxOffset then
    some (Digits.value digits)
  else none

/-- What is to be done. -/
inductive Task
  | run (input : String)
  | parse (input : String)
  | suggest (input : String) (cursor : Option Nat)
  | usage (path : List String) (smart unrestricted : Bool)
  | ambiguities
  | explain (id : String)
  deriving DecidableEq

/-- The names of the tasks. -/
inductive TaskName
  | run
  | parse
  | suggest
  | usage
  | ambiguities
  | explain
  deriving DecidableEq

/-- A task by its name. -/
def TaskName.ofWord? : String → Option TaskName
  | "run" => some run
  | "parse" => some parse
  | "suggest" => some suggest
  | "usage" => some usage
  | "ambiguities" => some ambiguities
  | "explain" => some explain
  | _ => none

/-- Whether a further word can belong to a task that has `count` words already. -/
def TaskName.takesWord : TaskName → (count : Nat) → Bool
  | usage, _ => true
  | ambiguities, _ => false
  | _, count => count = 0

/-- The options. -/
inductive OptionName
  | output
  | grammar
  | sourceName
  | permission
  | verbose
  | cursor
  | smart
  | unrestricted
  deriving DecidableEq

namespace OptionName

/-- Whether an option has a value. -/
def takesValue : OptionName → Bool
  | output | grammar | sourceName | permission | cursor => true
  | verbose | smart | unrestricted => false

/-- Whether an option can be given for a task, or in front of its name. -/
def allowed : OptionName → Option TaskName → Bool
  | cursor, task => task == some .suggest
  | smart, task => task == some .usage
  | unrestricted, task => task == some .usage
  | _, _ => true

/-- An option by its long name. -/
def ofLong? : String → Option OptionName
  | "output" => some output
  | "grammar" => some grammar
  | "as" => some sourceName
  | "permission" => some permission
  | "verbose" => some verbose
  | "cursor" => some cursor
  | "smart" => some smart
  | "unrestricted" => some unrestricted
  | _ => none

/-- An option by its letter. -/
def ofLetter? : Char → Option OptionName
  | 'p' => some permission
  | 'v' => some verbose
  | _ => none

/-- Whether an option can have a value. -/
def fits : OptionName → String → Bool
  | output, value => (Format.ofWord? value).isSome
  | cursor, value => (offset? value).isSome
  | _, _ => true

end OptionName

/-- Why there is no request: the arguments are faulty, or ask for help. -/
inductive Refusal
  | faulty
  | help
  deriving DecidableEq

/-- Options in the order in which they were given, each with its value. -/
abbrev Given := List (OptionName × String)

/-- What has been read of a command line. -/
structure Scanning where
  task : Option TaskName
  /-- Options in front of the name of the task. -/
  before : Given
  /-- Options after the name of the task. -/
  after : Given
  words : List String

namespace Scanning

/-- Nothing has been read. -/
def start : Scanning := ⟨none, [], [], []⟩

/-- Records an option with a value it can have.  The option must be allowed and must not have been given on
this side of the name already. -/
def give (s : Scanning) (name : OptionName) (value : String) : Except Refusal Scanning :=
  let side := if s.task.isSome then s.after else s.before
  if !name.allowed s.task || (name != .permission && (side.lookup name).isSome)
      || !name.fits value then .error .faulty
  else if s.task.isSome then .ok { s with after := side ++ [(name, value)] }
  else .ok { s with before := side ++ [(name, value)] }

/-- Records a word that belongs to the task. -/
def taskWord (s : Scanning) (w : String) : Except Refusal Scanning :=
  match s.task with
  | some task =>
    if task.takesWord s.words.length then .ok { s with words := s.words ++ [w] } else .error .faulty
  | none => .error .faulty

/-- Records a word: the name of the task, or something that belongs to it. -/
def word (s : Scanning) (w : String) : Except Refusal Scanning :=
  match s.task, TaskName.ofWord? w with
  | some _, _ => s.taskWord w
  | none, some task => .ok { s with task := some task }
  | none, none => .error .faulty

/-- Reads letters that stand together.  The last one may lack its value, which then is the next argument. -/
def letters (s : Scanning) : List Char → Except Refusal (Scanning × Option OptionName)
  | [] => .ok (s, none)
  | c :: rest =>
    if c = 'h' then .error .help
    else if c = 'V' ∧ s.task.isNone then .error .help
    else match OptionName.ofLetter? c with
      | none => .error .faulty
      | some name =>
        if name.takesValue then
          match rest with
          | [] => .ok (s, some name)
          | '=' :: value => (s.give name (String.ofList value)).map fun s => (s, none)
          | value => (s.give name (String.ofList value)).map fun s => (s, none)
        else (s.give name "").bind fun s => letters s rest

/-- Reads a long option.  Without an equals sign its value is the next argument. -/
def long (s : Scanning) (body : List Char) : Except Refusal (Scanning × Option OptionName) :=
  let name := String.ofList (body.takeWhile (· ≠ '='))
  let value := body.dropWhile (· ≠ '=')
  if name = "help" ∧ value = [] then .error .help
  else if name = "version" ∧ value = [] ∧ s.task.isNone then .error .help
  else match OptionName.ofLong? name, value with
    | none, _ => .error .faulty
    | some option, [] =>
      if option.takesValue then
        if option.allowed s.task then .ok (s, some option) else .error .faulty
      else (s.give option "").map fun s => (s, none)
    | some option, _ :: value =>
      if option.takesValue then (s.give option (String.ofList value)).map fun s => (s, none)
      else .error .faulty

/-- What a call for help is answered with: help can be had on the whole, on one task, and on help itself. -/
def helpOn : List String → Refusal
  | [] => .help
  | [topic] => if topic = "help" || (TaskName.ofWord? topic).isSome then .help else .faulty
  | _ => .faulty

/-- Reads arguments, where `waiting` is an option whose value comes next. -/
def arguments (s : Scanning) (waiting : Option OptionName) :
    List String → Except Refusal Scanning
  | [] => if waiting.isSome then .error .faulty else .ok s
  | a :: rest =>
    match a.toList, waiting with
    | ['-', '-'], some _ => .error .faulty
    | ['-', '-'], none => rest.foldlM taskWord s
    | '-' :: '-' :: body, none =>
      (s.long body).bind fun (s, waiting) => arguments s waiting rest
    | '-' :: c :: body, none =>
      (s.letters (c :: body)).bind fun (s, waiting) => arguments s waiting rest
    | '-' :: _ :: _, some _ => .error .faulty
    | _, some name => (s.give name a).bind fun s => arguments s none rest
    | _, none =>
      if a = "help" ∧ s.task.isNone then .error (helpOn rest)
      else (s.word a).bind fun s => arguments s none rest

/-- The value of an option: after the name of the task if it is given there, else in front of it. -/
def value? (s : Scanning) (name : OptionName) : Option String :=
  (s.after.lookup name).or (s.before.lookup name)

/-- The values of an option that may be repeated. -/
def values (s : Scanning) (name : OptionName) : List String :=
  let among (g : Given) := g.filterMap fun (n, v) => if n = name then some v else none
  match among s.after with
  | [] => among s.before
  | vs => vs

end Scanning

/-- What is asked of the program. -/
structure Request where
  format : Format
  grammar : Option String
  sourceName : String
  permissions : List String
  task : Task
  deriving DecidableEq

namespace Request

/-- The name of the source if none is given. -/
def defaultName : String := "console"

/-- The format if none is given. -/
def defaultFormat : Format := .json

/-- Puts a task together from its name and its words. -/
def taskOf (s : Scanning) : Except Refusal Task :=
  match s.task, s.words with
  | some .run, [input] => .ok (.run input)
  | some .parse, [input] => .ok (.parse input)
  | some .suggest, [input] => .ok (.suggest input ((s.value? .cursor).bind offset?))
  | some .usage, path =>
    .ok (.usage path (s.value? .smart).isSome (s.value? .unrestricted).isSome)
  | some .ambiguities, [] => .ok .ambiguities
  | some .explain, [id] => .ok (.explain id)
  | _, _ => .error .faulty

/-- Reads the arguments of a call. -/
def ofArguments (args : List String) : Except Refusal Request := do
  let s ← Scanning.start.arguments none args
  let task ← taskOf s
  return { format := ((s.value? .output).bind Format.ofWord?).getD defaultFormat,
           grammar := s.value? .grammar,
           sourceName := (s.value? .sourceName).getD defaultName,
           permissions := s.values .permission, task }

end Request
end Console
end CommandEngine
