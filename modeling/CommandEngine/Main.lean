import CommandEngine.Console.Answer

/-!
# The program

Everything is decided by `Console.answer`.  What is left is to read the grammar file that a command line
names, to print the answer, and to hand its exit code on.
-/

namespace CommandEngine
namespace Console

/-- Why a file cannot be read. -/
def readFault : IO.Error → String
  | .noFileOrDirectory .. => "No such file or directory (os error 2)"
  | .permissionDenied .. => "Permission denied (os error 13)"
  | .inappropriateType _ code _ =>
    if code = 21 then "Is a directory (os error 21)" else "Not a directory (os error 20)"
  | .invalidArgument .. => "File name too long (os error 36)"
  | e => toString e

/-- Reads a file. -/
def readText (path : String) : IO (Except String String) := do
  try
    return .ok (← IO.FS.readFile path)
  catch e =>
    return .error (readFault e)

/-- Reads the grammar file that a command line names. -/
def readGrammar (args : List String) : IO (String → Except String String) := do
  match (Request.ofArguments args).toOption.bind Request.grammar with
  | none => return fun _ => .error "not read"
  | some path =>
    let text ← readText path
    return fun _ => text

/-- Answers a command line. -/
def runMain (args : List String) : IO UInt32 := do
  let a := answer args (← readGrammar args)
  let err ← IO.getStderr
  for m in a.messages do
    err.putStr m.text
  IO.print a.output
  return a.exit.toUInt32

end Console
end CommandEngine

def main (args : List String) : IO UInt32 := CommandEngine.Console.runMain args
