import CommandEngine.Number.Numeral

/-!
# Argument values

What an argument of a command stands for once it has been read.  A handler that looks an argument up
says which type it expects; `Stored` gives the types that can be expected, the name each has in the
error for a mismatch, and how a value is taken apart.
-/

namespace CommandEngine

/-- The value of an argument. -/
inductive Value
  | int (n : Int32)
  | long (n : Int64)
  | float (x : Single)
  | double (x : Double)
  | bool (b : Bool)
  | string (s : String)
  /-- A value of some other type, of which only the name of the type is known. -/
  | other (typeName : String)
  deriving DecidableEq

/-- The types under which an argument can be looked up. -/
class Stored (α : Type) where
  typeName : String
  ofValue? : Value → Option α

instance : Stored Int32 where
  typeName := "i32"
  ofValue? | .int n => some n | _ => none

instance : Stored Int64 where
  typeName := "i64"
  ofValue? | .long n => some n | _ => none

instance : Stored Single where
  typeName := "f32"
  ofValue? | .float x => some x | _ => none

instance : Stored Double where
  typeName := "f64"
  ofValue? | .double x => some x | _ => none

instance : Stored Bool where
  typeName := "bool"
  ofValue? | .bool b => some b | _ => none

instance : Stored String where
  typeName := "alloc::string::String"
  ofValue? | .string s => some s | _ => none

end CommandEngine
