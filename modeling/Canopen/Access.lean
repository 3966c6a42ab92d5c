/-!
# Access policy

Whether an entry can be read, written or both.
-/
namespace Canopen

inductive Access where
  | readOnly
  | writeOnly
  | readWrite
  deriving DecidableEq, Repr, Inhabited

namespace Access

def isReadable : Access → Bool
  | writeOnly => false
  | _ => true

def isWritable : Access → Bool
  | readOnly => false
  | _ => true

/-- The short form shown to a user. -/
def text : Access → String
  | readOnly => "ro"
  | writeOnly => "wo"
  | readWrite => "rw"

def name : Access → String
  | readOnly => "read_only"
  | writeOnly => "write_only"
  | readWrite => "read_write"

/-- Reads a name or one of its short forms. -/
def ofName? : String → Option Access
  | "read_only" | "ro" | "const" => some readOnly
  | "write_only" | "wo" => some writeOnly
  | "read_write" | "rw" => some readWrite
  | _ => none

@[simp] theorem ofName?_name (a : Access) : ofName? a.name = some a := by cases a <;> rfl

@[simp] theorem ofName?_text (a : Access) : ofName? a.text = some a := by cases a <;> rfl

end Access

end Canopen
