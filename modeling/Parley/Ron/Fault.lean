/-! Why a document is refused. Faults of notation are one cause; what the notation allows and the
schema does not has causes of its own, each with its message. -/
namespace Parley.Ron

inductive Fault
  /-- The text is not in the notation, or a value is not of the kind that is wanted. -/
  | malformed
  /-- A value that its type refuses, with the type's own words. -/
  | refused (reason : String)
  | missingField (field record : String)
  | duplicateField (field record : String)
  | unknownVariant (found family : String) (known : List String)
  | wrongLength (expected : String) (found : Nat)
deriving DecidableEq

namespace Fault

def inTicks (name : String) : String := "`" ++ name ++ "`"

/-- A count of elements in words. -/
def elementCount : Nat → String
  | 0 => "zero elements"
  | 1 => "one element"
  | n => s!"{n} elements"

/-- A name as messages write it: one that is no plain identifier is marked as raw. -/
def identifierText (name : String) : String :=
  let isFirst (c : Char) : Bool := c.isAlpha || c == '_'
  let isRest (c : Char) : Bool := c.isAlphanum || c == '_'
  match name.toList with
  | c :: rest => if isFirst c && rest.all isRest then inTicks name else inTicks ("r#" ++ name)
  | [] => inTicks name

def message : Fault → String
  | malformed => "malformed document"
  | refused reason => reason
  | missingField field record =>
    "Unexpected missing field " ++ inTicks field ++ " in " ++ inTicks record
  | duplicateField field record =>
    "Unexpected duplicate field " ++ inTicks field ++ " in " ++ inTicks record
  | unknownVariant found family known =>
    "Unexpected variant named " ++ identifierText found ++ "in enum " ++ inTicks family ++
      ", expected one of " ++ ", ".intercalate (known.map inTicks) ++ " instead"
  | wrongLength expected found =>
    s!"Expected {expected} but found {elementCount found} instead"

end Fault
end Parley.Ron
