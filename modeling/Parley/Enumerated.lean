/-! Types with finitely many named members: the members in the order of their declaration, each
with the name by which documents and messages call it. -/
namespace Parley

class Enumerated (α : Type) where
  /-- The name of the whole family. -/
  family : String
  members : List α
  label : α → String

namespace Enumerated

def labels (α : Type) [Enumerated α] : List String := (members (α := α)).map label

/-- The member with a given name. -/
def ofLabel? [Enumerated α] (text : String) : Option α := members.find? fun a => label a = text

end Enumerated
end Parley
