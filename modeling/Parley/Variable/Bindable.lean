import Parley.Variable.Store

/-! Fields that may follow a variable. A field that names a variable of its own type reads it, and
its literal otherwise. Whether it is active says only if it was meant to take effect, and never
changes which of the two is read. -/
namespace Parley

structure Bindable (α : Type) where
  active : Bool
  bound : Option String
  literal : α
deriving DecidableEq

namespace Bindable

instance [Inhabited α] : Inhabited (Bindable α) := ⟨⟨false, none, default⟩⟩

/-- An active field with a fixed value. -/
def fixed (value : α) : Bindable α := ⟨true, none, value⟩

/-- An active field that follows a variable where it can. -/
def following (name : String) (fallback : α) : Bindable α := ⟨true, some name, fallback⟩

/-- A field that was written down and switched off. -/
def inactive (value : α) : Bindable α := ⟨false, none, value⟩

/-- The variable that is named; an empty name is none. -/
def source? (field : Bindable α) : Option String := field.bound.filter (· ≠ "")

def resolve [Storable α] (field : Bindable α) (store : Store) : α :=
  (field.source?.bind store.get?).getD field.literal

/-- The value if the field is active. -/
def resolveActive [Storable α] (field : Bindable α) (store : Store) : Option α :=
  if field.active then some (field.resolve store) else none

end Bindable
end Parley
