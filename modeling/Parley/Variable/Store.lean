import Parley.Registry
import Parley.Variable.Value

/-! The variables of a playthrough. A write goes through only if the variable exists and keeps its
kind; nothing else changes, adds or removes a variable but seeding anew. -/
namespace Parley

structure Store where
  slots : Registry Variable Variable.name

namespace Store

instance : Inhabited Store := ⟨⟨.empty⟩⟩

def empty : Store := ⟨.empty⟩

/-- The declared variables at their first values; the last of several declarations holds. -/
def seed (template : List Variable) : Store := ⟨.ofList template⟩

def value? (store : Store) (name : String) : Option Value :=
  (store.slots.find? name).map Variable.value

def kind? (store : Store) (name : String) : Option Kind := (store.value? name).map Value.kind

/-- A typed read: nothing if the variable is missing or of another kind. -/
def get? [Storable α] (store : Store) (name : String) : Option α :=
  (store.value? name).bind Storable.ofValue?

/-- The store after a write of a value, or nothing if the write is refused. -/
def write? (store : Store) (name : String) (value : Value) : Option Store :=
  if store.kind? name = some value.kind then some ⟨store.slots.insert ⟨name, value⟩⟩ else none

/-- A typed write. A value of a type that no variable holds is refused. -/
def set? [Storable α] (store : Store) (name : String) (x : α) : Option Store :=
  (Storable.toValue? x).bind (store.write? name)

def contains (store : Store) (name : String) : Bool := store.slots.contains name

def size (store : Store) : Nat := store.slots.size

def names (store : Store) : List String := store.slots.names

end Store
end Parley
