import Parley.Graph.Node

/-! Choices as they are put before the player on one visit. -/
namespace Parley

structure Offer where
  /-- The place in the node's list of choices. -/
  index : Nat
  text : String
  /-- All conditions held when the node was set up. -/
  enabled : Bool
  /-- Enabled, or meant to stay on display. -/
  visible : Bool
  next : Option NodeId
deriving DecidableEq, Inhabited

def Choice.offer (c : Choice) (store : Store) (index : Nat) : Offer :=
  let enabled := Condition.allHold c.conditions store
  ⟨index, c.text.resolve store, enabled, enabled || c.showIfUnmet.resolve store, c.next⟩

/-- Every choice of a node, in the order in which it was written. -/
def Dialogue.offers (d : Dialogue) (store : Store) : List Offer :=
  d.choices.mapIdx fun index c => c.offer store index

end Parley
