import Parley.Graph.Route

/-! A move step by step. The traveller stands at one node at a time, and at each node on the way
before its exit is looked for, so where a move was broken off is where the traveller stands. -/
namespace Parley

structure Traveller where
  current : Option NodeId
deriving DecidableEq, Inhabited

namespace Traveller

/-- Follow a target for at most a number of nodes. Behind the last one the traveller stalls there. -/
def follow (g : Graph) (store : Store) : Nat → Option NodeId → StateM Traveller Landing
  | 0, _ => do
    let t ← get
    return .stalled (t.current.getD "")
  | nodes + 1, target =>
    match target.bind g.node? with
    | none => do
      set (Traveller.mk none)
      return .ended
    | some n => do
      set (Traveller.mk (some n.id))
      match n with
      | .dialogue d => return .dialogue d.id
      | .interrupt i => return .hold i.id
      | .splitter s =>
        match s.exit store with
        | .onward next => follow g store nodes next
        | .stall => return .stalled s.id

/-- Go to a target: to the first node and over as many hops as a move has. -/
def goTo (g : Graph) (store : Store) (target : Option NodeId) : StateM Traveller Landing :=
  follow g store (Graph.hopLimit + 1) target

def currentNode? (t : Traveller) (g : Graph) : Option Node := t.current.bind g.node?

/-- Go to the plain successor. -/
def proceed (g : Graph) (store : Store) : StateM Traveller Landing := do
  let t ← get
  goTo g store ((t.currentNode? g).bind Node.next)

/-- Take a choice as it is written; where there is no such choice nobody moves. -/
def choose? (g : Graph) (store : Store) (index : Nat) : StateM Traveller (Option Landing) := do
  let t ← get
  match t.currentNode? g with
  | some (.dialogue d) =>
    match d.choices[index]? with
    | some c => do
      let landing ← goTo g store c.next
      return some landing
    | none => return none
  | _ => return none

end Traveller
end Parley
