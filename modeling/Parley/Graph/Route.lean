import Parley.Graph.Basic

/-! Where a move through the graph comes to rest: splitters are passed through, at most fifty-one
of them in one move. -/
namespace Parley

/-- The place where a move came to rest. -/
inductive Landing
  | dialogue (id : NodeId)
  /-- At an interrupt: the session is held. -/
  | hold (id : NodeId)
  /-- At a splitter that has no way on, or at the last one of too long a chain. -/
  | stalled (id : NodeId)
  /-- The place to go was empty or unknown. -/
  | ended
deriving DecidableEq, Inhabited

/-- The node that is current after the move. -/
def Landing.position : Landing → Option NodeId
  | dialogue id => some id
  | hold id => some id
  | stalled id => some id
  | ended => none

/-- What a splitter does. -/
inductive Exit
  /-- A branch or the default is taken; it may lead nowhere. -/
  | onward (target : Option NodeId)
  | stall
deriving DecidableEq

def Branch.isOpen (b : Branch) (store : Store) : Bool := Condition.allHold b.conditions store

/-- The first open branch, else the default. -/
def Splitter.exit (s : Splitter) (store : Store) : Exit :=
  match s.branches.find? fun b => b.isOpen store with
  | some b => .onward b.next
  | none =>
    match s.fallback with
    | some id => .onward id
    | none => .stall

namespace Graph

/-- How many splitters one move may leave behind. -/
def hopLimit : Nat := 50

/-- Follow a target with a number of further hops to spare. -/
def travelWithin (g : Graph) (store : Store) : Nat → Option NodeId → Landing
  | hops, target =>
    match target.bind g.node? with
    | none => .ended
    | some (.dialogue d) => .dialogue d.id
    | some (.interrupt i) => .hold i.id
    | some (.splitter s) =>
      match s.exit store, hops with
      | .stall, _ => .stalled s.id
      | .onward _, 0 => .stalled s.id
      | .onward next, hops + 1 => travelWithin g store hops next

/-- Go to a target and come to rest. -/
def travel (g : Graph) (store : Store) (target : Option NodeId) : Landing :=
  g.travelWithin store hopLimit target

/-- Go to the plain successor of the node at a position. -/
def proceed (g : Graph) (store : Store) (position : Option NodeId) : Landing :=
  g.travel store ((position.bind g.node?).bind Node.next)

/-- Take a written choice of the dialogue node at a position; nothing if there is no such
choice. -/
def follow? (g : Graph) (store : Store) (position : Option NodeId) (index : Nat) :
    Option Landing :=
  match position.bind g.node? with
  | some (.dialogue d) => d.choices[index]?.map fun c => g.travel store c.next
  | _ => none

end Graph
end Parley
