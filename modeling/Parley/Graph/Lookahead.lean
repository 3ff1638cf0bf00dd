import Parley.Graph.Route

/-! The dialogue node that lies ahead. The search looks through splitters as far as a move may go,
tries every open branch and then the default, and does not look behind interrupts. Splitters found
barren are remembered with the hops that were left, and not searched again with as many or
fewer. -/
namespace Parley

/-- The targets of a splitter that a search tries, in order. -/
def Splitter.openTargets (s : Splitter) (store : Store) : List NodeId :=
  (s.branches.filter fun b => b.isOpen store).filterMap Branch.next ++ s.fallback.toList

namespace Graph

/-- Search with a number of hops, counting the first node. -/
def aheadWithin (g : Graph) (store : Store) : Nat → NodeId → Option Dialogue
  | 0, _ => none
  | hops + 1, id =>
    match g.node? id with
    | some (.dialogue d) => some d
    | some (.splitter s) => (s.openTargets store).findSome? (aheadWithin g store hops)
    | _ => none

/-- Splitters searched in vain, each with the most hops it was searched with last. -/
abbrev Barren := List (NodeId × Nat)

def Barren.rulesOut (barren : Barren) (id : NodeId) (hops : Nat) : Bool :=
  match barren.lookup id with
  | some known => hops ≤ known
  | none => false

/-- The first success among several searches, each with what the earlier ones learnt. -/
def firstAhead (search : NodeId → Barren → Option Dialogue × Barren) :
    List NodeId → Barren → Option Dialogue × Barren
  | [], barren => (none, barren)
  | id :: rest, barren =>
    match search id barren with
    | (some d, learnt) => (some d, learnt)
    | (none, learnt) => firstAhead search rest learnt

/-- The search of `aheadWithin` with a memory. -/
def searchWithin (g : Graph) (store : Store) :
    Nat → NodeId → Barren → Option Dialogue × Barren
  | 0, _, barren => (none, barren)
  | hops + 1, id, barren =>
    if barren.rulesOut id (hops + 1) then (none, barren)
    else match g.node? id with
      | some (.dialogue d) => (some d, barren)
      | some (.splitter s) =>
        match firstAhead (searchWithin g store hops) (s.openTargets store) barren with
        | (some d, learnt) => (some d, learnt)
        | (none, learnt) => (none, (id, hops + 1) :: learnt)
      | _ => (none, barren)

/-- The dialogue node that a plain move to a target would look for. -/
def ahead? (g : Graph) (store : Store) (target : Option NodeId) : Option Dialogue :=
  target.bind fun id => (g.searchWithin store (hopLimit + 1) id []).1

end Graph
end Parley
