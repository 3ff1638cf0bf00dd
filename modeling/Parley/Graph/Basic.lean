import Parley.Graph.Node
import Parley.Registry

/-! Dialogue graphs: written once and not changed by playing. Nodes are kept by their ids, so the
order in which they were written is forgotten. -/
namespace Parley

/-- Rules of play that hold from every start of a session. -/
structure PlayRules where
  /-- The player may end the session at any time. -/
  allowEscape : Bool
  /-- Clicks may skip the reveal or cut a delay. -/
  allowFastAdvance : Bool
  /-- Ask for a text shadow when several speakers talk at once. -/
  textShadowOnMultipleSpeakers : Bool
  /-- The box transition of nodes without one of their own. -/
  boxTransition : BoxTransition
deriving DecidableEq

instance : Inhabited PlayRules := ⟨⟨false, true, false, .none⟩⟩

structure Graph where
  entry : Option NodeId
  rules : PlayRules
  declarations : List Variable
  nodes : Registry Node Node.id

instance : Inhabited Graph := ⟨⟨none, default, [], .empty⟩⟩

namespace Graph

/-- A graph of listed nodes. Of several nodes with one id the last stays. -/
def ofNodes (entry : Option NodeId) (nodes : List Node) (rules : PlayRules := default)
    (declarations : List Variable := []) : Graph :=
  ⟨entry, rules, declarations, .ofList nodes⟩

/-- The node of an id. No node is found under the empty id. -/
def node? (g : Graph) (id : NodeId) : Option Node :=
  if id = "" then none else g.nodes.find? id

def dialogue? (g : Graph) (id : NodeId) : Option Dialogue :=
  match g.node? id with
  | some (.dialogue d) => some d
  | _ => none

def contains (g : Graph) (id : NodeId) : Bool := (g.node? id).isSome

/-- How many nodes there are, one with an empty id included. -/
def size (g : Graph) : Nat := g.nodes.size

/-- The nodes in increasing order of id. -/
def nodeList (g : Graph) : List Node := g.nodes.entries

end Graph
end Parley
