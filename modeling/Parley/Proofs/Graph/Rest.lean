import Parley.Graph.Reach
import Parley.Graph.Route

/-! A move comes to rest at a node of the graph, of the kind that the landing says. -/
namespace Parley

variable {g : Graph} {id : NodeId}

namespace Graph

theorem dialogue?_eq_some_iff :
    g.dialogue? id = some d ↔ g.node? id = some (.dialogue d) := by
  unfold dialogue?
  split
  case h_1 found => simp [found]
  case h_2 other =>
    constructor
    · nofun
    · intro found
      exact absurd found (other d)

/-- Every node carries the id under which it is found. -/
theorem node?_id (found : g.node? id = some n) : n.id = id := (node?_listed found).2

theorem node?_own (found : g.node? id = some n) : g.node? n.id = some n :=
  (node?_id found).symm ▸ found

theorem dialogue?_id (found : g.dialogue? id = some d) : d.id = id :=
  node?_id (dialogue?_eq_some_iff.mp found)

end Graph

/-- The graph has a node of the right kind where a landing is. -/
def Landing.Exists (g : Graph) : Landing → Prop
  | dialogue id => ∃ d, g.node? id = some (.dialogue d)
  | hold id => ∃ i, g.node? id = some (.interrupt i)
  | stalled id => ∃ s, g.node? id = some (.splitter s)
  | ended => True

namespace Graph

theorem travelWithin_exists (g : Graph) (store : Store) (hops : Nat) (target : Option NodeId) :
    (g.travelWithin store hops target).Exists g := by
  fun_induction travelWithin g store hops target with
  | case1 => trivial
  | case2 _ _ d found =>
    obtain ⟨id, rfl, found⟩ := Option.bind_eq_some_iff.mp found
    exact ⟨d, node?_own found⟩
  | case3 _ _ i found =>
    obtain ⟨id, rfl, found⟩ := Option.bind_eq_some_iff.mp found
    exact ⟨i, node?_own found⟩
  | case4 _ _ s found | case5 _ s found =>
    obtain ⟨id, rfl, found⟩ := Option.bind_eq_some_iff.mp found
    exact ⟨s, node?_own found⟩
  | case6 => assumption

/-- Where a move comes to rest there is a node of the kind that the landing names. -/
theorem travel_exists (g : Graph) (store : Store) (target : Option NodeId) :
    (g.travel store target).Exists g :=
  g.travelWithin_exists store hopLimit target

/-- A choice that a dialogue node has is followed to its target. -/
theorem follow?_eq {position : Option NodeId} (current : position.bind g.dialogue? = some d)
    (written : d.choices[index]? = some c) (store : Store) :
    g.follow? store position index = some (g.travel store c.next) := by
  obtain ⟨id, rfl, found⟩ := Option.bind_eq_some_iff.mp current
  have node : (some id).bind g.node? = some (.dialogue d) := dialogue?_eq_some_iff.mp found
  simp only [follow?, node, written, Option.map_some]

end Graph
end Parley
