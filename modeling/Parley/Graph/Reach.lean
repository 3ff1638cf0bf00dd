import Parley.Graph.Basic

/-! What can be reached from the entry along targets, whatever the variables are. -/
namespace Parley.Graph

/-- How many targets the nodes outside `seen` have together. -/
def unseenTargets (seen : List NodeId) (nodes : List Node) : Nat :=
  nodes.foldr (fun n total => (if n.id ∈ seen then 0 else n.targets.length) + total) 0

theorem unseenTargets_cons (seen : List NodeId) (n : Node) (rest : List Node) :
    unseenTargets seen (n :: rest) =
      (if n.id ∈ seen then 0 else n.targets.length) + unseenTargets seen rest := rfl

/-- Seeing one more id makes no node count for more. -/
theorem unseen_cons_le (id : NodeId) (seen : List NodeId) (n : Node) :
    (if n.id ∈ id :: seen then 0 else n.targets.length) ≤
      if n.id ∈ seen then 0 else n.targets.length := by
  by_cases known : n.id ∈ seen
  · rw [if_pos (List.mem_cons_of_mem id known)]
    exact Nat.zero_le _
  · rw [if_neg known]
    split
    · exact Nat.zero_le _
    · exact Nat.le_refl _

theorem unseenTargets_cons_le (id : NodeId) (seen : List NodeId) (nodes : List Node) :
    unseenTargets (id :: seen) nodes ≤ unseenTargets seen nodes := by
  induction nodes with
  | nil => exact Nat.le_refl _
  | cons n rest ih => exact Nat.add_le_add (unseen_cons_le id seen n) ih

/-- Seeing a node takes its targets out of the count. -/
theorem unseenTargets_cons_add {n : Node} {seen : List NodeId} {nodes : List Node}
    (listed : n ∈ nodes) (fresh : n.id ∉ seen) :
    unseenTargets (n.id :: seen) nodes + n.targets.length ≤ unseenTargets seen nodes := by
  induction nodes with
  | nil => cases listed
  | cons m rest ih =>
    rw [unseenTargets_cons, unseenTargets_cons]
    rcases List.mem_cons.mp listed with rfl | listed
    · have others := unseenTargets_cons_le n.id seen rest
      rw [if_pos List.mem_cons_self, if_neg fresh]
      omega
    · have head := unseen_cons_le n.id seen m
      have others := ih listed
      omega

theorem node?_listed {g : Graph} {id : NodeId} {n : Node} (found : g.node? id = some n) :
    n ∈ g.nodeList ∧ n.id = id := by
  unfold node? at found
  split at found
  · cases found
  · exact ⟨List.mem_of_find?_eq_some found, by simpa using List.find?_some found⟩

/-- The ids seen once every id of the queue, and whatever it leads to, has been followed. -/
def reachFrom (g : Graph) (queue seen : List NodeId) : List NodeId :=
  match queue with
  | [] => seen
  | id :: rest =>
    if _fresh : id ∈ seen then reachFrom g rest seen
    else match _found : g.node? id with
      | none => reachFrom g rest seen
      | some n => reachFrom g (rest ++ n.targets) (id :: seen)
termination_by queue.length + unseenTargets seen g.nodeList
decreasing_by
  · simp
  · simp
  · obtain ⟨listed, rfl⟩ := node?_listed _found
    have := unseenTargets_cons_add listed _fresh
    simp only [List.length_append, List.length_cons]
    omega

def reachable (g : Graph) : List NodeId := reachFrom g g.entry.toList []

end Parley.Graph
