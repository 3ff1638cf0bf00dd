import Parley.Proofs.Graph.Reachable
import Parley.Proofs.Registry

/-! Paths through a graph. The search from the entry comes to an end, taking no target of a node
twice, and has then seen the nodes that a path leads to and no others; the rest is reported, at the
end of the problems and in order. -/
namespace Parley.Graph

variable {g : Graph} {id : NodeId}

/-- There is a node to be found under an id. Nothing is found under the empty one, even if a node
carries it. -/
def Stands (g : Graph) (id : NodeId) : Prop := id ≠ "" ∧ ∃ n ∈ g.nodeList, n.id = id

/-- The node of one id has another one among its targets. -/
def Edge (g : Graph) (a b : NodeId) : Prop := ∃ n ∈ g.nodeList, n.id = a ∧ b ∈ n.targets

/-- A path of targets leads from the entry to an id, over nothing but nodes that can be found. -/
inductive Path (g : Graph) : NodeId → Prop
  | entry {id : NodeId} (named : g.entry = some id) (stands : g.Stands id) : Path g id
  | step {a b : NodeId} (path : Path g a) (edge : g.Edge a b) (stands : g.Stands b) : Path g b

theorem node?_eq_some_iff {n : Node} :
    g.node? id = some n ↔ id ≠ "" ∧ n ∈ g.nodeList ∧ n.id = id := by
  unfold node?
  split
  case isTrue empty => simp [empty]
  case isFalse filled => simp [filled, nodeList, Registry.find?_eq_some_iff]

theorem stands_iff : g.Stands id ↔ (g.node? id).isSome := by
  simp only [Stands, Option.isSome_iff_exists, node?_eq_some_iff, exists_and_left]

theorem Path.stands (path : g.Path id) : g.Stands id := by
  cases path with
  | entry named stands => exact stands
  | step path edge stands => exact stands

/-- What the search has seen lies on paths if what it starts from does. -/
theorem path_of_mem_reachFrom (g : Graph) (queue seen : List NodeId)
    (known : ∀ id ∈ seen, g.Path id) (queued : ∀ id ∈ queue, g.Stands id → g.Path id) :
    ∀ id ∈ g.reachFrom queue seen, g.Path id := by
  fun_induction reachFrom g queue seen with
  | case1 => exact known
  | case2 seen id rest old ih | case3 seen id rest fresh lost ih =>
    exact ih known fun id listed => queued id (List.mem_cons_of_mem _ listed)
  | case4 seen id rest fresh n found ih =>
    have path : g.Path id :=
      queued id List.mem_cons_self (stands_iff.mpr (Option.isSome_of_eq_some found))
    obtain ⟨-, listed, same⟩ := node?_eq_some_iff.mp found
    refine ih ?_ ?_
    · intro id' seen'
      rcases List.mem_cons.mp seen' with rfl | seen'
      · exact path
      · exact known id' seen'
    · intro id' queued' stands
      rcases List.mem_append.mp queued' with later | target
      · exact queued id' (List.mem_cons_of_mem _ later) stands
      · exact path.step ⟨n, listed, same, target⟩ stands

/-- The search finds what paths lead to. -/
theorem mem_reachable_iff : id ∈ g.reachable ↔ g.Path id := by
  constructor
  · intro found
    refine path_of_mem_reachFrom g g.entry.toList [] nofun ?_ id found
    intro id named stands
    exact .entry (Option.mem_toList.mp named) stands
  · intro path
    induction path with
    | entry named stands => exact admits_entry g _ named (stands_iff.mp stands)
    | @step a b path edge stands ih =>
      obtain ⟨n, listed, rfl, target⟩ := edge
      have found : g.node? n.id = some n := node?_eq_some_iff.mpr ⟨path.stands.1, listed, rfl⟩
      have among : (some b).toList ⊆ n.targets := List.cons_subset.mpr ⟨target, List.nil_subset _⟩
      exact admits_target ih found among b rfl (stands_iff.mp stands)

/-- The search with the number of ids that it takes from its queue until none is left. -/
inductive Search (g : Graph) : List NodeId → List NodeId → Nat → List NodeId → Prop
  | done : Search g [] seen 0 seen
  | known {id : NodeId} (known : id ∈ seen) (rest : Search g queue seen taken found) :
    Search g (id :: queue) seen (taken + 1) found
  | lost {id : NodeId} (lost : g.node? id = none) (rest : Search g queue seen taken found) :
    Search g (id :: queue) seen (taken + 1) found
  | see {id : NodeId} (fresh : id ∉ seen) (there : g.node? id = some n)
      (rest : Search g (queue ++ n.targets) (id :: seen) taken found) :
    Search g (id :: queue) seen (taken + 1) found

/-- The queue runs out before more ids are taken than stand in it and are targets of nodes that
have not been seen. -/
theorem search_reachFrom (g : Graph) (queue seen : List NodeId) :
    ∃ taken, taken ≤ queue.length + unseenTargets seen g.nodeList ∧
      g.Search queue seen taken (g.reachFrom queue seen) := by
  fun_induction reachFrom g queue seen with
  | case1 => exact ⟨0, Nat.zero_le _, .done⟩
  | case2 id rest seen old ih =>
    obtain ⟨taken, few, search⟩ := ih
    exact ⟨taken + 1, by simp only [List.length_cons]; omega, .known old search⟩
  | case3 id rest seen fresh lost ih =>
    obtain ⟨taken, few, search⟩ := ih
    exact ⟨taken + 1, by simp only [List.length_cons]; omega, .lost lost search⟩
  | case4 id rest seen fresh n found ih =>
    obtain ⟨taken, few, search⟩ := ih
    obtain ⟨listed, rfl⟩ := node?_listed found
    have less := unseenTargets_cons_add listed fresh
    simp only [List.length_append] at few
    exact ⟨taken + 1, by simp only [List.length_cons]; omega, .see fresh found search⟩

theorem unseenTargets_nil (nodes : List Node) :
    unseenTargets [] nodes = (nodes.flatMap Node.targets).length := by
  induction nodes with
  | nil => rfl
  | cons n rest ih =>
    rw [unseenTargets_cons, ih, if_neg List.not_mem_nil, List.flatMap_cons, List.length_append]

/-- Whatever the nodes of a graph are called and wherever they lead, the search from the entry ends
after the entry and each target at most, and a node is reported unreachable if and only if no path
leads to it: once, behind all other problems, and in increasing order of id. -/
theorem unreachable_reported_exactly (g : Graph) :
    (∃ taken, taken ≤ 1 + (g.nodeList.flatMap Node.targets).length ∧
      g.Search g.entry.toList [] taken g.reachable) ∧
    (∀ id, .unreachable id ∈ g.lint ↔ (∃ n ∈ g.nodeList, n.id = id) ∧ ¬g.Path id) ∧
    ∃ (others : List Issue) (ids : List NodeId), g.lint = others ++ ids.map .unreachable ∧
      (∀ id, .unreachable id ∉ others) ∧ ids.Pairwise (· < ·) := by
  refine ⟨?_, fun id => ?_, ?_⟩
  · obtain ⟨taken, few, search⟩ := g.search_reachFrom g.entry.toList []
    have single : g.entry.toList.length ≤ 1 := by
      cases g.entry with
      | none => exact Nat.zero_le 1
      | some id => exact Nat.le_refl 1
    rw [unseenTargets_nil] at few
    exact ⟨taken, by omega, search⟩
  · rw [unreachable_iff, mem_reachable_iff]
  · refine ⟨_, (g.nodeList.filter fun n => n.id ∉ g.reachable).map Node.id, ?_,
      g.unreachable_not_mem, ?_⟩
    · rw [lint, unreachableIssues, List.map_map]
      rfl
    · exact List.pairwise_map.mpr (g.nodes.increasing.filter _)

end Parley.Graph
