import Parley.Proofs.Graph.Reachable

/-! What the problems of a graph foretell about a move. One that stalls does so at a splitter that
is reported, or passed as many splitters as a move may; one that gets nowhere followed a target that
was left empty, or one that is reported. -/
namespace Parley

/-- A step along a target: from the node that names it, or from no node if it is the entry. -/
structure Hop where
  origin : Option NodeId
  target : Option NodeId

/-- The target stands in the graph where the hop takes it from. -/
structure Hop.Written (g : Graph) (h : Hop) : Prop where
  entry : h.origin = none → ∀ id, h.target = some id → g.entry = some id
  node : ∀ namer, h.origin = some namer → ∀ id, h.target = some id →
    ∃ n, g.node? namer = some n ∧ id ∈ n.targets

/-- The problem that stands for a hop to an unknown node. -/
def Hop.issue (h : Hop) (id : NodeId) : Issue :=
  match h.origin with
  | none => .danglingEntry id
  | some namer => .danglingTarget namer id

namespace Graph

variable {g : Graph} {id : NodeId}

theorem mem_lint {issue : Issue} :
    issue ∈ g.lint ↔ issue ∈ g.entryIssues ∨ (∃ n ∈ g.nodeList, issue ∈ g.nodeIssues n) ∨
      issue ∈ g.unreachableIssues := by
  simp only [lint, List.mem_append, List.mem_flatMap, or_assoc]

theorem danglingEntry_of_lost (entry : g.entry = some id) (filled : id ≠ "")
    (lost : g.node? id = none) : .danglingEntry id ∈ g.lint := by
  refine mem_lint.mpr (.inl ?_)
  have meant : g.entry.filter (· ≠ "") = some id := by simp [entry, filled]
  have missing : g.contains id = false := by simp [contains, lost]
  simp only [entryIssues, meant, missing]
  exact List.mem_singleton_self _

theorem danglingTarget_of_lost {n : Node} (found : g.node? m = some n) (target : id ∈ n.targets)
    (filled : id ≠ "") (lost : g.node? id = none) : .danglingTarget m id ∈ g.lint := by
  obtain ⟨listed, rfl⟩ := node?_listed found
  have missing : g.contains id = false := by simp [contains, lost]
  have issue : .danglingTarget n.id id ∈ g.targetIssues n :=
    List.mem_map.mpr ⟨id, List.mem_filter.mpr ⟨target, by simp [filled, missing]⟩, rfl⟩
  exact mem_lint.mpr (.inr (.inl ⟨n, listed,
    List.mem_append_left _ (List.mem_append_left _ issue)⟩))

theorem splitterWithoutDefault_of_found {s : Splitter} (found : g.node? id = some (.splitter s))
    (bare : s.fallback.getD "" = "") : .splitterWithoutDefault id ∈ g.lint := by
  obtain ⟨listed, same⟩ := node?_listed found
  have issue : .splitterWithoutDefault id ∈ defaultIssues (.splitter s) := by
    simp only [defaultIssues, if_pos bare, List.mem_singleton]
    exact congrArg _ same.symm
  exact mem_lint.mpr (.inr (.inl ⟨_, listed,
    List.mem_append_left _ (List.mem_append_right _ issue)⟩))

/-- A hop of the graph that leads to no node is reported, unless its target was left empty. -/
theorem issue_of_lost {h : Hop} (written : h.Written g) (lost : h.target.bind g.node? = none)
    (target : h.target = some id) (filled : id ≠ "") : h.issue id ∈ g.lint := by
  rw [target, Option.bind_some] at lost
  unfold Hop.issue
  cases origin : h.origin with
  | none => exact danglingEntry_of_lost (written.entry origin id target) filled lost
  | some namer =>
    obtain ⟨n, found, listed⟩ := written.node namer origin id target
    exact danglingTarget_of_lost found listed filled lost

theorem fallback_of_stall {s : Splitter} {store : Store} (stall : s.exit store = .stall) :
    s.fallback = none := by
  unfold Splitter.exit at stall
  split at stall
  case h_1 => cases stall
  case h_2 =>
    split at stall
    case h_1 => cases stall
    case h_2 none => exact none

/-- The last hop of a move, with a number of further hops to spare. -/
def lastHopWithin (g : Graph) (store : Store) : Nat → Hop → Hop
  | hops, hop =>
    match hop.target.bind g.node? with
    | some (.splitter s) =>
      match s.exit store, hops with
      | .onward next, hops + 1 => lastHopWithin g store hops ⟨some s.id, next⟩
      | _, _ => hop
    | _ => hop

def lastHop (g : Graph) (store : Store) (hop : Hop) : Hop := g.lastHopWithin store hopLimit hop

/-- A move goes from one written hop to the next. -/
theorem lastHopWithin_written (store : Store) (hops : Nat) (hop : Hop) (written : hop.Written g) :
    (g.lastHopWithin store hops hop).Written g := by
  fun_induction lastHopWithin g store hops hop with
  | case1 hop s found next hops onward ih =>
    apply ih
    constructor
    · nofun
    · intro namer origin id target
      cases origin
      obtain ⟨known, -, found⟩ := Option.bind_eq_some_iff.mp found
      have listed : id ∈ (Node.splitter s).targets :=
        exit_target onward (by simp only [Option.mem_toList]; exact target)
      exact ⟨_, node?_own found, listed⟩
  | case2 | case3 => exact written

theorem lastHopWithin_lost (store : Store) (hops : Nat) (hop : Hop)
    (landed : g.travelWithin store hops hop.target = .ended) :
    (g.lastHopWithin store hops hop).target.bind g.node? = none := by
  fun_induction lastHopWithin g store hops hop with
  | case1 hop s found next hops onward ih =>
    apply ih
    rw [travelWithin] at landed
    simpa only [found, onward] using landed
  | case2 hops hop s found stuck =>
    rw [travelWithin] at landed
    simp only [found] at landed
    cases exit : s.exit store with
    | stall => simp [exit] at landed
    | onward next =>
      cases hops with
      | zero => simp [exit] at landed
      | succ hops => exact absurd rfl (stuck next hops exit)
  | case3 hops hop other =>
    rw [travelWithin] at landed
    cases found : hop.target.bind g.node? with
    | none => rfl
    | some n =>
      cases n with
      | dialogue d => simp [found] at landed
      | interrupt i => simp [found] at landed
      | splitter s => exact absurd found (other s)

/-- A move that stalls does so for want of a way on, or for having passed too many splitters. -/
theorem travelWithin_stalled (store : Store) (hops : Nat) (target : Option NodeId)
    (landed : g.travelWithin store hops target = .stalled id) :
    .splitterWithoutDefault id ∈ g.lint ∨ (g.trailWithin store hops target).length = hops + 1 ∧
      ∀ id ∈ g.trailWithin store hops target, ∃ s, g.node? id = some (.splitter s) := by
  fun_induction travelWithin g store hops target with
  | case1 | case2 | case3 => cases landed
  | case4 hops target s found stall =>
    cases landed
    obtain ⟨known, -, found⟩ := Option.bind_eq_some_iff.mp found
    left
    apply splitterWithoutDefault_of_found (node?_own found)
    rw [fallback_of_stall stall]
    rfl
  | case5 target s found next onward =>
    obtain ⟨known, -, own⟩ := Option.bind_eq_some_iff.mp found
    right
    simp only [trailWithin, found, onward]
    exact ⟨rfl, by simpa using ⟨s, node?_own own⟩⟩
  | case6 target s found next hops onward ih =>
    obtain ⟨known, -, own⟩ := Option.bind_eq_some_iff.mp found
    rcases ih landed with reported | ⟨long, splitters⟩
    · exact .inl reported
    · right
      rw [trailWithin]
      simp only [found, onward, List.length_cons, long, List.forall_mem_cons, true_and]
      exact ⟨⟨s, node?_own own⟩, splitters⟩

end Graph
end Parley
