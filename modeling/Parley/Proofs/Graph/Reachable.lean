import Parley.Graph.Lint
import Parley.Proofs.Graph.Rest

/-! The search from the entry finds a set of nodes that no move leaves: whatever splitters a move
passes through, it stays among the nodes found. -/
namespace Parley.Graph

variable {g : Graph} {id t : NodeId}

/-- Of the ids seen, every target that is a node is seen as well, or still to be followed. -/
def Follows (g : Graph) (queue seen : List NodeId) : Prop :=
  ∀ id ∈ seen, ∀ n, g.node? id = some n → ∀ t ∈ n.targets, (g.node? t).isSome →
    t ∈ seen ∨ t ∈ queue

theorem Follows.skip (follows : g.Follows (id :: rest) seen)
    (settled : (g.node? id).isSome → id ∈ seen) : g.Follows rest seen := by
  intro id' seen' n node t target there
  rcases follows id' seen' n node t target there with known | queued
  · exact .inl known
  · rcases List.mem_cons.mp queued with rfl | queued
    · exact .inl (settled there)
    · exact .inr queued

theorem Follows.see (follows : g.Follows (id :: rest) seen) (found : g.node? id = some n) :
    g.Follows (rest ++ n.targets) (id :: seen) := by
  intro id' seen' n' node t target there
  rcases List.mem_cons.mp seen' with rfl | seen'
  · cases Option.some.inj (node.symm.trans found)
    exact .inr (List.mem_append_right _ target)
  · rcases follows id' seen' n' node t target there with known | queued
    · exact .inl (List.mem_cons_of_mem _ known)
    · rcases List.mem_cons.mp queued with rfl | queued
      · exact .inl List.mem_cons_self
      · exact .inr (List.mem_append_left _ queued)

theorem reachFrom_found (fresh : id ∉ seen) (found : g.node? id = some n) (rest : List NodeId) :
    g.reachFrom (id :: rest) seen = g.reachFrom (rest ++ n.targets) (id :: seen) := by
  rw [reachFrom, dif_neg fresh]
  split
  case h_1 lost => cases found.symm.trans lost
  case h_2 m met => cases Option.some.inj (found.symm.trans met); rfl

theorem reachFrom_follows (g : Graph) (queue seen : List NodeId) (follows : g.Follows queue seen) :
    g.Follows [] (g.reachFrom queue seen) := by
  fun_induction reachFrom g queue seen with
  | case1 => exact follows
  | case2 id rest seen known ih => exact ih (follows.skip fun _ => known)
  | case3 id rest seen fresh lost ih => exact ih (follows.skip fun there => by simp [lost] at there)
  | case4 id rest seen fresh n found ih => exact ih (follows.see found)

theorem subset_reachFrom (g : Graph) (queue seen : List NodeId) : seen ⊆ g.reachFrom queue seen := by
  fun_induction reachFrom g queue seen with
  | case1 => exact List.Subset.refl _
  | case2 | case3 => assumption
  | case4 id rest seen fresh n found ih => exact List.Subset.trans (List.subset_cons_self _ _) ih

theorem queue_reachFrom (g : Graph) (queue seen : List NodeId) (queued : id ∈ queue)
    (there : (g.node? id).isSome) : id ∈ g.reachFrom queue seen := by
  fun_induction reachFrom g queue seen with
  | case1 => cases queued
  | case2 next rest seen known ih =>
    rcases List.mem_cons.mp queued with rfl | queued
    · exact subset_reachFrom g _ _ known
    · exact ih queued
  | case3 next rest seen fresh lost ih =>
    rcases List.mem_cons.mp queued with rfl | queued
    · simp [lost] at there
    · exact ih queued
  | case4 next rest seen fresh n found ih =>
    rcases List.mem_cons.mp queued with rfl | queued
    · exact subset_reachFrom g _ _ List.mem_cons_self
    · exact ih (List.mem_append_left _ queued)

/-- A place to go that does not lead out of what is reachable: it may be empty or unknown. -/
def Admits (g : Graph) (target : Option NodeId) : Prop :=
  ∀ id, target = some id → (g.node? id).isSome → id ∈ g.reachable

theorem admits_entry (g : Graph) : g.Admits g.entry := by
  intro id entry there
  refine queue_reachFrom g _ _ ?_ there
  rw [entry]
  exact List.mem_singleton_self id

/-- What is reachable stays so along every target. -/
theorem admits_target (reached : id ∈ g.reachable) (found : g.node? id = some n)
    (target : next.toList ⊆ n.targets) : g.Admits next := by
  rintro t rfl there
  have follows : g.Follows g.entry.toList [] := nofun
  have closed := reachFrom_follows g _ _ follows
  exact (closed id reached n found t (target (List.mem_singleton_self t)) there).resolve_right nofun

theorem admits_found (admitted : g.Admits target) (found : target.bind g.node? = some n) :
    n.id ∈ g.reachable ∧ g.node? n.id = some n := by
  obtain ⟨id, rfl, found⟩ := Option.bind_eq_some_iff.mp found
  rw [node?_id found]
  exact ⟨admitted id rfl (Option.isSome_of_eq_some found), found⟩

/-- Neither the entry nor a node by itself is reported as unreachable. -/
theorem unreachable_not_mem (g : Graph) (id : NodeId) :
    Issue.unreachable id ∉ g.entryIssues ++ g.nodeList.flatMap g.nodeIssues := by
  have entry : Issue.unreachable id ∉ g.entryIssues := by
    unfold entryIssues
    split
    · simp
    · split <;> simp
  have node (n : Node) : Issue.unreachable id ∉ g.nodeIssues n := by
    have fallback : Issue.unreachable id ∉ defaultIssues n := by
      unfold defaultIssues
      split
      · split <;> simp
      · simp
    simp [nodeIssues, targetIssues, variableIssues, fallback]
  simp [entry, node]

/-- A reported node is one that the search does not find. -/
theorem unreachable_iff :
    .unreachable id ∈ g.lint ↔ (∃ n ∈ g.nodeList, n.id = id) ∧ id ∉ g.reachable := by
  rw [lint, List.mem_append, or_iff_right (g.unreachable_not_mem id)]
  simp only [unreachableIssues, List.mem_map, List.mem_filter, decide_eq_true_eq,
    Issue.unreachable.injEq]
  constructor
  · rintro ⟨n, ⟨listed, missed⟩, rfl⟩
    exact ⟨⟨n, listed, rfl⟩, missed⟩
  · rintro ⟨⟨n, listed, rfl⟩, missed⟩
    exact ⟨n, ⟨listed, missed⟩, rfl⟩

theorem exit_target {s : Splitter} {store : Store} (taken : s.exit store = .onward next) :
    next.toList ⊆ (Node.splitter s).targets := by
  unfold Splitter.exit at taken
  split at taken
  case h_1 b open_ =>
    cases taken
    intro t listed
    have written := List.mem_of_find?_eq_some open_
    exact List.mem_append_left _ (List.mem_filterMap.mpr ⟨b, written, Option.mem_toList.mp listed⟩)
  case h_2 =>
    split at taken
    case h_1 id fallback =>
      cases taken
      intro t listed
      rw [Node.targets, fallback]
      exact List.mem_append_right _ listed
    case h_2 => cases taken

theorem next_target (n : Node) : n.next.toList ⊆ n.targets := by
  cases n with
  | dialogue d => exact List.subset_append_left _ _
  | splitter s => exact List.nil_subset _
  | interrupt i => exact List.Subset.refl _

theorem choice_target {d : Dialogue} {c : Choice} (written : c ∈ d.choices) :
    c.next.toList ⊆ (Node.dialogue d).targets := by
  intro t listed
  exact List.mem_append_right _ (List.mem_filterMap.mpr ⟨c, written, Option.mem_toList.mp listed⟩)

/-- The nodes that a move comes by: the splitters that it passes through, and the node where it
comes to rest. -/
def trailWithin (g : Graph) (store : Store) : Nat → Option NodeId → List NodeId
  | hops, target =>
    match target.bind g.node? with
    | none => []
    | some (.dialogue d) => [d.id]
    | some (.interrupt i) => [i.id]
    | some (.splitter s) =>
      match s.exit store, hops with
      | .stall, _ => [s.id]
      | .onward _, 0 => [s.id]
      | .onward next, hops + 1 => s.id :: trailWithin g store hops next

def trail (g : Graph) (store : Store) (target : Option NodeId) : List NodeId :=
  g.trailWithin store hopLimit target

/-- A move comes to rest at the end of its trail. -/
theorem trailWithin_getLast? (g : Graph) (store : Store) (hops : Nat) (target : Option NodeId)
    (landed : (g.travelWithin store hops target).position = some id) :
    (g.trailWithin store hops target).getLast? = some id := by
  fun_induction travelWithin g store hops target with
  | case1 => cases landed
  | case2 _ _ d found | case3 _ _ i found =>
    simp only [trailWithin, found]
    exact landed
  | case4 _ _ s found stall | case5 _ s found next stall =>
    simp only [trailWithin, found, stall]
    exact landed
  | case6 _ s found next hops onward ih =>
    rw [trailWithin]
    simp only [found, onward, List.getLast?_cons, ih landed, Option.getD_some]

theorem trailWithin_reachable (g : Graph) (store : Store) (hops : Nat) (target : Option NodeId)
    (admitted : g.Admits target) : ∀ id ∈ g.trailWithin store hops target, id ∈ g.reachable := by
  fun_induction trailWithin g store hops target with
  | case1 => nofun
  | case2 _ _ d found | case3 _ _ d found | case4 _ _ d found | case5 _ d found =>
    intro id listed
    cases List.mem_singleton.mp listed
    exact (admits_found admitted found).1
  | case6 _ s found next hops onward ih =>
    obtain ⟨reached, own⟩ := admits_found admitted found
    intro id listed
    rcases List.mem_cons.mp listed with rfl | later
    · exact reached
    · exact ih (admits_target reached own (exit_target onward)) id later

end Parley.Graph
