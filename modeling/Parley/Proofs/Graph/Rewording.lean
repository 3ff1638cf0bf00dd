import Parley.Graph.Lookahead
import Parley.Proofs.Graph.Rest

/-! Graphs whose dialogue nodes are written differently, while each keeps its id and its ways on.
Every move and every search goes the same way through both. -/
namespace Parley

/-- Change all entries and none of the names. -/
def Registry.map {name : α → String} (f : α → α) (same : ∀ x, name (f x) = name x)
    (r : Registry α name) : Registry α name where
  entries := r.entries.map f
  increasing := by
    refine List.pairwise_map.mpr (r.increasing.imp ?_)
    intro a b before
    rwa [same, same]

/-- Another way to write each dialogue node. -/
structure Rewording where
  dialogue : Dialogue → Dialogue
  id_eq : ∀ d, (dialogue d).id = d.id
  next_eq : ∀ d, (dialogue d).next = d.next
  choices_eq : ∀ d, (dialogue d).choices = d.choices

namespace Rewording

def unchanged : Rewording := ⟨id, fun _ => rfl, fun _ => rfl, fun _ => rfl⟩

def node (w : Rewording) : Node → Node
  | .dialogue d => .dialogue (w.dialogue d)
  | .splitter s => .splitter s
  | .interrupt i => .interrupt i

theorem node_id (w : Rewording) (n : Node) : (w.node n).id = n.id := by
  cases n with
  | dialogue d => exact w.id_eq d
  | splitter s => rfl
  | interrupt i => rfl

theorem node_next (w : Rewording) (n : Node) : (w.node n).next = n.next := by
  cases n with
  | dialogue d => exact w.next_eq d
  | splitter s => rfl
  | interrupt i => rfl

/-- The graph with every dialogue node written anew. -/
def graph (w : Rewording) (g : Graph) : Graph := { g with nodes := g.nodes.map w.node w.node_id }

variable {w : Rewording} {g : Graph}

@[simp] theorem graph_entry : (w.graph g).entry = g.entry := rfl

@[simp] theorem graph_rules : (w.graph g).rules = g.rules := rfl

theorem unchanged_graph (g : Graph) : unchanged.graph g = g := by
  have same : unchanged.node = id := by
    funext n
    cases n with
    | dialogue d => rfl
    | splitter s => rfl
    | interrupt i => rfl
  have nodes : g.nodes.map unchanged.node unchanged.node_id = g.nodes := by
    apply Registry.ext
    show g.nodes.entries.map unchanged.node = g.nodes.entries
    rw [same, List.map_id]
  rw [graph, nodes]

/-- A wording that says the same of each node whether or not another came first says the same of
the graph. -/
theorem graph_overwritten {v w : Rewording} (alike : ∀ d, v.dialogue (w.dialogue d) = v.dialogue d)
    (g : Graph) : v.graph (w.graph g) = v.graph g := by
  have same (n : Node) : v.node (w.node n) = v.node n := by
    cases n with
    | dialogue d => exact congrArg Node.dialogue (alike d)
    | splitter s => rfl
    | interrupt i => rfl
  have nodes : (v.graph (w.graph g)).nodes = (v.graph g).nodes := by
    apply Registry.ext
    show (g.nodes.entries.map w.node).map v.node = g.nodes.entries.map v.node
    simp only [List.map_map, Function.comp_def, same]
  show { g with nodes := (v.graph (w.graph g)).nodes } = { g with nodes := (v.graph g).nodes }
  rw [nodes]

@[simp] theorem graph_node? (id : NodeId) : (w.graph g).node? id = (g.node? id).map w.node := by
  unfold Graph.node?
  split
  · rfl
  · simp only [graph, Registry.map, Registry.find?, List.find?_map, Function.comp_def, node_id]

@[simp] theorem graph_dialogue? (id : NodeId) :
    (w.graph g).dialogue? id = (g.dialogue? id).map w.dialogue := by
  unfold Graph.dialogue?
  rw [graph_node?]
  cases g.node? id with
  | none => rfl
  | some n => cases n <;> rfl

theorem bind_graph_node? (target : Option NodeId) :
    target.bind (w.graph g).node? = (target.bind g.node?).map w.node := by
  cases target with
  | none => rfl
  | some id => exact graph_node? id

theorem graph_travelWithin (store : Store) (hops : Nat) (target : Option NodeId) :
    (w.graph g).travelWithin store hops target = g.travelWithin store hops target := by
  fun_induction g.travelWithin store hops target with
  | case1 _ _ lost =>
    rw [Graph.travelWithin, bind_graph_node?, lost]
    rfl
  | case2 _ _ d found =>
    rw [Graph.travelWithin, bind_graph_node?, found]
    exact congrArg Landing.dialogue (w.id_eq d)
  | case3 _ _ i found =>
    rw [Graph.travelWithin, bind_graph_node?, found]
    rfl
  | case4 _ _ s found stalls =>
    rw [Graph.travelWithin, bind_graph_node?, found]
    simp only [Option.map_some, node, stalls]
  | case5 _ s found _ onward =>
    rw [Graph.travelWithin, bind_graph_node?, found]
    simp only [Option.map_some, node, onward]
  | case6 _ s found next hops onward ih =>
    rw [Graph.travelWithin, bind_graph_node?, found]
    simpa only [Option.map_some, node, onward] using ih

@[simp] theorem graph_travel (store : Store) (target : Option NodeId) :
    (w.graph g).travel store target = g.travel store target :=
  graph_travelWithin store Graph.hopLimit target

@[simp] theorem graph_proceed (store : Store) (position : Option NodeId) :
    (w.graph g).proceed store position = g.proceed store position := by
  unfold Graph.proceed
  rw [graph_travel, bind_graph_node?]
  cases position.bind g.node? with
  | none => rfl
  | some n => simp only [Option.map_some, Option.bind_some, node_next]

@[simp] theorem graph_follow? (store : Store) (position : Option NodeId) (index : Nat) :
    (w.graph g).follow? store position index = g.follow? store position index := by
  unfold Graph.follow?
  rw [bind_graph_node?]
  cases position.bind g.node? with
  | none => rfl
  | some n =>
    cases n with
    | dialogue d => simp only [Option.map_some, node, w.choices_eq, graph_travel]
    | splitter s => rfl
    | interrupt i => rfl

theorem firstAhead_map (f : Dialogue → Dialogue)
    {search other : NodeId → Graph.Barren → Option Dialogue × Graph.Barren}
    (same : ∀ id barren, other id barren = ((search id barren).1.map f, (search id barren).2))
    (ids : List NodeId) (barren : Graph.Barren) :
    Graph.firstAhead other ids barren =
      ((Graph.firstAhead search ids barren).1.map f, (Graph.firstAhead search ids barren).2) := by
  induction ids generalizing barren with
  | nil => rfl
  | cons id rest ih =>
    simp only [Graph.firstAhead, same]
    rcases search id barren with ⟨found, learnt⟩
    cases found with
    | none => exact ih learnt
    | some d => rfl

theorem graph_searchWithin (store : Store) (hops : Nat) (id : NodeId) (barren : Graph.Barren) :
    (w.graph g).searchWithin store hops id barren =
      ((g.searchWithin store hops id barren).1.map w.dialogue,
        (g.searchWithin store hops id barren).2) := by
  induction hops generalizing id barren with
  | zero => rfl
  | succ hops ih =>
    simp only [Graph.searchWithin, graph_node?]
    split
    case isTrue => rfl
    case isFalse =>
      cases g.node? id with
      | none => rfl
      | some n =>
        cases n with
        | dialogue d => rfl
        | interrupt i => rfl
        | splitter s =>
          simp only [Option.map_some, node, firstAhead_map w.dialogue ih]
          rcases Graph.firstAhead (g.searchWithin store hops) (s.openTargets store) barren with
            ⟨found, learnt⟩
          cases found with
          | none => rfl
          | some d => rfl

/-- The dialogue node ahead is the same one, written anew. -/
@[simp] theorem graph_ahead? (store : Store) (target : Option NodeId) :
    (w.graph g).ahead? store target = (g.ahead? store target).map w.dialogue := by
  cases target with
  | none => rfl
  | some id => simp only [Graph.ahead?, Option.bind_some, graph_searchWithin]

end Rewording
end Parley
