import Mathlib.Data.List.Dedup
import Mathlib.Data.List.Sort
import Parley.Graph.Index
import Parley.Proofs.Registry
import Parley.Session.Operation

/-! A graph does not tell in which order its nodes were written. An index may keep its nodes in any
order and shuffle them as it grows, because each walk over it is put in order of ids first. -/
namespace Parley

/-- One list of nodes is the other with nodes of different ids moved past one another. -/
structure Rearranged (a b : List Node) : Prop where
  perm : a.Perm b
  sameOrder : ∀ id : NodeId, (a.filter fun n => n.id = id) = b.filter fun n => n.id = id

/-- How an index can list the nodes put into it. A node drives out the earlier one of its id, and
those that stay may lie anew each time. -/
inductive Indexes : List Node → List Node → Prop
  | empty : Indexes [] []
  | insert (n : Node) : Indexes nodes table →
      table'.Perm (n :: table.filter fun m => m.id ≠ n.id) → Indexes (nodes ++ [n]) table'

/-- An index gives what the graph gives. -/
structure Index.Serves (x : Index) (g : Graph) : Prop where
  size : x.size = g.size
  finds : ∀ id, x.node? id = g.node? id
  lints : x.lint = g.lint
  sorts : inOrder x.table = g.nodeList
  saves : x.toText = g.toText

/-- Nodes of different ids have one order of ids, whatever order they lie in. -/
theorem inOrder_eq {table nodes : List Node} (sorted : Increasing Node.id nodes)
    (same : table.Perm nodes) : inOrder table = nodes := by
  have ordered : (inOrder table).Pairwise fun m n => decide (m.id ≤ n.id) = true := by
    apply List.pairwise_mergeSort
    · intro l m n
      simpa only [decide_eq_true_eq] using String.le_trans
    · intro m n
      simpa only [Bool.or_eq_true, decide_eq_true_eq] using String.le_total m.id n.id
  refine List.Perm.eq_of_pairwise ?_ ordered (sorted.imp ?_)
    ((List.mergeSort_perm _ _).trans same)
  · intro m n listed listed' before after
    have one : m.id = n.id := String.le_antisymm (of_decide_eq_true before) (of_decide_eq_true after)
    have kept : m ∈ nodes := same.mem_iff.mp (List.mem_mergeSort.mp listed)
    exact Registry.eq_of_name (r := ⟨nodes, sorted⟩) kept listed' one
  · intro m n before
    exact decide_eq_true (String.not_lt.mp (String.lt_asymm before))

open List in
/-- However often it was shuffled, an index holds the entries of the table. -/
theorem Indexes.perm {nodes table : List Node} (index : Indexes nodes table) :
    table ~ (Registry.ofList nodes : Registry Node Node.id).entries := by
  induction index with
  | empty => exact .refl _
  | @insert nodes table table' n _ shuffled ih =>
    rw [Registry.ofList_append_singleton]
    calc table'
        ~ n :: table.filter fun m => m.id ≠ n.id := shuffled
      _ ~ n :: (Registry.ofList nodes : Registry Node Node.id).entries.filter
            fun m => m.id ≠ n.id := (ih.filter _).cons _
      _ ~ ((Registry.ofList nodes).insert n).entries :=
        (insertByName_perm (Registry.ofList nodes).increasing n).symm

/-- In its own order, too, the table is such an index. -/
theorem indexes_entries (nodes : List Node) :
    Indexes nodes (Registry.ofList nodes : Registry Node Node.id).entries := by
  induction nodes using List.reverseRecOn with
  | nil => exact .empty
  | append_singleton nodes n ih =>
    rw [Registry.ofList_append_singleton]
    exact .insert n ih (insertByName_perm (Registry.ofList nodes).increasing n)

namespace Index

variable {x : Index} {g : Graph} {id : NodeId}

theorem node?_eq (x : Index) (id : NodeId) :
    x.node? id = if id = "" then none else x.table.find? fun n => n.id = id := by
  rw [node?, place?]
  split
  · rfl
  · conv_rhs => rw [← List.attach_map_subtype_val x.table, List.find?_map]
    rfl

theorem filterMap_place?_found (found : x.node? id = some n) (rest : List NodeId) :
    ∃ place, place.val = n ∧
      (id :: rest).filterMap x.place? = place :: rest.filterMap x.place? := by
  obtain ⟨place, there, same⟩ := Option.map_eq_some_iff.mp found
  exact ⟨place, same, List.filterMap_cons_some there⟩

theorem filterMap_place?_lost (lost : x.node? id = none) (rest : List NodeId) :
    (id :: rest).filterMap x.place? = rest.filterMap x.place? :=
  List.filterMap_cons_none (Option.map_eq_none_iff.mp lost)

/-- The search depends on nothing but look-ups. -/
theorem reachFrom_eq (finds : ∀ id, x.node? id = g.node? id) (queue seen : List NodeId) :
    x.reachFrom (queue.filterMap x.place?) seen = g.reachFrom queue seen := by
  fun_induction Graph.reachFrom g queue seen with
  | case1 seen => simp [reachFrom]
  | case2 seen id rest known ih =>
    cases found : x.node? id with
    | none => rw [filterMap_place?_lost found, ih]
    | some n =>
      obtain ⟨place, rfl, queued⟩ := filterMap_place?_found found rest
      obtain ⟨-, rfl⟩ := Graph.node?_listed ((finds id).symm.trans found)
      rw [queued, reachFrom, dif_pos known, ih]
  | case3 seen id rest fresh lost ih => rw [filterMap_place?_lost ((finds id).trans lost), ih]
  | case4 seen id rest fresh n found ih =>
    obtain ⟨place, rfl, queued⟩ := filterMap_place?_found ((finds id).trans found) rest
    obtain ⟨-, rfl⟩ := Graph.node?_listed found
    rw [queued, reachFrom, dif_neg fresh, ← ih, List.filterMap_append]

/-- The nodes of a graph, lying in some order. -/
structure Holds (x : Index) (g : Graph) : Prop where
  entry : x.entry = g.entry
  rules : x.rules = g.rules
  declarations : x.declarations = g.declarations
  table : x.table.Perm g.nodeList

namespace Holds

variable (holds : x.Holds g)
include holds

theorem node? (id : NodeId) : x.node? id = g.node? id := by
  rw [node?_eq, Graph.node?, ← Registry.find?_of_perm holds.table id]

theorem inOrder : inOrder x.table = g.nodeList := inOrder_eq g.nodes.increasing holds.table

theorem reachable : x.reachable = g.reachable := by
  rw [Index.reachable, reachFrom_eq holds.node?, holds.entry, Graph.reachable]

theorem entryIssues : x.entryIssues = g.entryIssues := by
  simp only [Index.entryIssues, Graph.entryIssues, contains, Graph.contains, holds.node?,
    holds.entry]
  rfl

theorem nodeIssues : x.nodeIssues = g.nodeIssues := by
  funext n
  simp only [Index.nodeIssues, Graph.nodeIssues, targetIssues, Graph.targetIssues, variableIssues,
    Graph.variableIssues, contains, Graph.contains, holds.node?, holds.declarations]
  rfl

theorem unreachableIssues : x.unreachableIssues = g.unreachableIssues := by
  have kept := inOrder_eq (g.nodes.increasing.filter fun n => n.id ∉ g.reachable)
    (holds.table.filter fun n => n.id ∉ g.reachable)
  simp only [Index.unreachableIssues, holds.reachable, kept]
  rfl

theorem lint : x.lint = g.lint := by
  rw [Index.lint, holds.entryIssues, holds.inOrder, holds.nodeIssues, holds.unreachableIssues]
  rfl

theorem toText : x.toText = g.toText := by
  obtain ⟨entry, rules, declarations, table⟩ := x
  obtain ⟨rfl, rfl, rfl, same⟩ := holds
  show codec.text ⟨g.entry, g.rules, g.declarations, Parley.inOrder table⟩ = g.toText
  rw [inOrder_eq g.nodes.increasing same]
  rfl

/-- An index that holds the nodes of a graph gives what the graph gives, however they lie. -/
theorem serves : x.Serves g :=
  ⟨holds.table.length_eq, holds.node?, holds.lint, holds.inOrder, holds.toText⟩

end Holds

end Index

namespace Graph

/-- There is one node for each id that was written. -/
theorem size_ofNodes (nodes : List Node) (entry : Option NodeId) (rules : PlayRules)
    (declarations : List Variable) :
    (ofNodes entry nodes rules declarations).size = (nodes.map Node.id).dedup.length := by
  have ids : (Registry.ofList nodes : Registry Node Node.id).names.Perm
      (nodes.map Node.id).dedup := by
    refine (List.perm_ext_iff_of_nodup (Registry.nodup_names _) (List.nodup_dedup _)).mpr ?_
    intro id
    rw [List.mem_dedup, Registry.mem_names_ofList]
  have count := ids.length_eq
  rwa [Registry.names, List.length_map] at count

/-- The order in which nodes are written is not seen in the graph. Rearranged, they make a graph
with as many nodes, the same answer to each look-up (the last node written under the id), the same
problems, the same document and the same course of each session; and so it is however an index
lists the nodes put into it. -/
theorem written_order_unseen (rearranged : Rearranged a b) (entry : Option NodeId)
    (rules : PlayRules) (declarations : List Variable) :
    let g := ofNodes entry a rules declarations
    let h := ofNodes entry b rules declarations
    (g.size = h.size ∧ g.size = (a.map Node.id).dedup.length) ∧
    (∀ id, g.node? id = h.node? id ∧
      g.node? id = if id = "" then none else a.reverse.find? fun n => n.id = id) ∧
    (∀ id n, g.node? id = some n → n.id = id) ∧
    g.lint = h.lint ∧
    g.toText = h.toText ∧
    (∀ pacing ops,
      (Session.ofGraph g pacing).performAll ops = (Session.ofGraph h pacing).performAll ops) ∧
    Indexes a g.nodeList ∧
    ∀ table, Indexes a table ∨ Indexes b table →
      (Index.mk entry rules declarations table).Serves g := by
  intro g h
  have one : g = h := congrArg (Graph.mk entry rules declarations)
    (Registry.ofList_eq rearranged.sameOrder)
  rw [← one]
  refine ⟨⟨rfl, size_ofNodes a entry rules declarations⟩, fun id => ⟨rfl, ?_⟩, ?_, rfl, rfl,
    fun _ _ => rfl, ?_, ?_⟩
  · show (if id = "" then none else (Registry.ofList a).find? id) = _
    rw [Registry.find?_ofList]
  · intro id n found
    exact (node?_listed found).2
  · exact indexes_entries a
  · rintro table (index | index)
    · have holds : Index.Holds ⟨entry, rules, declarations, table⟩ g := ⟨rfl, rfl, rfl, index.perm⟩
      exact holds.serves
    · have holds : Index.Holds ⟨entry, rules, declarations, table⟩ h := ⟨rfl, rfl, rfl, index.perm⟩
      exact one ▸ holds.serves

/-- A gate that was written twice, a yard, and a node without a name. -/
def gateDrafts : List Node :=
  [.interrupt ⟨"gate", some "yard"⟩, .interrupt ⟨"yard", none⟩, .interrupt ⟨"", some "yard"⟩,
    .interrupt ⟨"gate", some "moat"⟩]

def gateSorted : List Node :=
  [.interrupt ⟨"", some "yard"⟩, .interrupt ⟨"gate", some "yard"⟩,
    .interrupt ⟨"gate", some "moat"⟩, .interrupt ⟨"yard", none⟩]

theorem gateDrafts_rearranged : Rearranged gateDrafts gateSorted where
  perm := by decide
  sameOrder id := by
    by_cases gate : "gate" = id
    · subst gate
      decide
    · by_cases yard : "yard" = id
      · subst yard
        decide
      · simp [gateDrafts, gateSorted, Node.id, List.filter_cons, gate, yard]

/-- The later gate stands, in either order of writing. -/
theorem gate_order_unseen : Rearranged gateDrafts gateSorted ∧
    (ofNodes (some "gate") gateDrafts).size = 3 ∧
    (ofNodes (some "gate") gateDrafts).node? "gate" = some (.interrupt ⟨"gate", some "moat"⟩) ∧
    (ofNodes (some "gate") gateDrafts).node? "" = none ∧
    (ofNodes (some "gate") gateDrafts).toText = (ofNodes (some "gate") gateSorted).toText := by
  obtain ⟨⟨-, size⟩, finds, -, -, texts, -⟩ :=
    written_order_unseen gateDrafts_rearranged (some "gate") default []
  exact ⟨gateDrafts_rearranged, size, (finds "gate").2, (finds "").2, texts⟩

end Graph
end Parley
