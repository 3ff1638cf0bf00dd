import Parley.Document.Whole
import Parley.Graph.Lint

/-! A graph as an index keeps it: its nodes lie in no order that anybody may count on. Look-ups do
not care. The walks that are seen from outside, over the problems and into the document, put the
nodes in order of ids first; the search from the entry only looks up. -/
namespace Parley

structure Index where
  entry : Option NodeId
  rules : PlayRules
  declarations : List Variable
  table : List Node

/-- Nodes in increasing order of id. -/
def inOrder (table : List Node) : List Node := table.mergeSort fun m n => m.id ≤ n.id

namespace Index

instance : Inhabited Index := ⟨⟨none, default, [], []⟩⟩

/-- The place of a node in the table. -/
def place? (x : Index) (id : NodeId) : Option { n // n ∈ x.table } :=
  if id = "" then none else x.table.attach.find? fun n => n.val.id = id

def node? (x : Index) (id : NodeId) : Option Node := (x.place? id).map Subtype.val

def contains (x : Index) (id : NodeId) : Bool := (x.node? id).isSome

def size (x : Index) : Nat := x.table.length

/-- The ids seen once every node of the queue, and whatever it leads to, has been followed. -/
def reachFrom (x : Index) (queue : List { n // n ∈ x.table }) (seen : List NodeId) :
    List NodeId :=
  match queue with
  | [] => seen
  | n :: rest =>
    if _fresh : n.val.id ∈ seen then reachFrom x rest seen
    else reachFrom x (rest ++ n.val.targets.filterMap x.place?) (n.val.id :: seen)
termination_by queue.length + Graph.unseenTargets seen x.table
decreasing_by
  · simp
  · have := Graph.unseenTargets_cons_add n.property _fresh
    have := List.length_filterMap_le x.place? n.val.targets
    simp only [List.length_append, List.length_cons]
    omega

def reachable (x : Index) : List NodeId := x.reachFrom (x.entry.toList.filterMap x.place?) []

def entryIssues (x : Index) : List Issue :=
  match x.entry.filter (· ≠ "") with
  | none => [.missingEntry]
  | some entry => if x.contains entry then [] else [.danglingEntry entry]

def targetIssues (x : Index) (n : Node) : List Issue :=
  (n.targets.filter fun t => t ≠ "" ∧ ¬x.contains t).map (.danglingTarget n.id)

def variableIssues (x : Index) (n : Node) : List Issue :=
  ((Graph.sourceNames n).filter fun name => name ∉ x.declarations.map Variable.name).map
    (.undeclaredVariable n.id)

def nodeIssues (x : Index) (n : Node) : List Issue :=
  x.targetIssues n ++ Graph.defaultIssues n ++ x.variableIssues n

def unreachableIssues (x : Index) : List Issue :=
  let reached := x.reachable
  (inOrder (x.table.filter fun n => n.id ∉ reached)).map fun n => .unreachable n.id

def lint (x : Index) : List Issue :=
  x.entryIssues ++ (inOrder x.table).flatMap x.nodeIssues ++ x.unreachableIssues

/-- The nodes are written as they lie. -/
def codec : Codec Index := Schema.codec {
  name := "Graph"
  blank := default
  slots := [
    NodeId.codec.option.slot "entry" Index.entry fun x a => { x with entry := a },
    PlayRules.codec.slot "settings" Index.rules fun x a => { x with rules := a },
    Variable.codec.list.slot "variables" Index.declarations
      fun x a => { x with declarations := a },
    Node.codec.list.slot "nodes" Index.table fun x a => { x with table := a }] }

def toText (x : Index) : String := codec.text { x with table := inOrder x.table }

end Index
end Parley
