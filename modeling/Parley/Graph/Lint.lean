import Parley.Graph.Reach

/-! Problems of a written graph. Playing never depends on them; they foretell where a session can
end early or stall. -/
namespace Parley

inductive Issue
  | missingEntry
  | danglingEntry (id : NodeId)
  | danglingTarget (node target : NodeId)
  /-- If no branch is open, the session stalls there. -/
  | splitterWithoutDefault (id : NodeId)
  | undeclaredVariable (node : NodeId) (name : String)
  | unreachable (id : NodeId)
deriving DecidableEq

namespace Issue

/-- Errors end every session at once; the others are warnings. -/
def isError : Issue → Bool
  | missingEntry => true
  | danglingEntry _ => true
  | _ => false

def message : Issue → String
  | missingEntry => "graph has no entry node"
  | danglingEntry id => s!"entry node '{id}' does not exist"
  | danglingTarget node target => s!"node '{node}' points to missing node '{target}'"
  | splitterWithoutDefault id => s!"splitter '{id}' has no default and can stall"
  | undeclaredVariable node name => s!"node '{node}' binds undeclared variable '{name}'"
  | unreachable id => s!"node '{id}' is unreachable from the entry"

end Issue

namespace Graph

def entryIssues (g : Graph) : List Issue :=
  match g.entry.filter (· ≠ "") with
  | none => [.missingEntry]
  | some entry => if g.contains entry then [] else [.danglingEntry entry]

def targetIssues (g : Graph) (n : Node) : List Issue :=
  (n.targets.filter fun t => t ≠ "" ∧ ¬g.contains t).map (.danglingTarget n.id)

def defaultIssues (n : Node) : List Issue :=
  match n with
  | .splitter s => if s.fallback.getD "" = "" then [.splitterWithoutDefault s.id] else []
  | _ => []

/-- The variables that a node names, in increasing order and each once. -/
def sourceNames (n : Node) : List String :=
  (Registry.ofList n.sources : Registry String fun s => s).entries

def variableIssues (g : Graph) (n : Node) : List Issue :=
  ((sourceNames n).filter fun name => name ∉ g.declarations.map Variable.name).map
    (.undeclaredVariable n.id)

def nodeIssues (g : Graph) (n : Node) : List Issue :=
  targetIssues g n ++ defaultIssues n ++ variableIssues g n

def unreachableIssues (g : Graph) : List Issue :=
  let reached := g.reachable
  (g.nodeList.filter fun n => n.id ∉ reached).map fun n => .unreachable n.id

/-- All problems: the entry's, then each node's in increasing order of id, then the nodes that
nothing leads to. -/
def lint (g : Graph) : List Issue :=
  g.entryIssues ++ g.nodeList.flatMap g.nodeIssues ++ g.unreachableIssues

end Graph
end Parley
