import Parley.Condition
import Parley.Presentation

/-! The nodes of a dialogue graph. A dialogue node speaks, a splitter chooses the way on by
conditions, an interrupt holds the session until the host lets it go. -/
namespace Parley

abbrev NodeId := String

structure Speaker where
  name : Bindable String
  talking : Bindable Bool
  /-- Show question marks on the name plate. -/
  hideName : Bindable Bool
deriving DecidableEq, Inhabited

/-- A speaker who is talking, under a fixed name. -/
def Speaker.ofName (name : String) : Speaker := ⟨.fixed name, .fixed true, default⟩

structure Choice where
  text : Bindable String
  conditions : List Condition
  /-- Stay on display, disabled, while the conditions fail. -/
  showIfUnmet : Bindable Bool
  next : Option NodeId
deriving DecidableEq, Inhabited

/-- A choice without conditions. -/
def Choice.ofText (text : String) (next : Option NodeId) : Choice :=
  ⟨.fixed text, [], default, next⟩

structure Dialogue where
  id : NodeId
  next : Option NodeId
  text : String
  settings : Presentation
  speakers : List Speaker
  choices : List Choice
deriving DecidableEq, Inhabited

/-- A way out of a splitter, open while all its conditions hold. -/
structure Branch where
  conditions : List Condition
  next : Option NodeId
deriving DecidableEq, Inhabited

structure Splitter where
  id : NodeId
  /-- Tried in order. -/
  branches : List Branch
  /-- Taken if no branch is open. -/
  fallback : Option NodeId
deriving DecidableEq, Inhabited

structure Interrupt where
  id : NodeId
  next : Option NodeId
deriving DecidableEq, Inhabited

inductive Node
  | dialogue (d : Dialogue)
  | splitter (s : Splitter)
  | interrupt (i : Interrupt)
deriving DecidableEq, Inhabited

/-- The variables that a condition names. -/
def Condition.sources (c : Condition) : List String :=
  let sides := match c.operands with
    | .bool left right => [left.source?, right.source?]
    | .int left right => [left.source?, right.source?]
    | .float left right => [left.source?, right.source?]
    | .string left right => [left.source?, right.source?]
  (c.comparison.source? :: c.equals.source? :: sides).filterMap fun s => s

namespace Node

def id : Node → NodeId
  | dialogue d => d.id
  | splitter s => s.id
  | interrupt i => i.id

/-- Where the node plainly goes on to. A splitter has no such place. -/
def next : Node → Option NodeId
  | dialogue d => d.next
  | splitter _ => none
  | interrupt i => i.next

/-- Every place that the node can lead to, as written. -/
def targets : Node → List NodeId
  | dialogue d => d.next.toList ++ d.choices.filterMap Choice.next
  | splitter s => s.branches.filterMap Branch.next ++ s.fallback.toList
  | interrupt i => i.next.toList

def kindName : Node → String
  | dialogue _ => "dialogue"
  | splitter _ => "splitter"
  | interrupt _ => "interrupt"

/-- The variables that the node names, in no particular order and with repetitions. -/
def sources : Node → List String
  | dialogue d =>
    d.settings.sources ++
      (d.speakers.flatMap fun s =>
        [s.name.source?, s.talking.source?, s.hideName.source?].filterMap fun n => n) ++
      (d.choices.flatMap fun c =>
        ([c.text.source?, c.showIfUnmet.source?].filterMap fun n => n) ++
          c.conditions.flatMap Condition.sources)
  | splitter s => s.branches.flatMap fun b => b.conditions.flatMap Condition.sources
  | interrupt _ => []

end Node
end Parley
