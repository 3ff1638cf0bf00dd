import Parley.Disk
import Parley.Document.Whole
import Parley.Session.Basic

/-! Where a session gets its graph and its pacing: given outright, or read from a file. What is
given outright goes before a file, and faults of the graph before faults of the pacing. -/
namespace Parley

/-- Why a file was not loaded. -/
inductive LoadFault
  | unreadable (obstacle : Obstacle)
  | document (fault : Ron.Fault)
deriving DecidableEq

def LoadFault.message : LoadFault → String
  | unreadable obstacle => s!"IO error: {obstacle.message}"
  | document fault => s!"RON deserialization error: {fault.message}"

inductive BuildFault
  | missingGraph
  | graph (fault : LoadFault)
  | pacing (fault : LoadFault)
deriving DecidableEq

def BuildFault.message : BuildFault → String
  | missingGraph => "no graph was provided"
  | graph fault => s!"graph error: {fault.message}"
  | pacing fault => s!"config error: {fault.message}"

/-- What a session is built from. -/
structure Blueprint where
  graph : Option Graph := none
  graphFile : Option String := none
  pacing : Option Pacing := none
  pacingFile : Option String := none

/-- Read a file and parse its text. -/
def FileReader.load (read : FileReader) (parse : String → Except Ron.Fault α) (path : String) :
    Except LoadFault α :=
  match read path with
  | .error obstacle => .error (.unreadable obstacle)
  | .ok text => (parse text).mapError .document

namespace Blueprint

def findGraph (b : Blueprint) (read : FileReader) : Except BuildFault Graph :=
  match b.graph, b.graphFile with
  | some graph, _ => .ok graph
  | none, some path => (read.load Graph.parse path).mapError .graph
  | none, none => .error .missingGraph

def findPacing (b : Blueprint) (read : FileReader) : Except BuildFault Pacing :=
  match b.pacing, b.pacingFile with
  | some pacing, _ => .ok pacing
  | none, some path => (read.load Pacing.parse path).mapError .pacing
  | none, none => .ok default

/-- An idle session. -/
def build (b : Blueprint) (read : FileReader) : Except BuildFault Session := do
  let graph ← b.findGraph read
  return .ofGraph graph (← b.findPacing read)

end Blueprint
end Parley
