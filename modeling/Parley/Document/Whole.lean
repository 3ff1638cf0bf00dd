import Parley.Document.Graph
import Parley.Pacing

/-! Whole documents: attributes, one value, and nothing behind it. -/
namespace Parley

/-- The value of a document. -/
def Codec.parse (c : Codec α) (text : String) : Except Ron.Fault α := do
  let s := text.toList
  let (mode, s) ← Ron.head (s.length + 1) .plain s
  let (a, rest) ← c.read mode s
  match ← Ron.skip rest with
  | [] => return a
  | _ => throw .malformed

/-- A value as a document without attributes. -/
def Codec.text (c : Codec α) (a : α) : String := String.ofList (c.write 0 a)

/-- What is left out keeps its usual pace. -/
def Pacing.codec : Codec Pacing := Schema.codec {
  name := "SessionConfig"
  blank := default
  slots := [
    Codec.float.slot "print_speed" Pacing.printSpeed fun p x => { p with printSpeed := x },
    Codec.float.slot "fast_forward_speed" Pacing.fastForwardSpeed
      fun p x => { p with fastForwardSpeed := x },
    Codec.float.slot "auto_advance_delay" Pacing.autoAdvanceDelay
      fun p x => { p with autoAdvanceDelay := x },
    Codec.count.slot "max_tasks_per_tick" Pacing.maxTasksPerTick
      fun p x => { p with maxTasksPerTick := x }] }

def Pacing.parse (text : String) : Except Ron.Fault Pacing := Pacing.codec.parse text

namespace Graph

def parse (text : String) : Except Ron.Fault Graph := Graph.codec.parse text

/-- The document of a graph, with its nodes in increasing order of id. -/
def toText (g : Graph) : String := Graph.codec.text g

end Graph
end Parley
