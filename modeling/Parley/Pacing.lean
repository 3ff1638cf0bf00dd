import Parley.Duration

/-! How fast sessions run where the graph does not say. -/
namespace Parley

structure Pacing where
  /-- Seconds between two characters, until a node sets its own. -/
  printSpeed : Binary64
  /-- Seconds between two characters during fast-forward. -/
  fastForwardSpeed : Binary64
  /-- Seconds before a finished node is left by itself. -/
  autoAdvanceDelay : Binary64
  /-- How many tasks one tick may run. -/
  maxTasksPerTick : Nat
deriving DecidableEq

namespace Pacing

instance : Inhabited Pacing :=
  ⟨.ofRatio false 2 100, .ofRatio false 8 1000, .ofInt 1, 4096⟩

def fastForwardInterval (p : Pacing) : Duration := .ofSeconds p.fastForwardSpeed

def autoAdvanceInterval (p : Pacing) : Duration := .ofSeconds p.autoAdvanceDelay

end Pacing
end Parley
