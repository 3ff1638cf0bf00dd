import Parley.Graph.Basic

/-! A guarded gate: the gatekeeper waits for a password that the host writes, and a splitter sends
the traveller on, back, or away. -/
namespace Parley.Story.NorthGate

/-- A plain line of dialogue. -/
def say (id : NodeId) (speaker : Option String) (text : String) (next : Option NodeId) :
    Dialogue :=
  ⟨id, next, text, default, speaker.toList.map Speaker.ofName, []⟩

def halt : Dialogue :=
  { say "halt" (some "Gatekeeper") "Halt! Who goes there?" none with
    choices := [.ofText "A friend." (some "ask"), .ofText "Nobody." none] }

def ask : Dialogue :=
  { say "ask" (some "Gatekeeper") "Then speak the password." (some "judge") with
    settings := { (default : Presentation) with awaitContinue := true } }

/-- The right word opens the gate, and the third wrong one ends the talk. -/
def judge : Splitter where
  id := "judge"
  branches := [
    ⟨[.ofString (.following "password" "") true (.fixed "mellon")], some "open"⟩,
    ⟨[.ofInt (.following "attempts" 0) .greaterOrEqual (.fixed 3)], some "turned_away"⟩]
  fallback := some "wrong"

def wrong : Dialogue :=
  { say "wrong" (some "Gatekeeper") "Wrong. " (some "ask") with
    settings := { (default : Presentation) with color := .fixed ⟨0xB0, 0x30, 0x30⟩ } }

def turnedAway : Dialogue := say "turned_away" (some "Gatekeeper") "Begone." none

def barLifts : Dialogue :=
  { say "open" none "The bar lifts. " (some "gate") with
    settings := { (default : Presentation) with sounds := .fixed ["gate_creak"] } }

def through : Dialogue :=
  { say "through" none "You pass beneath the arch." none with
    settings := { (default : Presentation) with keepPreviousText := true } }

def graph : Graph :=
  .ofNodes (some "halt")
    [.dialogue halt, .dialogue ask, .splitter judge, .dialogue wrong, .dialogue turnedAway,
      .dialogue barLifts, .interrupt ⟨"gate", some "through"⟩, .dialogue through]
    default
    [⟨"password", .string ""⟩, ⟨"attempts", .int 0⟩]

end Parley.Story.NorthGate
