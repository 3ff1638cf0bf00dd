import Parley.Graph.Basic

/-! A short tavern scene: a greeting, a gated choice, a splitter on a flag, and an interrupt that
the host resumes. It is what plays when no graph is given. -/
namespace Parley.Story.Tavern

def keeper : Speaker := ⟨.inactive "Keeper", .inactive true, default⟩

/-- Someone in the background, who may talk under a hidden name. -/
def patron (talking hidden : Bool) : Speaker :=
  ⟨.inactive "Patron", .inactive talking, .inactive hidden⟩

def greet : Dialogue where
  id := "greet"
  next := some "ask"
  text := "Welcome to the Rusty Flagon."
  settings := { (default : Presentation) with
    preDelay := .inactive (.ofRatio false 1 2)
    background := .fixed "tavern_interior"
    backgroundTransition := .inactive .fadeOutAndIn
    musicQueue := .fixed ["lute_loop", "crowd_murmur"]
    musicLoop := .inactive true
    printSpeed := .following "typing_speed" (.ofRatio false 2 100) }
  speakers := [keeper, patron false false]
  choices := []

/-- The player has two gold pieces or more. -/
def hasGold : Condition :=
  { (default : Condition) with
    comparison := .inactive .greaterOrEqual
    operands := .int ⟨false, some "gold", 0⟩ (.inactive 2) }

def ask : Dialogue where
  id := "ask"
  next := none
  text := "What'll it be?"
  settings := { (default : Presentation) with
    keepPreviousText := true
    italic := .inactive true }
  speakers := [keeper]
  choices := [
    ⟨.inactive "An ale, please. (2 gold)", [hasGold], .inactive true, some "ale"⟩,
    ⟨.inactive "Just looking.", [], default, some "check"⟩,
    ⟨.inactive "Leave.", [], default, none⟩]

def ale : Dialogue where
  id := "ale"
  next := some "check"
  text := "One ale, coming up."
  settings := { (default : Presentation) with
    broadcast := .fixed "spend_gold"
    sounds := .fixed ["pour", "coins"]
    color := .fixed ⟨0xC8, 0xA0, 0x40⟩ }
  speakers := [keeper, patron true true]
  choices := []

def metBefore : Condition :=
  { (default : Condition) with
    equals := .inactive true
    operands := .bool ⟨false, some "met_keeper", false⟩ (.inactive true) }

def check : Splitter := ⟨"check", [⟨[metBefore], some "regular"⟩], some "newcomer"⟩

def regular : Dialogue :=
  ⟨"regular", some "farewell", "Good to see you again.", default, [], []⟩

def newcomer : Dialogue where
  id := "newcomer"
  next := some "pause"
  text := "Haven't seen you around before."
  settings := { (default : Presentation) with
    advanceOnClick := true
    boxColor := .fixed ⟨0x20, 0x20, 0x30⟩
    textAlign := .fixed .center }
  speakers := [keeper]
  choices := []

def farewell : Dialogue where
  id := "farewell"
  next := none
  text := "Safe travels."
  settings := { (default : Presentation) with
    bold := .inactive true
    font := .fixed "Blackletter" }
  speakers := []
  choices := []

def graph : Graph :=
  .ofNodes (some "greet")
    [.dialogue greet, .dialogue ask, .dialogue ale, .splitter check, .dialogue regular,
      .dialogue newcomer, .interrupt ⟨"pause", some "farewell"⟩, .dialogue farewell]
    ⟨true, true, true, .fadeIn⟩
    [⟨"gold", .int 3⟩, ⟨"met_keeper", .bool false⟩, ⟨"player_name", .string "stranger"⟩,
      ⟨"typing_speed", .float (.ofRatio false 3 100)⟩]

end Parley.Story.Tavern
