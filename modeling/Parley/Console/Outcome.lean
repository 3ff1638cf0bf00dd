import Parley.Duration

/-! What a program leaves behind when it ends. -/
namespace Parley.Console

structure Outcome where
  exitCode : Nat
  stdout : String
  stderr : String
deriving DecidableEq

/-- Lines, each with its end. -/
def lines (texts : List String) : String := String.join (texts.map (· ++ "\n"))

/-- A success with some lines of output. -/
def Outcome.success (texts : List String) : Outcome := ⟨0, lines texts, ""⟩

/-- A failure with a message. -/
def Outcome.failure (message : String) : Outcome := ⟨1, "", lines [message]⟩

end Parley.Console
