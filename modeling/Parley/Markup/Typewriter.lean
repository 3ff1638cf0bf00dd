/-! Text on its way onto the screen, one plain character at a time. Tags, from a `<` to the next
`>`, come whole and cost no step; a `<` that nothing closes is plain. -/
namespace Parley

/-- The text already shown, and the text still to come. -/
structure Typewriter where
  shown : List Char
  hidden : List Char
deriving DecidableEq, Inhabited

namespace Typewriter

/-- What one step brought out: a plain character, or the end. -/
inductive Stroke
  | revealed (c : Char)
  | finished
deriving DecidableEq

def empty : Typewriter := ⟨[], []⟩

def total (t : Typewriter) : List Char := t.shown ++ t.hidden

def isFinished (t : Typewriter) : Bool := t.hidden.isEmpty

/-- Append a text to come. What was there before is shown at once. -/
def feed (t : Typewriter) (text : List Char) : Typewriter := ⟨t.total, text⟩

def showAll (t : Typewriter) : Typewriter := ⟨t.total, []⟩

/-- Pass tags, from inside one if `inTag` is set, up to the first plain character or the end: what
was passed and the rest, the plain character still in it. -/
def passTags (inTag : Bool) : List Char → List Char × List Char
  | [] => ([], [])
  | c :: rest =>
    if inTag ∨ (c = '<' ∧ rest.contains '>') then
      let (passed, left) := passTags (c ≠ '>') rest
      (c :: passed, left)
    else ([], c :: rest)

/-- Show the tags ahead and at most one plain character behind them. -/
def step (t : Typewriter) : Stroke × Typewriter :=
  match passTags false t.hidden with
  | (tags, []) => (.finished, ⟨t.shown ++ tags, []⟩)
  | (tags, c :: rest) => (.revealed c, ⟨t.shown ++ tags ++ [c], rest⟩)

end Typewriter
end Parley
