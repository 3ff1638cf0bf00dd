import Parley.Markup.Typewriter
import Parley.Text.Slice

/-! A typewriter as memory holds it: the whole text as one string, and how many of its bytes are on
screen. What is read of the text is cut out by byte offsets. -/
namespace Parley

structure Reel where
  total : String
  /-- In bytes. -/
  cursor : Nat
deriving DecidableEq, Inhabited

namespace Reel

def empty : Reel := ⟨"", 0⟩

/-- What is on screen; nothing if the cursor stands inside of a character. -/
def visible? (r : Reel) : Option String := Text.slice? r.total 0 r.cursor

/-- What is not on screen yet. -/
def rest? (r : Reel) : Option String := Text.slice? r.total r.cursor r.total.utf8ByteSize

def feed (r : Reel) (text : String) : Reel := ⟨r.total ++ text, r.total.utf8ByteSize⟩

def showAll (r : Reel) : Reel := { r with cursor := r.total.utf8ByteSize }

def forward (r : Reel) (bytes : Nat) : Reel := { r with cursor := r.cursor + bytes }

theorem cursor_lt {r : Reel} {rest : String} (cut : r.rest? = some rest)
    (ahead : rest.toList = c :: cs) : r.cursor < r.total.utf8ByteSize := by
  refine Text.lt_of_slice? cut ?_
  rintro rfl
  cases ahead

/-- Show the tags ahead and at most one plain character behind them; nothing if the text would have
to be cut inside of a character. -/
def step? (r : Reel) : Option (Typewriter.Stroke × Reel) :=
  match _cut : r.rest? with
  | none => none
  | some rest =>
    match _ahead : rest.toList with
    | [] => some (.finished, r)
    | c :: cs =>
      match if c = '<' then Text.find? '>' (c :: cs) else none with
      | some close => (r.forward (close + 1)).step?
      | none => some (.revealed c, r.forward c.utf8Size)
termination_by r.total.utf8ByteSize - r.cursor
decreasing_by
  have := cursor_lt _cut _ahead
  simp only [forward]
  omega

end Reel
end Parley
