import Parley.Console.Linter
import Parley.Console.NorthGateShow
import Parley.Console.Preview
import Parley.Console.TavernShow

/-! The command line: `preview`, `lint`, and the two shows `tavern` and `gate`. For a folder, the
linter takes the paths of the files below it from standard input, one a line. -/
namespace Parley.Main

open Console

def finish (outcome : Outcome) : IO UInt32 := do
  IO.print outcome.stdout
  IO.eprint outcome.stderr
  return outcome.exitCode.toUInt32

/-- The code for what is no folder comes with either sign. A name that is too long counts as an
invalid argument. -/
def obstacle : IO.Error → Obstacle
  | .inappropriateType _ code _ => if code = 20 ∨ code = -20 then .notFolder else .isFolder
  | .invalidArgument .. => .nameTooLong
  | _ => .missing

def readNow (path : String) : IO (Except Obstacle String) := do
  try
    return Disk.decode (← IO.FS.readBinFile path)
  catch e => return .error (obstacle e)

/-- A reader of files that have all been read before. -/
def readerOf (paths : List String) : IO FileReader := do
  let texts ← paths.mapM fun path => do return (path, ← readNow path)
  return fun path => (texts.lookup path).getD (.error .missing)

partial def talk (s : Session) : IO Unit := do
  IO.print Preview.prompt
  (← IO.getStdout).flush
  let line ← (← IO.getStdin).getLine
  if line.isEmpty then return
  let turn := Preview.execute s (.ofLine line)
  IO.print (lines turn.lines)
  match turn.next with
  | some next => talk next
  | none => return

def preview (args : List String) : IO UInt32 := do
  match Preview.plan args with
  | .error outcome => finish outcome
  | .ok b =>
    let read ← readerOf (b.graphFile.toList ++ b.pacingFile.toList)
    match Preview.openSession read b with
    | .error outcome => finish outcome
    | .ok s =>
      IO.print (lines (Preview.greeting s))
      talk s
      return 0

partial def readLines : IO (List String) := do
  let line ← (← IO.getStdin).getLine
  if line.isEmpty then return []
  return Preview.inputLines line ++ (← readLines)

def lint (args : List String) : IO UInt32 := do
  match Linter.request args with
  | .error outcome => finish outcome
  | .ok (target, strict) =>
    match ← readNow target with
    | .ok _ | .error .notText => finish (Linter.checkAll (← readerOf [target]) strict [target])
    | .error .isFolder =>
      let paths := Linter.graphFiles (← readLines)
      finish (Linter.checkAll (← readerOf paths) strict paths)
    | .error _ => finish (Linter.nothingAt target)

def usage : String := "Usage: parley <preview | lint | tavern | gate> [arguments]"

end Parley.Main

def main (args : List String) : IO UInt32 :=
  match args with
  | "preview" :: rest => Parley.Main.preview rest
  | "lint" :: rest => Parley.Main.lint rest
  | ["tavern"] => Parley.Main.finish Parley.Console.TavernShow.run
  | ["gate"] => Parley.Main.finish Parley.Console.NorthGateShow.run
  | _ => Parley.Main.finish ⟨1, "", Parley.Console.lines [Parley.Main.usage]⟩
