import Parley.Console.Outcome
import Parley.Graph.Lint
import Parley.Session.Build

/-! The linter: it checks one graph file, or every file with the extension `ron` below a folder.
Files that hold no graph are reported and passed over. -/
namespace Parley.Console.Linter

def usage : String := "Usage: graph_linter <graph.ron | graph_dir> [--strict]"

/-- Whether a file name has the extension `ron`; a point in front starts no extension. -/
def isGraphName (name : String) : Bool :=
  let behind := name.toList.reverse.takeWhile (· ≠ '.')
  behind.length + 1 < name.length && behind == "ron".toList.reverse

/-- The path of a file below a folder that was itself given by a path. -/
def joinPath (folder : String) (names : Place) : String :=
  folder ++ (if folder.endsWith "/" then "" else "/") ++ "/".intercalate names

/-- Whether a path may stand before another one; they are compared name by name. -/
def inOrder (a b : String) : Bool :=
  !(Disk.names b).lex (Disk.names a) fun x y => decide (x < y)

/-- The graph files among some paths, name by name in increasing order. -/
def graphFiles (paths : List String) : List String :=
  (paths.filter fun path => isGraphName ((Disk.names path).getLastD "")).mergeSort inOrder

/-- The paths to check, if there is anything at the target. -/
def targets? (disk : Disk) (target : String) : Option (List String) :=
  match disk.find target with
  | .ok (.file _) => some [target]
  | .ok (.folder place) => some (graphFiles ((disk.below place).map (joinPath target)))
  | .error _ => none

/-- The report on one file, and how many errors and warnings it counts for. -/
structure Report where
  lines : List String
  errors : Nat
  warnings : Nat

def reportOn (path : String) (g : Graph) : Report :=
  let issues := g.lint
  let errors := issues.filter Issue.isError
  let warnings := issues.filter fun i => !i.isError
  { lines :=
      ["", s!"=== {path} ({g.size} nodes) ==="] ++
        (if issues.isEmpty then ["All checks passed!"] else []) ++
        (warnings.map fun i => s!"WARNING: {i.message}") ++
        errors.map fun i => s!"ERROR: {i.message}"
    errors := errors.length
    warnings := warnings.length }

def check (read : FileReader) (path : String) : Report :=
  match read.load Graph.parse path with
  | .error fault => ⟨[s!"SKIP: {path}: {fault.message}"], 0, 0⟩
  | .ok g => reportOn path g

/-- Errors fail the run, and so do warnings if it is strict. -/
def conclude (strict : Bool) (reports : List Report) : Outcome :=
  let errors := reports.foldr (fun r n => r.errors + n) 0
  let warnings := reports.foldr (fun r n => r.warnings + n) 0
  let summary := s!"Summary: {reports.length} files, {errors} errors, {warnings} warnings"
  { exitCode := if 0 < errors ∨ (strict ∧ 0 < warnings) then 1 else 0
    stdout := lines (reports.flatMap Report.lines ++ ["", summary])
    stderr := "" }

/-- The outcome of checking some files. -/
def checkAll (read : FileReader) (strict : Bool) (paths : List String) : Outcome :=
  conclude strict (paths.map (check read))

def nothingAt (target : String) : Outcome := .failure s!"ERROR: Path '{target}' does not exist"

/-- What the arguments ask for: a target, and whether to be strict. -/
def request (args : List String) : Except Outcome (String × Bool) :=
  match args with
  | [] => .error (.success [usage])
  | target :: options =>
    if target = "--help" ∨ target = "-h" then .error (.success [usage])
    else .ok (target, options.contains "--strict")

def run (disk : Disk) (args : List String) : Outcome :=
  match request args with
  | .error outcome => outcome
  | .ok (target, strict) =>
    match targets? disk target with
    | none => nothingAt target
    | some paths => checkAll disk.reader strict paths

end Parley.Console.Linter
