import Parley.Duration

/-! Timed tasks, at most one of each kind, and the clock they run by. Tasks stand in the order of
their scheduling, so of several that fall due together the first to be scheduled comes first. The
clock moves only when a task is taken or the time is settled, and never back. -/
namespace Parley

inductive TaskKind
  /-- The wait before a dialogue node is shown. -/
  | nodeDelay
  /-- The wait between two characters. -/
  | reveal
  /-- The wait before a finished node is left by itself. -/
  | autoAdvance
deriving DecidableEq

structure Task where
  kind : TaskKind
  due : Duration
deriving DecidableEq

structure Timetable where
  now : Duration
  tasks : List Task

namespace Timetable

def empty : Timetable := ⟨.zero, []⟩

instance : Inhabited Timetable := ⟨empty⟩

def find? (t : Timetable) (kind : TaskKind) : Option Task := t.tasks.find? fun a => a.kind = kind

def isPending (t : Timetable) (kind : TaskKind) : Bool := (t.find? kind).isSome

def hasPending (t : Timetable) : Bool := !t.tasks.isEmpty

/-- The time until a task falls due, if there is one of the kind. -/
def remaining? (t : Timetable) (kind : TaskKind) : Option Duration :=
  (t.find? kind).map fun a => a.due - t.now

def cancel (t : Timetable) (kind : TaskKind) : Timetable :=
  { t with tasks := t.tasks.filter fun a => a.kind ≠ kind }

def cancelAll (t : Timetable) : Timetable := { t with tasks := [] }

/-- Plan a task from now on, instead of one of the same kind. -/
def schedule (t : Timetable) (kind : TaskKind) (after : Duration) : Timetable :=
  { t with tasks := (t.cancel kind).tasks ++ [⟨kind, t.now + after⟩] }

/-- The task with the least due time, the first one if there are several. -/
def earliest : List Task → Option Task
  | [] => none
  | a :: rest =>
    match earliest rest with
    | some b => if b.due < a.due then some b else some a
    | none => some a

/-- The task to run next among those due by a given time. -/
def next? (t : Timetable) (limit : Duration) : Option Task :=
  earliest (t.tasks.filter fun a => a.due ≤ limit)

/-- Take the next task due by a given time, and move the clock to its due time. -/
def take? (t : Timetable) (limit : Duration) : Option (TaskKind × Timetable) :=
  (t.next? limit).map fun a => (a.kind, { t.cancel a.kind with now := max t.now a.due })

/-- Move the clock on, once the tasks of a tick are done. -/
def settle (t : Timetable) (time : Duration) : Timetable := { t with now := max t.now time }

end Timetable
end Parley
