import Parley.Proofs.Session.Later
import Parley.Story.Tavern

/-! Starting over leaves nothing behind but the clock: a session that is started again plays as a
new one does, only later. -/
namespace Parley

/-- What an answer says, apart from the events that it hands over. -/
def Reply.verdict : Reply → Option Bool
  | .accepted yes => some yes
  | _ => none

namespace Session

/-- All through a run, neither the clock nor a due time is cut off if all are later by a span. -/
def FitsThrough (span : Duration) (s : Session) : List Operation → Prop
  | [] => s.timetable.Fits span
  | op :: ops => s.timetable.Fits span ∧ (s.perform op).2.FitsThrough span ops

instance decidableFitsThrough (span : Duration) (s : Session) :
    (ops : List Operation) → Decidable (s.FitsThrough span ops)
  | [] => inferInstanceAs (Decidable (s.timetable.Fits span))
  | op :: ops =>
    have := decidableFitsThrough span (s.perform op).2 ops
    inferInstanceAs (Decidable (_ ∧ _))

/-- Sessions that differ in the clock and in the events to be fetched, and in nothing else: what is
pending in one is pending in the other, and as far ahead. -/
structure SameButClock (s t : Session) : Prop where
  same : t = { s with timetable := t.timetable, events := t.events }
  kinds : t.timetable.tasks.map Task.kind = s.timetable.tasks.map Task.kind
  remaining : ∀ kind, t.timetable.remaining? kind = s.timetable.remaining? kind

/-- Under these operations the second session does what the first one does. -/
structure PlaysAlike (s t : Session) (ops : List Operation) : Prop where
  verdicts : (t.performAll ops).1.map Reply.verdict = (s.performAll ops).1.map Reply.verdict
  /-- Fetching hands over the same events, unless older ones come first. -/
  replies : t.events = s.events → (t.performAll ops).1 = (s.performAll ops).1
  story : ∃ es, s.stream ops = s.events.toList ++ es ∧ t.stream ops = t.events.toList ++ es
  ends : (s.after ops).SameButClock (t.after ops)

theorem FitsThrough.starts {s : Session} (through : s.FitsThrough span ops) :
    s.timetable.Fits span := by
  cases ops with
  | nil => exact through
  | cons op ops => exact through.1

theorem sameButClock_moved {s : Session} (fits : s.timetable.Fits span) (events : Array Event) :
    s.SameButClock (s.moved span events) where
  same := rfl
  kinds := by simp only [moved, Timetable.retime, List.map_map, Function.comp_def]
  remaining := fits.remaining?

/-- One operation at a later time, with other events to be fetched: its answer, the events that it
leaves, and the events that it adds. -/
theorem perform_later {s : Session} (here : Situation .resting s) (op : Operation)
    (fits : (s.perform op).2.timetable.Fits span) (events : Array Event) :
    ∃ answer rest new,
      (s.moved span events).perform op = (answer, (s.perform op).2.moved span rest) ∧
      answer.verdict = (s.perform op).1.verdict ∧
      (events = s.events → answer = (s.perform op).1 ∧ rest = (s.perform op).2.events) ∧
      (s.perform op).1.fetched ++ (s.perform op).2.events.toList = s.events.toList ++ new ∧
      answer.fetched ++ Array.toList rest = events.toList ++ new := by
  cases fetches : op.fetches with
  | false =>
    obtain ⟨new, appended, moves⟩ := perform_moved here fetches fits events
    have silent := fetched_of_keeps s fetches
    refine ⟨_, _, new.toList, moves, rfl, fun same => ⟨rfl, ?_⟩, ?_, ?_⟩
    · rw [appended, same]
    · rw [silent, appended, List.nil_append, Array.toList_append]
    · rw [silent, List.nil_append, Array.toList_append]
  | true =>
    obtain ⟨got, rest, whole, fetch⟩ := perform_fetch s fetches
    obtain ⟨got', rest', whole', fetch'⟩ := perform_fetch (s.moved span events) fetches
    have stays := fetch s rfl
    have moves := fetch' _ rfl
    rw [stays]
    refine ⟨_, rest', [], moves, rfl, fun same => ?_, ?_, ?_⟩
    · obtain ⟨answers, left⟩ := Prod.mk.inj (moves.symm.trans (fetch _ same))
      exact ⟨answers, congrArg Session.events left⟩
    · rw [List.append_nil]
      exact whole
    · rw [List.append_nil]
      exact whole'

theorem playsAlike_moved {s : Session} (here : Situation .resting s)
    (through : s.FitsThrough span ops) (events : Array Event) :
    s.PlaysAlike (s.moved span events) ops := by
  induction ops generalizing s events with
  | nil =>
    exact {
      verdicts := rfl
      replies := fun _ => rfl
      story := ⟨[], (List.append_nil _).symm, (List.append_nil _).symm⟩
      ends := sameButClock_moved through events }
  | cons op ops ih =>
    obtain ⟨answer, rest, new, moves, verdict, together, stays, added⟩ :=
      perform_later here op through.2.starts events
    have later := ih (perform_situation here op) through.2 rest
    have begins (t : Session) : (t.performAll (op :: ops)).1 =
        (t.perform op).1 :: ((t.perform op).2.performAll ops).1 := rfl
    exact {
      verdicts := by
        rw [begins, begins, moves, List.map_cons, List.map_cons, verdict, later.verdicts]
      replies := fun same => by
        obtain ⟨answers, left⟩ := together same
        rw [begins, begins, moves, answers, later.replies left]
      story := by
        obtain ⟨es, told, retold⟩ := later.story
        refine ⟨new ++ es, ?_, ?_⟩
        · rw [stream_cons, told, ← List.append_assoc, stays, List.append_assoc]
        · rw [stream_cons, moves, retold, ← List.append_assoc, ← List.append_assoc]
          exact congrArg (· ++ es) added
      ends := by
        rw [after_cons, after_cons, moves]
        exact later.ends }

/-- A start looks at nothing but the graph, the pacing and the clock. -/
theorem start_congr {s t : Session} (graph : t.graph = s.graph) (pacing : t.pacing = s.pacing)
    (now : t.timetable.now = s.timetable.now) (events : t.events = s.events) :
    t.start = s.start := by
  have begun : t.begun = s.begun := by
    simp only [begun, leaveNode, reset, cue, emit, Timetable.cancelAll, graph, pacing, now, events]
    rfl
  show t.begun.land (t.begun.graph.travel t.begun.store t.begun.graph.entry) = s.start
  rw [begun]
  rfl

end Session

/-- A session that is started over does what a new session does, whatever happened before: it gives
the same answers, appends the same events, and stands where the new one stands. The times of the
new session, moved to the clock of the start, are the times of the other one; they must not be cut
off. -/
theorem restart_fresh {s : Session} (reached : s = (Session.ofGraph graph pacing).after past)
    (through : (Session.ofGraph graph pacing).start.FitsThrough s.timetable.now ops) :
    (Session.ofGraph graph pacing).PlaysAlike s (.start :: ops) := by
  obtain ⟨sameGraph, samePacing⟩ := fixed_after graph pacing past
  rw [← reached] at sameGraph samePacing
  let fresh := Session.ofGraph graph pacing
  have clock : ((Retelling.later s.timetable.now s.events).session fresh).timetable.now =
      s.timetable.now := Duration.zero_add _
  have start : s.start = fresh.start.moved s.timetable.now (s.events ++ fresh.start.events) := by
    rw [← Session.later_session, ← Retelling.session_start]
    refine Session.start_congr ?_ samePacing clock.symm (Array.append_empty).symm
    exact sameGraph.trans (Rewording.unchanged_graph graph).symm
  have resting : Situation .resting fresh.start :=
    Session.perform_situation (situation_ofGraph graph pacing) .start
  have later := Session.playsAlike_moved resting through (s.events ++ fresh.start.events)
  rw [← start] at later
  have waiting : s.start.events = s.events ++ fresh.start.events := by
    rw [start]
    rfl
  obtain ⟨es, told, retold⟩ := later.story
  exact {
    verdicts := congrArg (List.cons none) later.verdicts
    replies := fun same => by
      have none : s.start.events = fresh.start.events := by
        rw [waiting, show s.events = #[] from same, Array.empty_append]
      exact congrArg (List.cons Reply.done) (later.replies none)
    story := by
      refine ⟨fresh.start.events.toList ++ es, told, ?_⟩
      rw [waiting, Array.toList_append, List.append_assoc] at retold
      exact retold
    ends := later.ends }

namespace Story.Tavern

/-- A guest who bought an ale was held up while the keeper spoke, in a hurry and with gold that he
never had. -/
def heldUp : Session :=
  (Session.ofGraph graph default).after
    [.start, .write "gold" (.int 50), .tick (.ofMillis 530), .input .skip, .tick (.ofMillis 800),
      .input .skip, .input (.choose 0), .setFastForward true, .tick (.ofMillis 3), .poll,
      .input .interrupt]

/-- The greeting and the question are heard in part, and the guest is just looking. -/
def looksAround : List Operation :=
  [.tick (.ofMillis 530), .drain, .input .skip, .tick (.ofMillis 2), .input .skip,
    .input (.choose 1), .tick (.ofMillis 700)]

/-- The guest starts over: typing, skipping and choosing lead where they lead a new guest. -/
theorem restart_heldUp :
    heldUp.phase = .holding ∧
      (Session.ofGraph graph default).start.FitsThrough heldUp.timetable.now looksAround ∧
      (Session.ofGraph graph default).PlaysAlike heldUp (.start :: looksAround) := by
  have through :
      (Session.ofGraph graph default).start.FitsThrough heldUp.timetable.now looksAround := by
    decide +kernel
  exact ⟨by decide +kernel, through, restart_fresh rfl through⟩

end Story.Tavern
end Parley
