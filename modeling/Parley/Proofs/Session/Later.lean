import Parley.Proofs.Session.Retelling

/-! The same session at a later time. Where no time is cut off at the end of the range, it does the
same things, each as much later. -/
namespace Parley

namespace Duration

/-- The sum with a span is within the range, so that it is not cut off. -/
def Fits (time span : Duration) : Prop := time.nanos + span.nanos ≤ longestNanos

instance (time span : Duration) : Decidable (time.Fits span) :=
  inferInstanceAs (Decidable (_ ≤ _))

variable {time limit span : Duration}

theorem fits_zero (time : Duration) : time.Fits zero := time.nanos_le

theorem fits_sub (early : time ≤ limit) : time.Fits (limit - time) := by
  have less : time.nanos ≤ limit.nanos := early
  have cut := limit.nanos_le
  unfold Fits
  rw [nanos_sub]
  omega

theorem Fits.mono (fits : limit.Fits span) (early : time ≤ limit) : time.Fits span :=
  Nat.le_trans (Nat.add_le_add_right early _) fits

theorem Fits.nanos_add (fits : time.Fits span) : (time + span).nanos = time.nanos + span.nanos :=
  Nat.min_eq_left fits

theorem Fits.add_le_add_iff (fits : time.Fits span) (fits' : limit.Fits span) :
    time + span ≤ limit + span ↔ time ≤ limit := by
  show (time + span).nanos ≤ (limit + span).nanos ↔ time.nanos ≤ limit.nanos
  rw [fits.nanos_add, fits'.nanos_add]
  omega

theorem Fits.add_sub_add (fits : time.Fits span) (ahead : (time + span).Fits (limit - time)) :
    limit + span - (time + span) = limit - time := by
  unfold Fits at ahead
  rw [fits.nanos_add, nanos_sub] at ahead
  apply ext
  rw [nanos_sub, nanos_sub, fits.nanos_add, Duration.nanos_add]
  omega

theorem Fits.ahead (fits : time.Fits span) (fits' : limit.Fits span) :
    (time + span).Fits (limit - time) := by
  unfold Fits at *
  rw [nanos_sub, Duration.nanos_add]
  omega

theorem max_add (a b span : Duration) : max (a + span) (b + span) = max a b + span := by
  apply ext
  simp only [nanos_max, nanos_add]
  omega

end Duration

namespace Timetable

/-- Neither the clock nor a due time is cut off if all are later by a span. -/
structure Fits (t : Timetable) (span : Duration) : Prop where
  now : t.now.Fits span
  due : ∀ task ∈ t.tasks, task.due.Fits span

instance (t : Timetable) (span : Duration) : Decidable (t.Fits span) :=
  decidable_of_iff (t.now.Fits span ∧ ∀ task ∈ t.tasks, task.due.Fits span)
    ⟨fun fits => ⟨fits.1, fits.2⟩, fun fits => ⟨fits.now, fits.due⟩⟩

variable {t : Timetable} {span : Duration}

theorem fits_zero (t : Timetable) : t.Fits .zero :=
  ⟨Duration.fits_zero _, fun _ _ => Duration.fits_zero _⟩

theorem find?_retime (t : Timetable) (clock : Duration → Duration) (kind : TaskKind) :
    (t.retime clock).find? kind = (t.find? kind).map fun a => ⟨a.kind, clock a.due⟩ := by
  simp only [retime, find?, List.find?_map]
  rfl

theorem remaining?_retime (now : t.now.Fits span) (ahead : t.remaining? kind = some rest)
    (fits : (t.now + span).Fits rest) : (t.retime (· + span)).remaining? kind = some rest := by
  obtain ⟨a, planned, rfl⟩ := Option.map_eq_some_iff.mp ahead
  unfold remaining?
  rw [find?_retime, planned, Option.map_some, Option.map_some]
  exact congrArg some (now.add_sub_add fits)

theorem Fits.remaining? (fits : t.Fits span) (kind : TaskKind) :
    (t.retime (· + span)).remaining? kind = t.remaining? kind := by
  cases planned : t.find? kind with
  | none => simp only [Timetable.remaining?, find?_retime, planned, Option.map_none]
  | some a =>
    have ahead : t.remaining? kind = some (a.due - t.now) := by
      rw [Timetable.remaining?, planned, Option.map_some]
    have due := fits.due a (List.mem_of_find?_eq_some planned)
    rw [remaining?_retime fits.now ahead (fits.now.ahead due), ahead]

theorem retime_zero (t : Timetable) : t.retime (· + .zero) = t := by
  simp [retime]

theorem retime_settle (t : Timetable) (time span : Duration) :
    (t.retime (· + span)).settle (time + span) = (t.settle time).retime (· + span) := by
  simp only [retime, settle, Duration.max_add]

/-- The one task that is planned falls due in the one timetable when it does in the other. -/
theorem retime_take? (single : t.tasks = [a]) (early : a.due.Fits span)
    (fits : limit.Fits span) :
    (t.retime (· + span)).take? (limit + span) =
      (t.take? limit).map fun taken => (taken.1, taken.2.retime (· + span)) := by
  have moved : (t.retime (· + span)).tasks = [⟨a.kind, a.due + span⟩] := by
    simp only [retime, single, List.map_cons, List.map_nil]
  rw [take?_of_single single, take?_of_single moved]
  by_cases due : a.due ≤ limit
  · have later : a.due + span ≤ limit + span := (early.add_le_add_iff fits).mpr due
    rw [if_pos due, if_pos later]
    simp only [Option.map_some, retime, List.map_nil, Duration.max_add]
  · have later : ¬a.due + span ≤ limit + span := fun le => due ((early.add_le_add_iff fits).mp le)
    rw [if_neg due, if_neg later, Option.map_none]

end Timetable

namespace Retelling

/-- All times are later by a span. -/
def later (span : Duration) (earlier : Array Event) : Retelling where
  toRewording := .unchanged
  pacing := id
  clock time := time + span
  wait := id
  speed := id
  earlier := earlier
  awaits _ := rfl
  clicks _ := rfl
  keeps _ := rfl
  frame_eq _ _ := rfl
  before_eq _ _ := rfl
  after_eq _ _ := rfl
  clock_add now after := Duration.add_right_comm now after span
  wait_zero := rfl
  wait_seconds _ := rfl
  delay_eq _ _ := rfl
  speed_eq _ _ _ := rfl
  base_eq _ := rfl
  fast_eq _ := rfl
  auto_eq _ := rfl

variable {span : Duration} {s : Session} (earlier : Array Event)

theorem later_runDue (here : Situation .resting s) (within : limit.Fits span) (budget : Nat)
    (fits : (s.runDue budget limit).timetable.Fits span) :
    ((later span earlier).session s).runDue budget (limit + span) =
      (later span earlier).session (s.runDue budget limit) := by
  induction budget generalizing s with
  | zero => rfl
  | succ budget ih =>
    have taking : ((later span earlier).session s).timetable.take? (limit + span) =
        (s.timetable.take? limit).map fun taken => (taken.1, taken.2.retime (· + span)) := by
      rcases here.planned with none | ⟨task, single⟩
      · have moved : (s.timetable.retime (· + span)).tasks = [] := by
          rw [Timetable.retime, none, List.map_nil]
        rw [Timetable.take?_of_nil none, Option.map_none]
        exact Timetable.take?_of_nil moved _
      · refine Timetable.retime_take? single ?_ within
        -- A task that does not fall due is still planned at the end, where all times fit.
        by_cases due : task.due ≤ limit
        · exact within.mono due
        · have idle : s.timetable.take? limit = none :=
            (Timetable.take?_of_single single limit).trans (if_neg due)
          rw [Session.runDue_of_none idle] at fits
          exact fits.due task (by simp [single])
    cases taken : s.timetable.take? limit with
    | none =>
      rw [taken, Option.map_none] at taking
      rw [Session.runDue_of_none taken, Session.runDue_of_none taking]
    | some next =>
      obtain ⟨kind, rest⟩ := next
      obtain ⟨es, course⟩ := Session.runTask_course here taken
      have ran := (later span earlier).session_runTask { s with timetable := rest } kind
      rw [taken, Option.map_some] at taking
      rw [Session.runDue_succ taken] at fits ⊢
      rw [Session.runDue_succ taking, ← ih (course.situation here) fits, ← ran]
      rfl

theorem later_settle (time : Duration) :
    { (later span earlier).session s with
      timetable := ((later span earlier).session s).timetable.settle (time + span) } =
      (later span earlier).session { s with timetable := s.timetable.settle time } := by
  have settled := Timetable.retime_settle s.timetable time span
  simp only [session, later, settled]

theorem later_tick (here : Situation .resting s) (dt : Duration)
    (fits : (s.tick dt).timetable.Fits span) :
    ((later span earlier).session s).tick dt = (later span earlier).session (s.tick dt) := by
  have limit : s.timetable.now + span + dt = s.timetable.now + dt + span :=
    Duration.add_right_comm _ span dt
  have within : (s.timetable.now + dt).Fits span := fits.now.mono (Duration.le_max_right _ _)
  have ran := later_runDue earlier here within (max 1 s.pacing.maxTasksPerTick)
    ⟨fits.now.mono (Duration.le_max_left _ _), fits.due⟩
  have settled := @later_settle span (s.runDue (max 1 s.pacing.maxTasksPerTick)
    (s.timetable.now + dt)) earlier (s.timetable.now + dt)
  rw [← ran, ← limit] at settled
  exact settled

theorem later_perform (here : Situation .resting s) (keeps : op.fetches = false)
    (fits : (s.perform op).2.timetable.Fits span) :
    ((later span earlier).session s).perform op =
      ((s.perform op).1, (later span earlier).session (s.perform op).2) := by
  cases op with
  | tick dt => exact congrArg (Prod.mk Reply.done) (later_tick earlier here dt fits)
  | poll | drain => cases keeps
  | _ => exact (later span earlier).session_perform s rfl rfl

end Retelling

namespace Session

/-- The session later by a span, and with other events to be fetched. -/
def moved (s : Session) (span : Duration) (events : Array Event) : Session :=
  { s with timetable := s.timetable.retime (· + span), events := events }

theorem later_session (s : Session) (span : Duration) (earlier : Array Event) :
    (Retelling.later span earlier).session s = s.moved span (earlier ++ s.events) := by
  have graph : (Retelling.later span earlier).graph s.graph = s.graph :=
    Rewording.unchanged_graph s.graph
  rw [Retelling.session, graph]
  rfl

def quiet (s : Session) : Session := { s with events := #[] }

theorem later_quiet (s : Session) (span : Duration) (events : Array Event) :
    (Retelling.later span events).session s.quiet = s.moved span events := by
  rw [later_session, quiet, moved, Array.append_empty]
  rfl

theorem moved_zero (s : Session) : s.moved .zero s.events = s := by
  rw [moved, Timetable.retime_zero]

section Told

variable {f : Session → Session}
    (told : ∀ (r : Retelling) (s : Session), f (r.session s) = r.session (f s))

include told

/-- What is done alike in every telling is done whatever events came before: it only appends to
them. -/
theorem appends_of_told (s : Session) : (f s).events = s.events ++ (f s.quiet).events := by
  have whole := told (.later .zero s.events) s.quiet
  rw [later_quiet, moved_zero, later_session] at whole
  rw [whole]
  rfl

theorem moved_of_told (s : Session) (span : Duration) (events : Array Event) :
    f (s.moved span events) = (f s).moved span (events ++ (f s.quiet).events) := by
  have before := told (.later .zero s.events) s.quiet
  have after := told (.later span events) s.quiet
  rw [later_quiet, moved_zero, later_session, moved, Timetable.retime_zero] at before
  rw [later_quiet, later_session] at after
  rw [after, before]
  rfl

end Told

theorem perform_moved {s : Session} (here : Situation .resting s) (keeps : op.fetches = false)
    (fits : (s.perform op).2.timetable.Fits span) (events : Array Event) :
    ∃ new, (s.perform op).2.events = s.events ++ new ∧
      (s.moved span events).perform op =
        ((s.perform op).1, (s.perform op).2.moved span (events ++ new)) := by
  -- Both sessions are later tellings of the one before any event.
  have resting : Situation .resting s.quiet :=
    here.carry rfl rfl rfl rfl rfl rfl fun _ _ _ _ waits => waits
  have played := Retelling.later_perform s.events resting keeps (Timetable.fits_zero _)
  rw [later_quiet, moved_zero, later_session, moved, Timetable.retime_zero] at played
  rw [played] at fits
  have replayed := Retelling.later_perform events resting keeps fits
  rw [later_quiet, later_session] at replayed
  refine ⟨(s.quiet.perform op).2.events, ?_, ?_⟩
  · rw [played]
  · rw [replayed, played]
    rfl

end Session
end Parley
