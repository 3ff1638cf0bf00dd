import Parley.Proofs.Session.Allowance
import Parley.Proofs.Session.Planning

/-! When tasks are handled. Each has the clock moved to its own due time, so that what follows it is
planned from there; but the tick that stops at its cap sets the clock past the task that it leaves,
and this one is handled late, with all that follows it. -/
namespace Parley

namespace Session

variable {s : Session}

/-- A task is taken out, and the clock moved on to its due time. -/
def taking (s : Session) (task : Task) : Session :=
  { s with timetable := (s.timetable.settle task.due).cancel task.kind }

/-- A tick handles a task, behind a number of others, in a session as it is at that moment. -/
structure Handles (s : Session) (dt : Duration) (others : Nat) (task : Task) (moment : Session) :
    Prop where
  within : others < max 1 s.pacing.maxTasksPerTick
  next : (s.runDue others (s.timetable.now + dt)).timetable.next? (s.timetable.now + dt) = some task
  moment : moment = (s.runDue others (s.timetable.now + dt)).taking task

/-- In a run some tick stopped at its cap, and the timetable is still the one it left. -/
def StandsSinceCap (s : Session) (ops : List Operation) : Prop :=
  ∃ before dt later, ops = before ++ .tick dt :: later ∧
    ((s.after before).handled dt).length = max 1 (s.after before).pacing.maxTasksPerTick ∧
    (s.after ops).timetable = ((s.after before).tick dt).timetable

theorem turns_getElem? {budget k : Nat} (within : k < budget) (limit : Duration) (s : Session) :
    (s.turns budget limit)[k]? = ((s.runDue k limit).timetable.next? limit).map Task.kind := by
  induction budget generalizing s k with
  | zero => exact absurd within (Nat.not_lt_zero k)
  | succ budget ih =>
    cases taken : s.timetable.take? limit with
    | none =>
      rw [runDue_of_none taken, Timetable.take?_eq_none_iff.mp taken, turns, taken]
      rfl
    | some taking =>
      obtain ⟨kind, rest⟩ := taking
      rw [turns, taken]
      cases k with
      | zero =>
        obtain ⟨due, found, -⟩ := Timetable.take?_eq_some taken
        rw [runDue, found]
        rfl
      | succ k =>
        rw [runDue_succ taken]
        exact ih (Nat.lt_of_succ_lt_succ within) _

/-- What a tick handles is what it runs, in the same order. -/
theorem handled_getElem?_iff : (s.handled dt)[k]? = some kind ↔
    ∃ task moment, s.Handles dt k task moment ∧ task.kind = kind := by
  by_cases within : k < max 1 s.pacing.maxTasksPerTick
  · rw [handled, turns_getElem? within, Option.map_eq_some_iff]
    constructor
    · rintro ⟨task, found, same⟩
      exact ⟨task, _, ⟨within, found, rfl⟩, same⟩
    · rintro ⟨task, moment, handles, same⟩
      exact ⟨task, handles.next, same⟩
  · have few : (s.handled dt).length ≤ k :=
      Nat.le_trans (length_turns_le _ _ s) (Nat.le_of_not_lt within)
    rw [List.getElem?_eq_none few]
    constructor
    · exact nofun
    · rintro ⟨task, moment, handles, -⟩
      exact absurd handles.within within

/-- Behind the first turn, all that is planned was planned in the last one. -/
theorem planned_runDue (here : Situation .resting s)
    (taken : s.timetable.take? limit = some (kind, rest)) (budget : Nat) :
    ∃ clock, (s.runDue (budget + 1) limit).PlannedAt clock := by
  induction budget generalizing s kind rest with
  | zero =>
    rw [runDue_succ taken]
    exact ⟨_, planned_runTask (tasks_of_take? here taken) kind⟩
  | succ budget ih =>
    obtain ⟨es, course⟩ := runTask_course here taken
    rw [runDue_succ taken]
    cases further : ({ s with timetable := rest }.runTask kind).timetable.take? limit with
    | none =>
      rw [runDue_of_none further]
      exact ⟨_, planned_runTask (tasks_of_take? here taken) kind⟩
    | some taking => exact ih (course.situation here) further

theorem situation_runDue (here : Situation .resting s) (budget : Nat) (limit : Duration) :
    Situation .resting (s.runDue budget limit) := by
  obtain ⟨es, course⟩ := runDue_course here budget limit
  exact course.situation here

/-- What was planned just now is not overdue. -/
theorem PlannedAt.now_le (planned : s.PlannedAt clock) (listed : task ∈ s.timetable.tasks) :
    s.timetable.now ≤ task.due := by
  rw [planned.now, planned.due task listed]
  exact Duration.le_add_right clock _

theorem now_taking (early : s.timetable.now ≤ task.due) :
    (s.taking task).timetable.now = task.due :=
  Duration.max_eq_right early

theorem now_tick (s : Session) (dt : Duration) : (s.tick dt).timetable.now = s.timetable.now + dt :=
  Duration.max_eq_right ((turns_runDue _ _ s).early (Duration.le_add_right _ dt))

/-- Only the first task of a tick is ever overdue, and it has been so since before the tick. -/
theorem Handles.clock (handles : s.Handles dt k task u) (here : Situation .resting s) :
    u.timetable.now = task.due ∨ k = 0 ∧ task ∈ s.timetable.tasks ∧
      task.due < s.timetable.now ∧ u.timetable.now = s.timetable.now := by
  obtain ⟨within, found, rfl⟩ := handles
  have listed := (Timetable.mem_of_next? found).1
  cases k with
  | zero =>
    by_cases early : s.timetable.now ≤ task.due
    · exact .inl (now_taking early)
    · refine .inr ⟨rfl, listed, Nat.lt_of_not_le early, ?_⟩
      exact if_neg early
  | succ k =>
    cases taken : s.timetable.take? (s.timetable.now + dt) with
    | none =>
      rw [runDue_of_none taken, Timetable.take?_eq_none_iff.mp taken] at found
      cases found
    | some taking =>
      obtain ⟨clock, planned⟩ := planned_runDue here taken k
      exact .inl (now_taking (planned.now_le listed))

theorem Handles.planned (handles : s.Handles dt k task u) (here : Situation .resting s) :
    (u.runTask task.kind).PlannedAt u.timetable.now := by
  obtain ⟨within, found, rfl⟩ := handles
  have taken := Timetable.take?_of_next? found
  exact planned_runTask (tasks_of_take? (situation_runDue here _ _) taken) task.kind

/-- An overdue task has been so from the beginning of a run, or has been left by a capped tick. -/
theorem after_overdue (here : Situation .resting s) (ops : List Operation)
    (listed : task ∈ (s.after ops).timetable.tasks)
    (late : task.due < (s.after ops).timetable.now) :
    (s.after ops).timetable = s.timetable ∨ s.StandsSinceCap ops := by
  induction ops generalizing s with
  | nil => exact .inl rfl
  | cons op ops ih =>
    rw [after_cons] at listed late ⊢
    rcases ih (perform_situation here op) listed late with same |
      ⟨before, dt, later, rfl, capped, stands⟩
    · rw [same] at listed late ⊢
      by_cases timeless : ∀ dt, op ≠ .tick dt
      · rcases perform_plans here op timeless with untouched | planned
        · exact .inl untouched
        · exact absurd (planned.now_le listed) (Nat.not_le_of_lt late)
      · obtain ⟨dt, tick⟩ := Classical.not_forall.mp timeless
        cases Decidable.of_not_not tick
        refine .inr ⟨[], dt, ops, rfl, ?_, same⟩
        -- A tick that had budget left would have handled the task.
        refine Nat.le_antisymm (length_turns_le _ _ s) (Nat.le_of_not_lt fun few => ?_)
        have idle := Timetable.next?_eq_none_iff.mp (idle_of_turns_lt few) task listed
        rw [show (s.perform (.tick dt)).2 = s.tick dt from rfl, now_tick] at late
        exact idle (Nat.le_of_lt late)
    · exact .inr ⟨op :: before, dt, later, rfl, capped, stands⟩

end Session

/-- In every run, what an operation other than a tick plans is due its wait from where the clock
stands. For each task that it handles, a tick moves the clock to its due time; unless the task is
the first of the tick and overdue already, left by a tick that stopped at its cap: then the clock
stays where it is. What the task plans is due its wait from where the clock then stands. -/
theorem handled_on_time (graph : Graph) (pacing : Pacing) (ops : List Operation) :
    let first := Session.ofGraph graph pacing
    let s := first.after ops
    (∀ op, (∀ dt, op ≠ .tick dt) →
      (s.perform op).2.timetable = s.timetable ∨ (s.perform op).2.PlannedAt s.timetable.now) ∧
    (∀ dt k kind, (s.handled dt)[k]? = some kind ↔
      ∃ task u, s.Handles dt k task u ∧ task.kind = kind) ∧
    ∀ dt k task u, s.Handles dt k task u →
      (u.timetable.now = task.due ∨
        k = 0 ∧ task.due < s.timetable.now ∧ u.timetable.now = s.timetable.now ∧
          first.StandsSinceCap ops) ∧
      (u.runTask task.kind).PlannedAt u.timetable.now := by
  intro first s
  have here := situation_after graph pacing ops
  refine ⟨Session.perform_plans here, fun _ _ _ => Session.handled_getElem?_iff, ?_⟩
  intro dt k task u handles
  refine ⟨?_, handles.planned here⟩
  rcases handles.clock here with onTime | ⟨none, listed, late, stays⟩
  · exact .inl onTime
  · refine .inr ⟨none, late, stays, ?_⟩
    rcases Session.after_overdue (situation_ofGraph graph pacing) ops listed late with same | capped
    · rw [same] at listed
      cases listed
    · exact capped

/-- A word to be typed under a cap of one task. -/
def hail : Dialogue := { (default : Dialogue) with id := "hail", text := "Hello" }

/-- The second character is due 20 ms after the first one, but is handled when the clock has already
been set to the end of the first tick, and so the third one is due almost a second late. -/
theorem hail_drifts :
    let s := (Session.ofGraph (.ofNodes (some "hail") [.dialogue hail])
      { (default : Pacing) with maxTasksPerTick := 1 }).after [.start, .tick (.ofMillis 1000)]
    let u := s.taking ⟨.reveal, .ofMillis 20⟩
    s.Handles .zero 0 ⟨.reveal, .ofMillis 20⟩ u ∧ u.timetable.now = .ofMillis 1000 ∧
      (u.runTask .reveal).timetable.tasks = [⟨.reveal, .ofMillis 1020⟩] := by
  intro s u
  have next : s.timetable.next? (s.timetable.now + .zero) = some ⟨.reveal, .ofMillis 20⟩ := by
    decide +kernel
  refine ⟨⟨by decide +kernel, next, rfl⟩, by decide +kernel, by decide +kernel⟩

end Parley
