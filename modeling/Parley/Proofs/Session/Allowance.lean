import Parley.Proofs.Session.Ticking

/-! How much one tick does. It runs tasks in their turns, and looks at its cap only behind a task that
it has run: it runs no more of them than the cap says, but for a cap of zero, under which it runs one.
What it leaves of the tasks that are due it leaves for the sake of the cap alone. -/
namespace Parley

/-- Tasks that are run one after another, each of them the next that is due by a given time: which
they are, and where the last one leaves the session. -/
inductive Turns (limit : Duration) : Session → List TaskKind → Session → Prop
  | none : Turns limit s [] s
  | next (taken : s.timetable.take? limit = some (kind, rest))
      (later : Turns limit ({ s with timetable := rest }.runTask kind) kinds t) :
      Turns limit s (kind :: kinds) t

theorem Turns.early (turns : Turns limit s kinds t) (early : s.timetable.now ≤ limit) :
    t.timetable.now ≤ limit := by
  induction turns with
  | none => exact early
  | next taken later ih => exact ih (Session.steady_turn taken early).1

namespace Session

/-- The tasks that are run out of a budget, of those due by a given time. -/
def turns : Nat → Duration → Session → List TaskKind
  | 0, _, _ => []
  | budget + 1, limit, s =>
    match s.timetable.take? limit with
    | none => []
    | some (kind, timetable) =>
      kind :: turns budget limit ({ s with timetable := timetable }.runTask kind)

/-- The tasks that a tick handles. -/
def handled (s : Session) (dt : Duration) : List TaskKind :=
  s.turns (max 1 s.pacing.maxTasksPerTick) (s.timetable.now + dt)

/-- Running what is due out of a budget is running those tasks in their turns. -/
theorem turns_runDue (budget : Nat) (limit : Duration) (s : Session) :
    Turns limit s (s.turns budget limit) (s.runDue budget limit) := by
  induction budget generalizing s with
  | zero => exact .none
  | succ budget ih =>
    cases taken : s.timetable.take? limit with
    | none =>
      rw [runDue_of_none taken, turns, taken]
      exact .none
    | some taking =>
      obtain ⟨kind, rest⟩ := taking
      rw [runDue_succ taken, turns, taken]
      exact .next taken (ih _)

theorem length_turns_le (budget : Nat) (limit : Duration) (s : Session) :
    (s.turns budget limit).length ≤ budget := by
  induction budget generalizing s with
  | zero => exact Nat.le_refl 0
  | succ budget ih =>
    rw [turns]
    split
    case h_1 => exact Nat.zero_le _
    case h_2 => exact Nat.succ_le_succ (ih _)

/-- A budget that is not used up has met the end of what is due. -/
theorem idle_of_turns_lt {budget : Nat} {s : Session}
    (few : (s.turns budget limit).length < budget) :
    (s.runDue budget limit).timetable.next? limit = none := by
  induction budget generalizing s with
  | zero => exact absurd few (Nat.not_lt_zero _)
  | succ budget ih =>
    cases taken : s.timetable.take? limit with
    | none =>
      rw [runDue_of_none taken]
      exact Timetable.take?_eq_none_iff.mp taken
    | some taking =>
      obtain ⟨kind, rest⟩ := taking
      rw [turns, taken] at few
      rw [runDue_succ taken]
      exact ih (Nat.lt_of_succ_lt_succ few)

end Session

/-- A tick runs tasks in their turns, no more of them than its cap, or one if the cap is zero, and
sets the clock. Where it runs fewer than the cap, or none at all, nothing that is due by the new time
is left. -/
theorem tick_within_cap (s : Session) (dt : Duration) :
    let cap := s.pacing.maxTasksPerTick
    let limit := s.timetable.now + dt
    let ran := s.handled dt
    ∃ t, Turns limit s ran t ∧ s.tick dt = t.settled limit ∧ (s.tick dt).timetable.now = limit ∧
      (ran.length ≤ cap ∨ cap = 0 ∧ ran.length = 1) ∧
      (ran.length < cap ∨ ran = [] →
        ∀ a ∈ (s.tick dt).timetable.tasks, ¬a.due ≤ (s.tick dt).timetable.now) := by
  intro cap limit ran
  have turns : Turns limit s ran (s.runDue (max 1 cap) limit) := Session.turns_runDue _ _ s
  have few : ran.length ≤ max 1 cap := Session.length_turns_le _ _ s
  have now : (s.tick dt).timetable.now = limit :=
    Duration.max_eq_right (turns.early (Duration.le_add_right _ dt))
  refine ⟨_, turns, rfl, now, by omega, fun fewer => ?_⟩
  have unspent : ran.length < max 1 cap := by
    rcases fewer with fewer | none
    · omega
    · rw [none, List.length_nil]
      omega
  have idle := Session.idle_of_turns_lt unspent
  rw [now]
  exact Timetable.next?_eq_none_iff.mp idle

namespace Story.Tavern

/-- Under a cap of zero the greeting is set up all the same. -/
theorem zero_cap_runs_one :
    let s := (Session.ofGraph graph { (default : Pacing) with maxTasksPerTick := 0 }).after [.start]
    s.pacing.maxTasksPerTick = 0 ∧ s.handled (.ofMillis 500) = [.nodeDelay] := by
  decide +kernel

end Story.Tavern
end Parley
