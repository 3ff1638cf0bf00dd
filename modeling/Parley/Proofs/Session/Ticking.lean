import Parley.Proofs.Session.Run
import Parley.Story.Tavern

/-! Time passes the same in one tick as in many: where a tick may run all tasks that fall due, it
does not matter where the time is cut. -/
namespace Parley

/-- Neither the clock nor the pacing moves. -/
structure Session.Steady (s t : Session) : Prop where
  now : t.timetable.now = s.timetable.now
  pacing : t.pacing = s.pacing

namespace Session

theorem Steady.trans {s t u : Session} (first : s.Steady t) (second : t.Steady u) : s.Steady u where
  now := second.now.trans first.now
  pacing := second.pacing.trans first.pacing

theorem Lands.steady {s t : Session} (lands : s.Lands t) : s.Steady t := by
  cases lands with
  | arrived found =>
    rw [arrived_eq]
    exact ⟨rfl, rfl⟩
  | _ => exact ⟨rfl, rfl⟩

theorem steady_goNext (s : Session) : s.Steady s.goNext := by
  have left : s.Steady s.departed := ⟨rfl, rfl⟩
  exact left.trans s.lands_goNext.steady

theorem steady_completeText (s : Session) : s.Steady s.completeText := by
  cases current : s.currentDialogue? with
  | none =>
    rw [completeText_of_none current]
    exact ⟨rfl, rfl⟩
  | some d =>
    have told : s.Steady (s.told d) := ⟨rfl, rfl⟩
    rcases completeText_cases current with stays | pauses | goes
    · rw [stays]
      exact told
    · rw [pauses]
      exact ⟨rfl, rfl⟩
    · rw [goes]
      exact told.trans (steady_goNext _)

theorem steady_revealStep (s : Session) : s.Steady s.revealStep := by
  rcases s.revealStep_cases with ⟨t, -, completes⟩ | ⟨c, t, -, strokes⟩
  · have moved : s.Steady { s with typewriter := t } := ⟨rfl, rfl⟩
    rw [completes]
    exact moved.trans (steady_completeText _)
  · obtain ⟨speed, stroked⟩ := stroked_eq s t
    rw [strokes, stroked]
    exact ⟨rfl, rfl⟩

theorem steady_setUp (s : Session) : s.Steady s.setUp := by
  cases current : s.currentDialogue? with
  | none =>
    rw [setUp_of_none current]
    exact ⟨rfl, rfl⟩
  | some d =>
    have opened : s.Steady (s.opened d) := ⟨rfl, rfl⟩
    rw [setUp_eq current]
    exact opened.trans (steady_revealStep _)

/-- A task does its work in no time. -/
theorem steady_runTask (s : Session) (kind : TaskKind) : s.Steady (s.runTask kind) := by
  cases kind with
  | nodeDelay => exact steady_setUp s
  | reveal => exact steady_revealStep s
  | autoAdvance => exact steady_goNext s

/-- The clock moves to due times only, so it does not pass the time up to which tasks fall due. -/
theorem steady_turn {s : Session} (taken : s.timetable.take? limit = some (kind, rest))
    (early : s.timetable.now ≤ limit) :
    ({ s with timetable := rest }.runTask kind).timetable.now ≤ limit ∧
      ({ s with timetable := rest }.runTask kind).pacing = s.pacing := by
  obtain ⟨time, found, rfl⟩ := Timetable.take?_eq_some taken
  have within : time ≤ limit := (Timetable.mem_of_next? found).2
  have moved : max s.timetable.now time ≤ limit := Duration.max_le early within
  have ran := steady_runTask { s with timetable := (s.timetable.settle time).cancel kind } kind
  exact ⟨ran.now.symm ▸ moved, ran.pacing⟩

/-- The clock stands at a time, or later if it stood later before. -/
def settled (s : Session) (time : Duration) : Session :=
  { s with timetable := s.timetable.settle time }

end Session

/-- The tasks that fall due up to a time, each run in its turn, and those among them that were only
planned on the way: how many there are, and where the last one leaves the session. -/
inductive FallDue (limit : Duration) : Session → Nat → Session → Prop
  | done (idle : s.timetable.next? limit = none) : FallDue limit s 0 s
  | next (taken : s.timetable.take? limit = some (kind, rest))
      (later : FallDue limit ({ s with timetable := rest }.runTask kind) n t) :
      FallDue limit s (n + 1) t

namespace FallDue

/-- A budget that suffices runs them all. -/
theorem runDue (due : FallDue limit s n t) (enough : n ≤ budget) :
    s.runDue budget limit = t := by
  induction due generalizing budget with
  | done idle => exact Session.runDue_of_none (Timetable.take?_eq_none_iff.mpr idle) budget
  | next taken later ih =>
    cases budget with
    | zero => omega
    | succ budget =>
      rw [Session.runDue_succ taken]
      exact ih (by omega)

/-- A budget behind which nothing is due has sufficed. -/
theorem of_runDue (idle : (s.runDue budget limit).timetable.next? limit = none) :
    ∃ n, n ≤ budget ∧ FallDue limit s n (s.runDue budget limit) := by
  induction budget generalizing s with
  | zero => exact ⟨0, Nat.le_refl 0, .done idle⟩
  | succ budget ih =>
    cases taken : s.timetable.take? limit with
    | none =>
      rw [Session.runDue_of_none taken]
      exact ⟨0, Nat.zero_le _, .done (Timetable.take?_eq_none_iff.mp taken)⟩
    | some taking =>
      obtain ⟨kind, rest⟩ := taking
      rw [Session.runDue_succ taken] at idle ⊢
      obtain ⟨n, few, later⟩ := ih idle
      exact ⟨n + 1, by omega, .next taken later⟩

theorem idle (due : FallDue limit s n t) : t.timetable.next? limit = none := by
  induction due with
  | done idle => exact idle
  | next taken later ih => exact ih

theorem steady (due : FallDue limit s n t) (early : s.timetable.now ≤ limit) :
    t.timetable.now ≤ limit ∧ t.pacing = s.pacing := by
  induction due with
  | done idle => exact ⟨early, rfl⟩
  | next taken later ih =>
    obtain ⟨started, ran⟩ := Session.steady_turn taken early
    obtain ⟨now, pacing⟩ := ih started
    exact ⟨now, pacing.trans ran⟩

/-- What falls due up to some time comes before what falls due behind it. -/
theorem split (due : FallDue limit s n t) (sooner : cut ≤ limit) :
    ∃ m k u, m + k = n ∧ FallDue cut s m u ∧ FallDue limit u k t := by
  induction due with
  | @done s idle =>
    have free : s.timetable.next? cut = none := by
      cases found : s.timetable.next? cut with
      | none => rfl
      | some a => cases idle.symm.trans (Timetable.next?_mono sooner found)
    exact ⟨0, 0, s, rfl, .done free, .done idle⟩
  | @next kind rest s n t taken later ih =>
    cases early : s.timetable.take? cut with
    | none =>
      exact ⟨0, n + 1, s, by omega, .done (Timetable.take?_eq_none_iff.mp early),
        .next taken later⟩
    | some taking =>
      cases taken.symm.trans (Timetable.take?_mono sooner early)
      obtain ⟨m, k, u, sum, first, second⟩ := ih
      exact ⟨m + 1, k, u, by omega, .next early first, second⟩

/-- Where nothing is due by some time, the clock may as well stand at that time. -/
theorem settled (due : FallDue limit s n t) (idle : s.timetable.next? cut = none)
    (sooner : cut ≤ limit) :
    ∃ u, FallDue limit (s.settled cut) n u ∧ u.settled limit = t.settled limit := by
  cases due with
  | done free =>
    refine ⟨s.settled cut, .done free, ?_⟩
    simp only [Session.settled, Timetable.settle_settle _ sooner]
  | next taken later =>
    refine ⟨t, .next ?_ later, rfl⟩
    exact (Timetable.take?_settle idle limit).trans taken

end FallDue

namespace Session

/-- A tick that may run all tasks that fall due runs them, and then sets the clock. -/
theorem tick_eq {s : Session} (due : FallDue (s.timetable.now + dt) s n t)
    (few : n ≤ s.pacing.maxTasksPerTick) : s.tick dt = t.settled (s.timetable.now + dt) := by
  have enough : n ≤ max 1 s.pacing.maxTasksPerTick := by omega
  have ran := due.runDue enough
  show (runDue _ _ s).settled _ = _
  rw [ran]

theorem tick_tick {s : Session} (due : FallDue (s.timetable.now + (a + b)) s n t)
    (few : n ≤ s.pacing.maxTasksPerTick) : (s.tick a).tick b = s.tick (a + b) := by
  have sooner : s.timetable.now + a ≤ s.timetable.now + (a + b) :=
    Duration.add_le_add_left (Duration.le_add_right a b) _
  obtain ⟨m, k, u, sum, first, second⟩ := due.split sooner
  obtain ⟨early, pacing⟩ := first.steady (Duration.le_add_right _ a)
  obtain ⟨v, rest, same⟩ := second.settled first.idle sooner
  -- The first tick ends exactly at the cut, so the second one ends where the single one does.
  have now : (u.settled (s.timetable.now + a)).timetable.now = s.timetable.now + a :=
    Duration.max_eq_right early
  have limit : (u.settled (s.timetable.now + a)).timetable.now + b =
      s.timetable.now + (a + b) := by
    rw [now, Duration.add_assoc]
  have budget : k ≤ (u.settled (s.timetable.now + a)).pacing.maxTasksPerTick := by
    show k ≤ u.pacing.maxTasksPerTick
    rw [pacing]
    omega
  rw [← limit] at rest
  calc (s.tick a).tick b
      = (u.settled (s.timetable.now + a)).tick b := by rw [tick_eq first (by omega)]
    _ = v.settled (s.timetable.now + (a + b)) := by rw [tick_eq rest budget, limit]
    _ = t.settled (s.timetable.now + (a + b)) := same
    _ = s.tick (a + b) := (tick_eq due few).symm

theorem foldl_tick {s : Session} (due : FallDue (s.timetable.now + total) s n t)
    (few : n ≤ s.pacing.maxTasksPerTick) (parts : List Duration) (first : Duration)
    (sum : parts.foldl (· + ·) first = total) :
    parts.foldl tick (s.tick first) = s.tick total := by
  induction parts generalizing first with
  | nil => rw [List.foldl_nil, ← sum, List.foldl_nil]
  | cons part parts ih =>
    have within : first + part ≤ total := sum ▸ Duration.le_foldl_add parts (first + part)
    obtain ⟨m, k, u, count, early, -⟩ := due.split (Duration.add_le_add_left within _)
    rw [List.foldl_cons, tick_tick early (by omega)]
    exact ih (first + part) sum

end Session

/-- Two ticks do what one does, and however a span of time is cut, its ticks do what a single one
does: the whole session is the same, its events and its clock included. It is the session behind
the tasks that fall due, with the clock set to the end of the span. -/
theorem tick_add {s : Session} (due : FallDue (s.timetable.now + (a + b)) s n t)
    (few : n ≤ s.pacing.maxTasksPerTick) :
    s.tick (a + b) = t.settled (s.timetable.now + (a + b)) ∧
    (s.tick a).tick b = s.tick (a + b) ∧
      ∀ (parts : List Duration) (first : Duration), parts.foldl (· + ·) first = a + b →
        parts.foldl Session.tick (s.tick first) = s.tick (a + b) := by
  refine ⟨Session.tick_eq due few, Session.tick_tick due few, ?_⟩
  intro parts first sum
  exact Session.foldl_tick due few parts first sum

namespace Story.Tavern

/-- The greeting is about to begin. -/
def entered : Session := (Session.ofGraph graph default).after [.start]

/-- The second character of the greeting falls due right where the two seconds are cut first; the
question and its choices follow behind the cut. -/
theorem tick_entered :
    (∃ n t, FallDue (entered.timetable.now + (.ofMillis 530 + .ofMillis 1470)) entered n t ∧
      n ≤ entered.pacing.maxTasksPerTick) ∧
      (entered.tick (.ofMillis 530)).tick (.ofMillis 1470) =
        entered.tick (.ofMillis 530 + .ofMillis 1470) ∧
      [.ofMillis 1000, .ofMillis 470].foldl Session.tick (entered.tick (.ofMillis 530)) =
        entered.tick (.ofMillis 530 + .ofMillis 1470) := by
  have idle : (entered.runDue 45 (entered.timetable.now +
      (.ofMillis 530 + .ofMillis 1470))).timetable.next?
        (entered.timetable.now + (.ofMillis 530 + .ofMillis 1470)) = none := by
    decide +kernel
  have enough : 45 ≤ entered.pacing.maxTasksPerTick := by decide +kernel
  obtain ⟨n, few, due⟩ := FallDue.of_runDue idle
  obtain ⟨-, two, many⟩ := tick_add due (Nat.le_trans few enough)
  refine ⟨⟨n, _, due, Nat.le_trans few enough⟩, two, ?_⟩
  exact many [.ofMillis 1000, .ofMillis 470] (.ofMillis 530) (by decide)

end Story.Tavern
end Parley
