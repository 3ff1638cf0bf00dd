import Parley.Timetable

/-! The timetable by itself: what it holds after each operation, and which task comes next. A later
limit never changes the choice among the tasks that an earlier limit admits. -/
namespace Parley.Timetable

theorem cancel_cancel (t : Timetable) (kind : TaskKind) :
    (t.cancel kind).cancel kind = t.cancel kind := by
  simp [cancel]

theorem tasks_cancel_of_single {t : Timetable} (single : t.tasks = [⟨kind, due⟩]) :
    (t.cancel kind).tasks = [] := by
  simp [cancel, single]

theorem tasks_cancel_of_nil {t : Timetable} (none : t.tasks = []) (kind : TaskKind) :
    (t.cancel kind).tasks = [] := by
  simp [cancel, none]

theorem tasks_schedule_of_nil {t : Timetable} (none : t.tasks = []) (kind : TaskKind)
    (after : Duration) : (t.schedule kind after).tasks = [⟨kind, t.now + after⟩] := by
  simp [schedule, tasks_cancel_of_nil none]

theorem isPending_of_nil {t : Timetable} (none : t.tasks = []) (kind : TaskKind) :
    t.isPending kind = false := by
  simp [isPending, find?, none]

theorem isPending_of_single {t : Timetable} (single : t.tasks = [⟨planned, due⟩])
    (kind : TaskKind) : t.isPending kind = decide (planned = kind) := by
  by_cases same : planned = kind <;> simp [isPending, find?, single, same]

/-- Taking a task moves the clock to its due time and cancels its kind. -/
theorem take?_eq_some {t : Timetable} (taken : t.take? limit = some (kind, rest)) :
    ∃ due, t.next? limit = some ⟨kind, due⟩ ∧ rest = (t.settle due).cancel kind := by
  obtain ⟨a, found, same⟩ := Option.map_eq_some_iff.mp taken
  obtain ⟨rfl, rfl⟩ := Prod.mk.inj same
  exact ⟨a.due, found, rfl⟩

theorem mem_of_earliest {tasks : List Task} (found : earliest tasks = some a) : a ∈ tasks := by
  induction tasks generalizing a with
  | nil => cases found
  | cons b rest ih =>
    simp only [earliest] at found
    split at found
    case h_1 c known =>
      split at found <;> cases Option.some.inj found
      · exact List.mem_cons_of_mem _ (ih known)
      · exact List.mem_cons_self
    case h_2 =>
      cases Option.some.inj found
      exact List.mem_cons_self

theorem mem_of_next? {t : Timetable} (found : t.next? limit = some a) :
    a ∈ t.tasks ∧ a.due ≤ limit := by
  simpa using List.mem_filter.mp (mem_of_earliest found)

theorem earliest_eq_none_iff {tasks : List Task} : earliest tasks = none ↔ tasks = [] := by
  cases tasks with
  | nil => simp [earliest]
  | cons a rest =>
    simp only [earliest, reduceCtorEq, iff_false]
    split
    · split <;> exact nofun
    · exact nofun

theorem next?_eq_none_iff {t : Timetable} :
    t.next? limit = none ↔ ∀ a ∈ t.tasks, ¬a.due ≤ limit := by
  simp [next?, earliest_eq_none_iff, List.filter_eq_nil_iff]

theorem earliest_cons_eq_self {a : Task} {rest : List Task}
    (least : ∀ b ∈ rest, ¬b.due < a.due) : earliest (a :: rest) = some a := by
  simp only [earliest]
  split
  case h_1 b known => rw [if_neg (least b (mem_of_earliest known))]
  case h_2 => rfl

/-- The first among the tasks due by some time stays the first among those due later. -/
theorem earliest_filter_mono {tasks : List Task} (later : sooner ≤ limit)
    (found : earliest (tasks.filter fun a => a.due ≤ sooner) = some a) :
    earliest (tasks.filter fun a => a.due ≤ limit) = some a := by
  induction tasks generalizing a with
  | nil => cases found
  | cons b rest ih =>
    have admits {x : Duration} (early : x ≤ sooner) : x ≤ limit := Nat.le_trans early later
    by_cases early : b.due ≤ sooner
    · rw [List.filter_cons_of_pos (by simpa using early)] at found
      rw [List.filter_cons_of_pos (by simpa using admits early)]
      cases known : earliest (rest.filter fun a => a.due ≤ sooner) with
      | some c => simpa only [earliest, known, ih known] using found
      | none =>
        simp only [earliest, known, Option.some.injEq] at found
        subst found
        -- Nothing else is due by the earlier limit, so what the later one adds is due after it.
        refine earliest_cons_eq_self fun c listed sooner' => ?_
        have empty := earliest_eq_none_iff.mp known
        have out := List.filter_eq_nil_iff.mp empty c (List.mem_filter.mp listed).1
        exact out (decide_eq_true (Nat.le_trans (Nat.le_of_lt sooner') early))
    · rw [List.filter_cons_of_neg (by simpa using early)] at found
      have known := ih found
      by_cases within : b.due ≤ limit
      · rw [List.filter_cons_of_pos (by simpa using within)]
        have first : a.due ≤ sooner := by
          simpa using (List.mem_filter.mp (mem_of_earliest found)).2
        have before : a.due < b.due := Nat.lt_of_le_of_lt first (Nat.lt_of_not_le early)
        simp only [earliest, known, if_pos before]
      · rwa [List.filter_cons_of_neg (by simpa using within)]

theorem next?_mono {t : Timetable} (later : sooner ≤ limit) (found : t.next? sooner = some a) :
    t.next? limit = some a :=
  earliest_filter_mono later found

theorem take?_of_next? {t : Timetable} (found : t.next? limit = some a) :
    t.take? limit = some (a.kind, (t.settle a.due).cancel a.kind) := by
  rw [take?, found]
  rfl

theorem take?_eq_none_iff {t : Timetable} : t.take? limit = none ↔ t.next? limit = none :=
  Option.map_eq_none_iff

theorem take?_mono {t : Timetable} (later : sooner ≤ limit) (taken : t.take? sooner = some taking) :
    t.take? limit = some taking := by
  obtain ⟨a, found, same⟩ := Option.map_eq_some_iff.mp taken
  exact Option.map_eq_some_iff.mpr ⟨a, next?_mono later found, same⟩

theorem settle_settle (t : Timetable) (later : sooner ≤ limit) :
    (t.settle sooner).settle limit = t.settle limit := by
  simp only [settle, Duration.max_assoc, Duration.max_eq_right later]

/-- Where nothing is due by some time, the clock may as well stand at that time: what comes next
moves it further. -/
theorem take?_settle {t : Timetable} (idle : t.next? sooner = none) (limit : Duration) :
    (t.settle sooner).take? limit = t.take? limit := by
  have same : (t.settle sooner).next? limit = t.next? limit := rfl
  cases found : t.next? limit with
  | none => rw [take?_eq_none_iff.mpr found, take?_eq_none_iff.mpr (same.trans found)]
  | some a =>
    have late : ¬a.due ≤ sooner := next?_eq_none_iff.mp idle a (mem_of_next? found).1
    have before : sooner ≤ a.due := Nat.le_of_lt (Nat.lt_of_not_le late)
    rw [take?_of_next? found, take?_of_next? (same.trans found), settle_settle t before]

theorem next?_of_nil {t : Timetable} (none : t.tasks = []) (limit : Duration) :
    t.next? limit = .none := by
  simp [next?, none, earliest]

theorem next?_of_single {t : Timetable} (single : t.tasks = [a]) (limit : Duration) :
    t.next? limit = if a.due ≤ limit then some a else none := by
  by_cases early : a.due ≤ limit <;> simp [next?, single, early, earliest]

theorem take?_of_nil {t : Timetable} (none : t.tasks = []) (limit : Duration) :
    t.take? limit = .none :=
  take?_eq_none_iff.mpr (next?_of_nil none limit)

theorem take?_of_single {t : Timetable} (single : t.tasks = [a]) (limit : Duration) :
    t.take? limit =
      if a.due ≤ limit then some (a.kind, ⟨max t.now a.due, []⟩) else none := by
  rw [take?, next?_of_single single]
  split
  · simp [cancel, single]
  · rfl

/-- The same tasks by another clock. -/
def retime (clock : Duration → Duration) (t : Timetable) : Timetable :=
  ⟨clock t.now, t.tasks.map fun a => ⟨a.kind, clock a.due⟩⟩

section Retime

variable {clock : Duration → Duration} (t : Timetable)

@[simp] theorem retime_cancel (kind : TaskKind) :
    (t.retime clock).cancel kind = (t.cancel kind).retime clock := by
  simp only [retime, cancel, List.filter_map]
  rfl

@[simp] theorem retime_cancelAll : (t.retime clock).cancelAll = t.cancelAll.retime clock := rfl

@[simp] theorem retime_isPending (kind : TaskKind) :
    (t.retime clock).isPending kind = t.isPending kind := by
  simp only [retime, isPending, find?, List.find?_map, Option.isSome_map]
  rfl

theorem retime_schedule (same : clock (t.now + after) = clock t.now + wait) (kind : TaskKind) :
    (t.retime clock).schedule kind wait = (t.schedule kind after).retime clock := by
  simp only [schedule, retime_cancel]
  simp only [retime, List.map_append, List.map_cons, List.map_nil, same]

end Retime

end Parley.Timetable
