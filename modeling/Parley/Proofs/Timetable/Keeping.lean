import Parley.Proofs.Timetable
import Parley.Proofs.Timetable.Pile

/-! The timetable keeps an agenda too. It gives its tasks no numbers: they are those of a pile that lies
in the order of its numbers, and of the tasks that fall due first the first one is taken. -/
namespace Parley

def Ticket.task (x : Ticket) : Task := ⟨x.kind, x.booking.due⟩

namespace Timetable

def ask (t : Timetable) : Request → Answer × Timetable
  | .schedule kind after => (.done, t.schedule kind after)
  | .cancel kind => (.cancelled (t.isPending kind), t.cancel kind)
  | .cancelAll => (.done, t.cancelAll)
  | .take limit =>
    match t.take? limit with
    | some (kind, rest) => (.taken (some kind), rest)
    | none => (.taken none, t)
  | .settle time => (.done, t.settle time)

/-- The tasks of a pile without their numbers, in whose order they lie. -/
structure Unnumbered (t : Timetable) (p : Pile) : Prop where
  now : t.now = p.now
  tasks : t.tasks = p.tickets.map Ticket.task
  ordered : p.tickets.Pairwise fun x y => x.booking.number < y.booking.number

def Holds (t : Timetable) (a : Agenda) : Prop := ∃ p : Pile, t.Unnumbered p ∧ p.Holds a

theorem holds_empty : Timetable.empty.Holds .empty :=
  ⟨.empty, ⟨rfl, rfl, .nil⟩, Pile.holds_empty⟩

/-- The task that falls due first stands before all that fall due with it. -/
theorem earliest_split {tasks : List Task} (found : earliest tasks = some a) :
    ∃ front back, tasks = front ++ a :: back ∧ (∀ b ∈ front, a.due < b.due) ∧
      ∀ b ∈ back, ¬b.due < a.due := by
  induction tasks generalizing a with
  | nil => cases found
  | cons c rest ih =>
    cases known : earliest rest with
    | none =>
      simp only [earliest, known, Option.some.injEq] at found
      subst found
      obtain rfl := earliest_eq_none_iff.mp known
      exact ⟨[], [], rfl, by simp, by simp⟩
    | some b =>
      obtain ⟨front, back, rfl, before, after⟩ := ih known
      by_cases sooner : b.due < c.due
      · simp only [earliest, known, if_pos sooner, Option.some.injEq] at found
        subst found
        refine ⟨c :: front, back, rfl, fun x listed => ?_, after⟩
        rcases List.mem_cons.mp listed with rfl | listed
        · exact sooner
        · exact before x listed
      · simp only [earliest, known, if_neg sooner, Option.some.injEq] at found
        subst found
        refine ⟨[], _, rfl, by simp, fun x listed => ?_⟩
        -- What comes before the second earliest falls due behind it, so behind the earliest.
        have late : ¬x.due < b.due := by
          rcases List.mem_append.mp listed with front | back
          · exact Nat.lt_asymm (before x front)
          · rcases List.mem_cons.mp back with rfl | back
            · exact Nat.lt_irrefl _
            · exact after x back
        exact fun early => sooner (Nat.lt_of_le_of_lt (Nat.le_of_not_lt late) early)

namespace Unnumbered

variable {t : Timetable} {p : Pile} (same : t.Unnumbered p)
include same

theorem at_time (time : Duration) :
    Unnumbered { t with now := time } { p with now := time } where
  now := rfl
  tasks := same.tasks
  ordered := same.ordered

theorem cancel (kind : TaskKind) : (t.cancel kind).Unnumbered (p.cancel kind) where
  now := same.now
  tasks := by
    rw [Timetable.cancel, same.tasks, List.filter_map]
    rfl
  ordered := same.ordered.filter _

/-- The task that is planned last is put behind all others. -/
theorem schedule (given : ∀ x ∈ p.tickets, x.booking.number ≤ p.planned) (kind : TaskKind)
    (after : Duration) : (t.schedule kind after).Unnumbered (p.schedule kind after) := by
  have cancelled := same.cancel kind
  constructor
  · exact same.now
  · simp only [Timetable.schedule, Pile.schedule, cancelled.tasks, same.now, List.map_append,
      List.map_singleton, Ticket.task]
  · refine List.pairwise_append.mpr ⟨cancelled.ordered, List.pairwise_singleton _ _, ?_⟩
    intro x listed y last
    obtain rfl := List.mem_singleton.mp last
    exact Nat.lt_succ_of_le (given x (List.mem_filter.mp listed).1)

theorem isPending_iff (kind : TaskKind) : t.isPending kind ↔ ∃ x ∈ p.tickets, x.kind = kind := by
  rw [Timetable.isPending, Timetable.find?, same.tasks, List.find?_map, Option.isSome_map,
    List.find?_isSome]
  exact exists_congr fun x => and_congr_right fun _ => decide_eq_true_iff

/-- The first of the tasks that fall due first is the one with the least booking. -/
theorem least (found : t.next? limit = some task) :
    ∃ x ∈ p.tickets, x.task = task ∧
      ∀ y ∈ p.tickets, y.booking.due ≤ limit →
        y.kind = x.kind ∨ x.booking.Before y.booking := by
  have due : t.tasks.filter (fun b => b.due ≤ limit) =
      (p.tickets.filter fun x => x.booking.due ≤ limit).map Ticket.task := by
    rw [same.tasks, List.filter_map]
    rfl
  obtain ⟨front, back, whole, before, after⟩ := earliest_split found
  obtain ⟨front, rest, split, rfl, behind⟩ := List.map_eq_append_iff.mp (due.symm.trans whole)
  obtain ⟨x, back, rfl, rfl, rfl⟩ := List.map_eq_cons_iff.mp behind
  have ordered := same.ordered.filter fun x => decide (x.booking.due ≤ limit)
  rw [split] at ordered
  obtain ⟨-, ordered, -⟩ := List.pairwise_append.mp ordered
  obtain ⟨last, -⟩ := List.pairwise_cons.mp ordered
  have member (y : Ticket) :
      y ∈ front ++ x :: back ↔ y ∈ p.tickets ∧ y.booking.due ≤ limit := by
    rw [← split, List.mem_filter, decide_eq_true_eq]
  refine ⟨x, ((member x).mp (by simp)).1, rfl, fun y listed early => ?_⟩
  rcases List.mem_append.mp ((member y).mpr ⟨listed, early⟩) with sooner | later
  · exact .inr (.inl (before _ (List.mem_map_of_mem sooner)))
  · rcases List.mem_cons.mp later with rfl | later
    · exact .inl rfl
    · have first : x.booking.number < y.booking.number := last y later
      refine .inr (Booking.before_of_not (Nat.ne_of_lt first) ?_)
      rintro (early | ⟨-, earlier⟩)
      · exact after _ (List.mem_map_of_mem later) early
      · exact Nat.lt_asymm first earlier

end Unnumbered

theorem keepsAgenda : KeepsAgenda ask now Holds := by
  refine ⟨fun t a ⟨p, same, holds⟩ => same.now.trans holds.now, ?_⟩
  rintro t a r ⟨p, same, holds⟩ orderly
  cases r with
  | schedule kind after =>
    have given : ∀ x ∈ p.tickets, x.booking.number ≤ p.planned := by
      intro x listed
      rw [holds.planned]
      exact orderly.given x.kind x.booking ((holds.listed x).mp listed)
    exact ⟨_, .schedule kind after, p.schedule kind after, same.schedule given kind after,
      holds.schedule kind after⟩
  | cancel kind =>
    have pending : t.isPending kind = (a.plan kind).isSome :=
      Bool.eq_iff_iff.mpr ((same.isPending_iff kind).trans (holds.isSome_iff kind).symm)
    simp only [ask, pending]
    exact ⟨_, .cancel kind, p.cancel kind, same.cancel kind, holds.cancel kind⟩
  | cancelAll => exact ⟨_, .cancelAll, { p with tickets := [] }, ⟨same.now, rfl, .nil⟩, holds.clear⟩
  | take limit =>
    cases found : t.next? limit with
    | none =>
      simp only [ask, take?_eq_none_iff.mpr found]
      have late := next?_eq_none_iff.mp found
      rw [same.tasks, List.forall_mem_map] at late
      exact ⟨a, .wait (holds.idle late), p, same, holds⟩
    | some task =>
      obtain ⟨x, listed, rfl, first⟩ := same.least found
      have next := holds.isNext listed (mem_of_next? found).2 first
      simp only [ask, take?_of_next? found]
      refine ⟨_, .take next, { p.cancel x.kind with now := max t.now x.booking.due },
        (same.cancel x.kind).at_time _, ?_⟩
      rw [same.now, holds.now]
      exact (holds.cancel x.kind).at_time _
  | settle time =>
    refine ⟨_, .settle time, { p with now := max t.now time }, same.at_time _, ?_⟩
    rw [same.now, holds.now]
    exact holds.at_time _

end Timetable

/-- The timetable and a pile, asked the same from the start, give the same answers, those of one agenda,
and both stand for it in the end, at most one task of each kind. Their clocks never go back. What is due
by then can be taken in the order of the bookings, once each and nothing else, from any pile that stands
for the agenda, in whatever order its tasks lie, and from the timetable. -/
theorem timetable_keeps_agenda (requests : List Request) :
    ∃ answers agenda t p, Agenda.empty.Runs requests answers agenda ∧
      askAll Timetable.ask .empty requests = (answers, t) ∧ t.Holds agenda ∧
      askAll Pile.ask .empty requests = (answers, p) ∧ p.Holds agenda ∧
      (∀ request, t.now ≤ (t.ask request).2.now ∧ p.now ≤ (p.ask request).2.now) ∧
      ∀ limit, ∃ kinds, agenda.plan.InTurn limit kinds ∧ ∀ attempts, kinds.length ≤ attempts →
        let takes := List.replicate attempts (.take limit)
        (askAll Timetable.ask t takes).1 = Agenda.takings kinds attempts ∧
          ∀ q : Pile, q.Holds agenda → (askAll Pile.ask q takes).1 = Agenda.takings kinds attempts := by
  obtain ⟨a, runs, held⟩ :=
    Timetable.keepsAgenda.runs Timetable.holds_empty Agenda.orderly_empty requests
  obtain ⟨b, runs', piled⟩ := Pile.keepsAgenda.runs Pile.holds_empty Agenda.orderly_empty requests
  obtain ⟨same, rfl⟩ := runs.unique runs'
  have orderly := runs.orderly Agenda.orderly_empty
  refine ⟨_, a, _, _, runs, rfl, held, Prod.ext same.symm rfl, piled, fun request => ?_, fun limit => ?_⟩
  · exact ⟨Timetable.keepsAgenda.clock_le held orderly request,
      Pile.keepsAgenda.clock_le piled orderly request⟩
  · obtain ⟨kinds, inTurn⟩ := piled.exists_inTurn orderly limit
    refine ⟨kinds, inTurn, fun attempts enough => ?_⟩
    constructor
    · exact Timetable.keepsAgenda.takings held orderly inTurn enough
    · intro q piled
      exact Pile.keepsAgenda.takings piled orderly inTurn enough

end Parley
