import Parley.Timetable

/-! What any table of tasks stands for: a clock, and for each kind at most one booking, which says when
the task falls due and as which task of all it was planned. A table that answers each request as its
agenda does answers all requests in a row so, and hands out what is due in the order of the bookings,
in whatever order it holds them. -/
namespace Parley

structure Booking where
  due : Duration
  /-- How many tasks had been planned by then, this one included. -/
  number : Nat

namespace Booking

/-- Due sooner, or at the same time and planned first. -/
def Before (e f : Booking) : Prop := e.due < f.due ∨ e.due = f.due ∧ e.number < f.number

instance (e f : Booking) : Decidable (e.Before f) := inferInstanceAs (Decidable (_ ∨ _))

variable {e f g : Booking}

theorem before_iff : e.Before f ↔
    e.due.nanos < f.due.nanos ∨ e.due.nanos = f.due.nanos ∧ e.number < f.number := by
  constructor
  · rintro (sooner | ⟨same, first⟩)
    · exact .inl sooner
    · exact .inr ⟨congrArg Duration.nanos same, first⟩
  · rintro (sooner | ⟨same, first⟩)
    · exact .inl sooner
    · exact .inr ⟨Duration.ext same, first⟩

theorem Before.asymm (before : e.Before f) : ¬f.Before e := by
  rw [before_iff] at before ⊢
  omega

/-- What comes before another stands before or behind any third. -/
theorem Before.split (before : e.Before f) (g : Booking) : e.Before g ∨ g.Before f := by
  simp only [before_iff] at before ⊢
  omega

/-- Of two tasks one was planned first, so one comes before the other. -/
theorem before_of_not (apart : e.number ≠ f.number) (other : ¬f.Before e) : e.Before f := by
  rw [before_iff] at other ⊢
  omega

end Booking

/-- The booking of each kind that has a task. -/
abbrev Plan := TaskKind → Option Booking

namespace Plan

variable {plan : Plan} {kind other : TaskKind} {e f : Booking} {limit : Duration}

/-- Change what stands under one kind alone. -/
def put (plan : Plan) (kind : TaskKind) (booking? : Option Booking) : Plan := fun k =>
  if k = kind then booking? else plan k

@[simp] theorem put_self (plan : Plan) (kind : TaskKind) (booking? : Option Booking) :
    plan.put kind booking? kind = booking? :=
  if_pos rfl

theorem put_other (booking? : Option Booking) (different : other ≠ kind) :
    plan.put kind booking? other = plan other :=
  if_neg different

theorem put_put (plan : Plan) (kind : TaskKind) (first? second? : Option Booking) :
    (plan.put kind first?).put kind second? = plan.put kind second? := by
  funext k
  by_cases same : k = kind
  · simp [put, same]
  · simp [put, same]

/-- What stands under the other kinds is what stood there. -/
theorem put_none_eq_some :
    plan.put kind none other = some e ↔ other ≠ kind ∧ plan other = some e := by
  by_cases same : other = kind
  · simp [put, same]
  · simp [put, same]

/-- A booking that is due by a time and comes before all others that are. -/
structure IsNext (plan : Plan) (limit : Duration) (kind : TaskKind) (e : Booking) : Prop where
  stands : plan kind = some e
  due : e.due ≤ limit
  first : ∀ other f, plan other = some f → f.due ≤ limit → other = kind ∨ e.Before f

theorem IsNext.unique (next : plan.IsNext limit kind e) (next' : plan.IsNext limit other f) :
    kind = other ∧ e = f := by
  rcases next.first other f next'.stands next'.due with rfl | before
  · exact ⟨rfl, Option.some.inj (next.stands.symm.trans next'.stands)⟩
  · rcases next'.first kind e next.stands next.due with rfl | after
    · exact ⟨rfl, Option.some.inj (next.stands.symm.trans next'.stands)⟩
    · exact absurd after before.asymm

/-- All kinds whose tasks are due by a time, in the order of their bookings. -/
structure InTurn (plan : Plan) (limit : Duration) (kinds : List TaskKind) : Prop where
  all : ∀ kind, kind ∈ kinds ↔ ∃ e, plan kind = some e ∧ e.due ≤ limit
  once : kinds.Nodup
  ordered : kinds.Pairwise fun k l => ∀ e f, plan k = some e → plan l = some f → e.Before f

theorem inTurn_nil :
    plan.InTurn limit [] ↔ ∀ kind e, plan kind = some e → ¬e.due ≤ limit := by
  constructor
  · intro inTurn kind e stands due
    exact List.not_mem_nil ((inTurn.all kind).mpr ⟨e, stands, due⟩)
  · intro idle
    refine ⟨fun kind => ⟨nofun, ?_⟩, List.nodup_nil, .nil⟩
    rintro ⟨e, stands, due⟩
    exact absurd due (idle kind e stands)

/-- The first in turn is the next, and the others are in turn when it is gone. -/
theorem inTurn_cons {kinds : List TaskKind} :
    plan.InTurn limit (kind :: kinds) ↔
      (∃ e, plan.IsNext limit kind e) ∧ (plan.put kind none).InTurn limit kinds := by
  constructor
  · rintro ⟨all, once, ordered⟩
    obtain ⟨fresh, once⟩ := List.nodup_cons.mp once
    obtain ⟨before, ordered⟩ := List.pairwise_cons.mp ordered
    obtain ⟨e, stands, due⟩ := (all kind).mp List.mem_cons_self
    constructor
    · refine ⟨e, stands, due, fun other f stands' due' => ?_⟩
      rcases List.mem_cons.mp ((all other).mpr ⟨f, stands', due'⟩) with rfl | listed
      · exact .inl rfl
      · exact .inr (before other listed e f stands stands')
    · refine ⟨fun other => ?_, once, ordered.imp fun le f g first second => ?_⟩
      · have all := all other
        simp only [put_none_eq_some, List.mem_cons] at all ⊢
        constructor
        · intro listed
          obtain ⟨f, stands, due⟩ := all.mp (.inr listed)
          exact ⟨f, ⟨fun same => fresh (same ▸ listed), stands⟩, due⟩
        · rintro ⟨f, ⟨different, stands⟩, due⟩
          exact (all.mpr ⟨f, stands, due⟩).resolve_left different
      · exact le f g (put_none_eq_some.mp first).2 (put_none_eq_some.mp second).2
  · rintro ⟨⟨e, next⟩, all, once, ordered⟩
    simp only [put_none_eq_some] at all ordered
    have apart : ∀ other ∈ kinds, other ≠ kind := by
      intro other listed
      obtain ⟨f, ⟨different, -⟩, -⟩ := (all other).mp listed
      exact different
    refine ⟨fun other => ?_, List.nodup_cons.mpr ⟨fun listed => apart kind listed rfl, once⟩,
      List.pairwise_cons.mpr ⟨fun other listed f g first second => ?_, ?_⟩⟩
    · by_cases same : other = kind
      · subst same
        simp only [List.mem_cons_self, true_iff]
        exact ⟨e, next.stands, next.due⟩
      · simp [List.mem_cons, same, all]
    · obtain ⟨h, ⟨-, stands⟩, due⟩ := (all other).mp listed
      cases stands.symm.trans second
      cases next.stands.symm.trans first
      exact (next.first other g second due).resolve_left (apart other listed)
    · refine ordered.imp_of_mem fun {k l} here there le f g first second => ?_
      exact le f g ⟨apart k here, first⟩ ⟨apart l there, second⟩

end Plan

/-- What can be asked of a table of tasks. -/
inductive Request
  | schedule (kind : TaskKind) (after : Duration)
  | cancel (kind : TaskKind)
  | cancelAll
  /-- Take the next task that is due by a time. -/
  | take (limit : Duration)
  | settle (time : Duration)

inductive Answer
  | done
  /-- Whether there was a task to cancel. -/
  | cancelled (planned : Bool)
  | taken (kind? : Option TaskKind)

structure Agenda where
  now : Duration
  /-- How many tasks were ever planned. -/
  planned : Nat
  plan : Plan

namespace Agenda

def empty : Agenda := ⟨.zero, 0, fun _ => none⟩

/-- What an agenda answers to a request, and what becomes of it. -/
inductive Step : Agenda → Request → Answer → Agenda → Prop
  | schedule (kind : TaskKind) (after : Duration) : Step a (.schedule kind after) .done
      ⟨a.now, a.planned + 1, a.plan.put kind (some ⟨a.now + after, a.planned + 1⟩)⟩
  | cancel (kind : TaskKind) : Step a (.cancel kind) (.cancelled (a.plan kind).isSome)
      { a with plan := a.plan.put kind none }
  | cancelAll : Step a .cancelAll .done { a with plan := fun _ => none }
  | take (next : a.plan.IsNext limit kind e) : Step a (.take limit) (.taken (some kind))
      ⟨max a.now e.due, a.planned, a.plan.put kind none⟩
  | wait (idle : ∀ kind e, a.plan kind = some e → ¬e.due ≤ limit) :
      Step a (.take limit) (.taken none) a
  | settle (time : Duration) : Step a (.settle time) .done { a with now := max a.now time }

/-- Requests in a row, with their answers. -/
inductive Runs : Agenda → List Request → List Answer → Agenda → Prop
  | nil : Runs a [] [] a
  | cons (first : a.Step r x b) (rest : Runs b rs xs c) : Runs a (r :: rs) (x :: xs) c

variable {a b c : Agenda}

theorem Step.unique (first : a.Step r x b) (second : a.Step r y c) : x = y ∧ b = c := by
  cases first with
  | schedule | cancel | cancelAll | settle => cases second; exact ⟨rfl, rfl⟩
  | take next =>
    cases second with
    | take next' =>
      obtain ⟨rfl, rfl⟩ := next.unique next'
      exact ⟨rfl, rfl⟩
    | wait idle => exact absurd next.due (idle _ _ next.stands)
  | wait idle =>
    cases second with
    | take next => exact absurd next.due (idle _ _ next.stands)
    | wait => exact ⟨rfl, rfl⟩

/-- The clock never goes back. -/
theorem Step.now_le (step : a.Step r x b) : a.now ≤ b.now := by
  cases step with
  | schedule | cancel | cancelAll | wait => exact Nat.le_refl _
  | take | settle => exact Duration.le_max_left _ _

/-- No two bookings have one number, and none has one that is still to be given. -/
structure Orderly (a : Agenda) : Prop where
  given : ∀ kind e, a.plan kind = some e → e.number ≤ a.planned
  apart : ∀ kind other e f, a.plan kind = some e → a.plan other = some f → kind ≠ other →
    e.number ≠ f.number

theorem orderly_empty : empty.Orderly := ⟨nofun, nofun⟩

theorem Orderly.remove (orderly : a.Orderly) (now : Duration) (kind : TaskKind) :
    Orderly ⟨now, a.planned, a.plan.put kind none⟩ where
  given k e stands := orderly.given k e (Plan.put_none_eq_some.mp stands).2
  apart k l e f stands stands' :=
    orderly.apart k l e f (Plan.put_none_eq_some.mp stands).2 (Plan.put_none_eq_some.mp stands').2

theorem Orderly.add (orderly : a.Orderly) (now due : Duration) (kind : TaskKind) :
    Orderly ⟨now, a.planned + 1, a.plan.put kind (some ⟨due, a.planned + 1⟩)⟩ := by
  -- All that stood before has a smaller number than what is added.
  have fresh (k : TaskKind) (e : Booking)
      (stands : a.plan.put kind (some ⟨due, a.planned + 1⟩) k = some e) :
      k = kind ∧ e.number = a.planned + 1 ∨
        k ≠ kind ∧ a.plan k = some e ∧ e.number ≤ a.planned := by
    by_cases same : k = kind
    · subst same
      cases (Plan.put_self _ _ _).symm.trans stands
      exact .inl ⟨rfl, rfl⟩
    · have stands := (Plan.put_other _ same).symm.trans stands
      exact .inr ⟨same, stands, orderly.given k e stands⟩
  constructor
  · intro k e stands
    rcases fresh k e stands with ⟨-, last⟩ | ⟨-, -, earlier⟩
    · exact Nat.le_of_eq last
    · exact Nat.le_succ_of_le earlier
  · intro k l e f stands stands' different
    rcases fresh k e stands with ⟨rfl, last⟩ | ⟨-, stood, earlier⟩ <;>
      rcases fresh l f stands' with ⟨rfl, last'⟩ | ⟨-, stood', earlier'⟩
    · exact absurd rfl different
    · omega
    · omega
    · exact orderly.apart k l e f stood stood' different

theorem Step.orderly (step : a.Step r x b) (orderly : a.Orderly) : b.Orderly := by
  cases step with
  | schedule kind after => exact orderly.add _ _ _
  | cancel kind => exact orderly.remove a.now kind
  | cancelAll => exact ⟨nofun, nofun⟩
  | take next => exact orderly.remove _ _
  | wait => exact orderly
  | settle time => exact ⟨orderly.given, orderly.apart⟩

theorem Runs.orderly (runs : a.Runs rs xs b) (orderly : a.Orderly) : b.Orderly := by
  induction runs with
  | nil => exact orderly
  | cons first rest ih => exact ih (first.orderly orderly)

theorem Runs.unique (first : a.Runs rs xs b) (second : a.Runs rs ys c) : xs = ys ∧ b = c := by
  induction first generalizing ys with
  | nil =>
    cases second
    exact ⟨rfl, rfl⟩
  | cons step _ ih =>
    cases second with
    | cons step' rest =>
      obtain ⟨rfl, rfl⟩ := step.unique step'
      obtain ⟨rfl, rfl⟩ := ih rest
      exact ⟨rfl, rfl⟩

/-- The answers to a number of attempts to take a task: those that are due in their turns, and then
none. -/
def takings (kinds : List TaskKind) (attempts : Nat) : List Answer :=
  kinds.map (fun kind => .taken (some kind)) ++
    List.replicate (attempts - kinds.length) (.taken none)

theorem Runs.takings (runs : a.Runs (List.replicate attempts (.take limit)) xs b)
    (inTurn : a.plan.InTurn limit kinds) (enough : kinds.length ≤ attempts) :
    xs = Agenda.takings kinds attempts := by
  induction attempts generalizing a kinds xs with
  | zero =>
    obtain rfl := List.eq_nil_of_length_eq_zero (Nat.le_zero.mp enough)
    cases runs
    rfl
  | succ attempts ih =>
    cases runs with
    | cons first rest =>
      cases kinds with
      | nil =>
        obtain ⟨rfl, rfl⟩ := first.unique (.wait (Plan.inTurn_nil.mp inTurn))
        rw [ih rest inTurn (Nat.zero_le _)]
        rfl
      | cons kind kinds =>
        obtain ⟨⟨e, next⟩, later⟩ := Plan.inTurn_cons.mp inTurn
        obtain ⟨rfl, rfl⟩ := first.unique (.take next)
        rw [ih rest later (Nat.le_of_succ_le_succ enough)]
        simp [Agenda.takings]

end Agenda

/-- What a table answers to requests in a row, and what becomes of it. -/
def askAll (ask : τ → Request → Answer × τ) (t : τ) : List Request → List Answer × τ
  | [] => ([], t)
  | r :: rs =>
    let (answer, next) := ask t r
    let (answers, last) := askAll ask next rs
    (answer :: answers, last)

/-- A table that stands for an agenda tells its time, answers a request as the agenda does, and stands
for what becomes of the agenda. -/
structure KeepsAgenda (ask : τ → Request → Answer × τ) (clock : τ → Duration)
    (holds : τ → Agenda → Prop) : Prop where
  clock_eq : ∀ t a, holds t a → clock t = a.now
  step : ∀ t a r, holds t a → a.Orderly → ∃ b, a.Step r (ask t r).1 b ∧ holds (ask t r).2 b

namespace KeepsAgenda

variable {ask : τ → Request → Answer × τ} {clock : τ → Duration} {holds : τ → Agenda → Prop}
  (keeps : KeepsAgenda ask clock holds) {t : τ} {a : Agenda} (held : holds t a)
  (orderly : a.Orderly)
include keeps held orderly

theorem runs (rs : List Request) :
    ∃ b, a.Runs rs (askAll ask t rs).1 b ∧ holds (askAll ask t rs).2 b := by
  induction rs generalizing t a with
  | nil => exact ⟨a, .nil, held⟩
  | cons r rs ih =>
    obtain ⟨b, first, held⟩ := keeps.step t a r held orderly
    obtain ⟨c, rest, held⟩ := ih held (first.orderly orderly)
    exact ⟨c, .cons first rest, held⟩

theorem clock_le (r : Request) : clock t ≤ clock (ask t r).2 := by
  obtain ⟨b, step, held'⟩ := keeps.step t a r held orderly
  rw [keeps.clock_eq t a held, keeps.clock_eq _ b held']
  exact step.now_le

theorem takings (inTurn : a.plan.InTurn limit kinds) (enough : kinds.length ≤ attempts) :
    (askAll ask t (List.replicate attempts (.take limit))).1 = Agenda.takings kinds attempts := by
  obtain ⟨b, runs, -⟩ := keeps.runs held orderly (List.replicate attempts (.take limit))
  exact runs.takings inTurn enough

end KeepsAgenda
end Parley
