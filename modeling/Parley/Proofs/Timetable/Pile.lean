import Mathlib.Data.List.Perm.Basic
import Parley.Proofs.Timetable.Agenda

/-! A pile of tasks, which lie in any order, each with the number of its planning. The next task is
looked for among those that are due, and the last one fills its place. However the tasks lie, the pile
keeps its agenda. -/
namespace Parley

/-- What stands at a place, and the list in which the last takes that place. -/
def swapRemove (xs : List α) (i : Nat) : Option (α × List α) :=
  match xs[i]?, xs.getLast? with
  | some x, some last => some (x, (xs.set i last).dropLast)
  | _, _ => none

open List in
theorem swapRemove_perm {xs : List α} (found : xs[i]? = some x) :
    ∃ rest, swapRemove xs i = some (x, rest) ∧ x :: rest ~ xs := by
  cases ending : xs.getLast? with
  | none =>
    obtain rfl := List.getLast?_eq_none_iff.mp ending
    cases found
  | some last =>
    refine ⟨(xs.set i last).dropLast, by simp only [swapRemove, found, ending], ?_⟩
    obtain ⟨ys, rfl⟩ := List.getLast?_eq_some_iff.mp ending
    by_cases within : i < ys.length
    · rw [List.getElem?_append_left within, List.getElem?_eq_getElem within] at found
      obtain rfl := Option.some.inj found
      rw [List.set_append_left i last within, List.dropLast_concat]
      calc ys[i] :: ys.set i last
          ~ ys[i] :: last :: ys.eraseIdx i := (List.set_perm_cons_eraseIdx within last).cons _
        _ ~ last :: ys[i] :: ys.eraseIdx i := .swap ..
        _ ~ last :: ys := (List.getElem_cons_eraseIdx_perm within).cons _
        _ ~ ys ++ [last] := (List.perm_append_singleton last ys).symm
    · have ends : i = ys.length := by
        have bound := (List.getElem?_eq_some_iff.mp found).1
        rw [List.length_append, List.length_singleton] at bound
        omega
      subst ends
      rw [List.getElem?_concat_length] at found
      obtain rfl := Option.some.inj found
      rw [List.set_append_right _ _ (Nat.le_refl _), Nat.sub_self, List.set_cons_zero,
        List.dropLast_concat]
      exact (List.perm_append_singleton last ys).symm

structure Ticket where
  kind : TaskKind
  booking : Booking

structure Pile where
  now : Duration
  planned : Nat
  tickets : List Ticket

namespace Pile

def empty : Pile := ⟨.zero, 0, []⟩

def cancel (p : Pile) (kind : TaskKind) : Pile :=
  { p with tickets := p.tickets.filter fun x => x.kind ≠ kind }

def schedule (p : Pile) (kind : TaskKind) (after : Duration) : Pile :=
  { p with
    planned := p.planned + 1
    tickets := (p.cancel kind).tickets ++ [⟨kind, p.now + after, p.planned + 1⟩] }

/-- The place of the ticket with the least booking, the first of several. -/
def least : List (Ticket × Nat) → Option (Ticket × Nat)
  | [] => none
  | x :: rest =>
    match least rest with
    | some y => if y.1.booking.Before x.1.booking then some y else some x
    | none => some x

/-- The next ticket among those due by a given time, and its place among all. -/
def next? (p : Pile) (limit : Duration) : Option (Ticket × Nat) :=
  least (p.tickets.zipIdx.filter fun x => x.1.booking.due ≤ limit)

def take? (p : Pile) (limit : Duration) : Option (TaskKind × Pile) :=
  (p.next? limit).bind fun (_, place) => (swapRemove p.tickets place).map fun (x, rest) =>
    (x.kind, { p with now := max p.now x.booking.due, tickets := rest })

def ask (p : Pile) : Request → Answer × Pile
  | .schedule kind after => (.done, p.schedule kind after)
  | .cancel kind =>
    (.cancelled (decide ((p.cancel kind).tickets.length ≠ p.tickets.length)), p.cancel kind)
  | .cancelAll => (.done, { p with tickets := [] })
  | .take limit =>
    match p.take? limit with
    | some (kind, rest) => (.taken (some kind), rest)
    | none => (.taken none, p)
  | .settle time => (.done, { p with now := max p.now time })

theorem least_eq_none_iff {xs : List (Ticket × Nat)} : least xs = none ↔ xs = [] := by
  cases xs with
  | nil => simp [least]
  | cons x rest =>
    simp only [least, reduceCtorEq, iff_false]
    split
    · split <;> exact nofun
    · exact nofun

theorem least_spec {xs : List (Ticket × Nat)} (found : least xs = some x) :
    x ∈ xs ∧ ∀ y ∈ xs, ¬y.1.booking.Before x.1.booking := by
  induction xs generalizing x with
  | nil => cases found
  | cons first rest ih =>
    cases known : least rest with
    | none =>
      simp only [least, known, Option.some.injEq] at found
      subst found
      obtain rfl := least_eq_none_iff.mp known
      refine ⟨List.mem_cons_self, fun y listed => ?_⟩
      obtain rfl := List.mem_singleton.mp listed
      exact fun before => before.asymm before
    | some y =>
      obtain ⟨listed, lowest⟩ := ih known
      by_cases sooner : y.1.booking.Before first.1.booking
      · simp only [least, known, if_pos sooner, Option.some.injEq] at found
        subst found
        refine ⟨List.mem_cons_of_mem _ listed, fun z there => ?_⟩
        rcases List.mem_cons.mp there with rfl | there
        · exact sooner.asymm
        · exact lowest z there
      · simp only [least, known, if_neg sooner, Option.some.injEq] at found
        subst found
        refine ⟨List.mem_cons_self, fun z there before => ?_⟩
        rcases List.mem_cons.mp there with rfl | there
        · exact before.asymm before
        · exact (before.split y.1.booking).elim (lowest z there) sooner

theorem next?_eq_none_iff {p : Pile} :
    p.next? limit = none ↔ ∀ x ∈ p.tickets, ¬x.booking.due ≤ limit := by
  rw [next?, least_eq_none_iff, List.filter_eq_nil_iff]
  constructor
  · intro late x listed due
    obtain ⟨place, found⟩ := List.getElem?_of_mem listed
    exact late _ (List.mk_mem_zipIdx_iff_getElem?.mpr found) (decide_eq_true due)
  · rintro late ⟨x, place⟩ there due
    have listed := List.mem_of_getElem? (List.mk_mem_zipIdx_iff_getElem?.mp there)
    exact late x listed (of_decide_eq_true due)

theorem next?_spec {p : Pile} (found : p.next? limit = some (x, place)) :
    p.tickets[place]? = some x ∧ x.booking.due ≤ limit ∧
      ∀ y ∈ p.tickets, y.booking.due ≤ limit → ¬y.booking.Before x.booking := by
  obtain ⟨there, lowest⟩ := least_spec found
  obtain ⟨there, due⟩ := List.mem_filter.mp there
  refine ⟨List.mk_mem_zipIdx_iff_getElem?.mp there, of_decide_eq_true due, ?_⟩
  intro y listed due'
  obtain ⟨place', found'⟩ := List.getElem?_of_mem listed
  have there' := List.mk_mem_zipIdx_iff_getElem?.mpr found'
  exact lowest _ (List.mem_filter.mpr ⟨there', decide_eq_true due'⟩)

/-- The tickets are the bookings of the agenda, one of each kind, in whatever order. -/
structure Holds (p : Pile) (a : Agenda) : Prop where
  now : p.now = a.now
  planned : p.planned = a.planned
  listed : ∀ x, x ∈ p.tickets ↔ a.plan x.kind = some x.booking
  single : p.tickets.Pairwise fun x y => x.kind ≠ y.kind

theorem holds_empty : Pile.empty.Holds .empty where
  now := rfl
  planned := rfl
  listed x := by simp [Pile.empty, Agenda.empty]
  single := .nil

namespace Holds

variable {p : Pile} {a : Agenda} (holds : p.Holds a)
include holds

/-- It does not matter how the tickets lie. -/
theorem perm {tickets : List Ticket} (other : tickets.Perm p.tickets) :
    Holds { p with tickets := tickets } a where
  now := holds.now
  planned := holds.planned
  listed x := other.mem_iff.trans (holds.listed x)
  single := holds.single.perm other.symm Ne.symm

theorem at_time (time : Duration) : Holds { p with now := time } { a with now := time } where
  now := rfl
  planned := holds.planned
  listed := holds.listed
  single := holds.single

theorem cancel (kind : TaskKind) :
    (p.cancel kind).Holds { a with plan := a.plan.put kind none } where
  now := holds.now
  planned := holds.planned
  listed x := by
    rw [Pile.cancel, List.mem_filter, holds.listed, Plan.put_none_eq_some, decide_eq_true_eq,
      and_comm]
  single := holds.single.filter _

/-- A ticket of a kind that has none is put with the others. -/
theorem push (free : a.plan kind = none) (booking : Booking) :
    Holds ⟨p.now, p.planned + 1, p.tickets ++ [⟨kind, booking⟩]⟩
      ⟨a.now, a.planned + 1, a.plan.put kind (some booking)⟩ := by
  have other : ∀ x ∈ p.tickets, x.kind ≠ kind := by
    rintro x listed rfl
    cases free.symm.trans ((holds.listed x).mp listed)
  refine ⟨holds.now, congrArg (· + 1) holds.planned, fun x => ?_, ?_⟩
  · rw [List.mem_append, List.mem_singleton]
    by_cases same : x.kind = kind
    · have out : x ∉ p.tickets := fun listed => other x listed same
      obtain ⟨_, booking'⟩ := x
      subst same
      simp [out, eq_comm]
    · have old : x ≠ ⟨kind, booking⟩ := fun new => same (congrArg Ticket.kind new)
      simp only [old, or_false, Plan.put_other _ same, holds.listed]
  · refine List.pairwise_append.mpr ⟨holds.single, List.pairwise_singleton _ _, ?_⟩
    intro x listed y last
    obtain rfl := List.mem_singleton.mp last
    exact other x listed

/-- To take a ticket out is to cancel its kind. -/
theorem remove {x : Ticket} {rest : List Ticket} (taken : (x :: rest).Perm p.tickets) :
    Holds { p with tickets := rest } { a with plan := a.plan.put x.kind none } := by
  have whole := holds.perm taken
  obtain ⟨first, -⟩ := List.pairwise_cons.mp whole.single
  have same : ({ p with tickets := x :: rest }.cancel x.kind).tickets = rest := by
    have kept : ∀ y ∈ rest, decide (y.kind ≠ x.kind) = true := fun y listed =>
      decide_eq_true (first y listed).symm
    rw [Pile.cancel, List.filter_cons_of_neg (by simp), List.filter_eq_self.mpr kept]
  have cancelled := whole.cancel x.kind
  rwa [Pile.cancel, show List.filter _ _ = rest from same] at cancelled

theorem schedule (kind : TaskKind) (after : Duration) :
    (p.schedule kind after).Holds
      ⟨a.now, a.planned + 1, a.plan.put kind (some ⟨a.now + after, a.planned + 1⟩)⟩ := by
  have pushed := (holds.cancel kind).push (Plan.put_self _ _ _) ⟨p.now + after, p.planned + 1⟩
  rw [Plan.put_put, ← holds.now, ← holds.planned] at pushed
  rw [← holds.now, ← holds.planned]
  exact pushed

theorem clear : Holds { p with tickets := [] } { a with plan := fun _ => none } where
  now := holds.now
  planned := holds.planned
  listed x := by simp
  single := .nil

theorem isSome_iff (kind : TaskKind) : (a.plan kind).isSome ↔ ∃ x ∈ p.tickets, x.kind = kind := by
  rw [Option.isSome_iff_exists]
  constructor
  · rintro ⟨booking, stands⟩
    exact ⟨⟨kind, booking⟩, (holds.listed _).mpr stands, rfl⟩
  · rintro ⟨x, listed, rfl⟩
    exact ⟨x.booking, (holds.listed x).mp listed⟩

theorem cancelled (kind : TaskKind) :
    decide ((p.cancel kind).tickets.length ≠ p.tickets.length) = (a.plan kind).isSome := by
  rw [Bool.eq_iff_iff, decide_eq_true_eq, holds.isSome_iff, Pile.cancel, ne_eq,
    List.length_filter_eq_length_iff]
  simp

theorem idle (late : ∀ x ∈ p.tickets, ¬x.booking.due ≤ limit) :
    ∀ kind e, a.plan kind = some e → ¬e.due ≤ limit := fun kind e stands =>
  late ⟨kind, e⟩ ((holds.listed _).mpr stands)

theorem isNext (listed : x ∈ p.tickets) (due : x.booking.due ≤ limit)
    (first : ∀ y ∈ p.tickets, y.booking.due ≤ limit →
      y.kind = x.kind ∨ x.booking.Before y.booking) :
    a.plan.IsNext limit x.kind x.booking where
  stands := (holds.listed x).mp listed
  due := due
  first other f stands due := first ⟨other, f⟩ ((holds.listed _).mpr stands) due

theorem isNext_of_next? (orderly : a.Orderly) (found : p.next? limit = some (x, place)) :
    p.tickets[place]? = some x ∧ a.plan.IsNext limit x.kind x.booking := by
  obtain ⟨there, due, lowest⟩ := next?_spec found
  have listed := List.mem_of_getElem? there
  refine ⟨there, holds.isNext listed due fun y listed' due' => ?_⟩
  by_cases same : y.kind = x.kind
  · exact .inl same
  · have apart : x.booking.number ≠ y.booking.number :=
      orderly.apart _ _ _ _ ((holds.listed x).mp listed) ((holds.listed y).mp listed')
        (Ne.symm same)
    exact .inr (Booking.before_of_not apart (lowest y listed' due'))

/-- What is due is there to be taken in some order. -/
theorem exists_inTurn (orderly : a.Orderly) (limit : Duration) :
    ∃ kinds, a.plan.InTurn limit kinds := by
  induction measure : p.tickets.length generalizing p a with
  | zero =>
    have empty := List.eq_nil_of_length_eq_zero measure
    exact ⟨[], Plan.inTurn_nil.mpr (holds.idle (by simp [empty]))⟩
  | succ length ih =>
    cases found : p.next? limit with
    | none => exact ⟨[], Plan.inTurn_nil.mpr (holds.idle (next?_eq_none_iff.mp found))⟩
    | some pick =>
      obtain ⟨x, place⟩ := pick
      obtain ⟨stands, next⟩ := holds.isNext_of_next? orderly found
      obtain ⟨rest, -, whole⟩ := swapRemove_perm stands
      have shorter : rest.length = length := Nat.succ.inj (whole.length_eq.trans measure)
      obtain ⟨kinds, inTurn⟩ := ih (holds.remove whole) (orderly.remove a.now x.kind) shorter
      exact ⟨x.kind :: kinds, Plan.inTurn_cons.mpr ⟨⟨x.booking, next⟩, inTurn⟩⟩

end Holds

theorem keepsAgenda : KeepsAgenda ask now Holds := by
  refine ⟨fun _ _ holds => holds.now, fun p a r holds orderly => ?_⟩
  cases r with
  | schedule kind after => exact ⟨_, .schedule kind after, holds.schedule kind after⟩
  | cancel kind =>
    have answer : (ask p (.cancel kind)).1 = .cancelled (a.plan kind).isSome :=
      congrArg Answer.cancelled (holds.cancelled kind)
    rw [answer]
    exact ⟨_, .cancel kind, holds.cancel kind⟩
  | cancelAll => exact ⟨_, .cancelAll, holds.clear⟩
  | take limit =>
    cases found : p.next? limit with
    | none =>
      simp only [ask, take?, found, Option.bind_none]
      exact ⟨a, .wait (holds.idle (next?_eq_none_iff.mp found)), holds⟩
    | some pick =>
      obtain ⟨x, place⟩ := pick
      obtain ⟨stands, next⟩ := holds.isNext_of_next? orderly found
      obtain ⟨rest, taken, whole⟩ := swapRemove_perm stands
      simp only [ask, take?, found, Option.bind_some, taken, Option.map_some]
      refine ⟨_, .take next, ?_⟩
      rw [← holds.now]
      exact (holds.remove whole).at_time _
  | settle time =>
    refine ⟨_, .settle time, ?_⟩
    rw [← holds.now]
    exact holds.at_time _

end Pile
end Parley
