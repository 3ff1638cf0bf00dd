import Parley.Condition
import Parley.Proofs.Number.Order

/-! Comparing numbers. Whatever the fields of a condition resolve to, its six comparisons speak of
one total order of integers and of one of floating-point numbers, NaN included. -/
namespace Parley

/-- Tests by the six comparisons that speak of one total order. -/
structure Comparison.Total (test : Comparison → α → α → Bool) : Prop where
  one : ∀ x y, [test .equal x y, test .less x y, test .greater x y].count true = 1
  notEqual : ∀ x y, test .notEqual x y = !test .equal x y
  greaterOrEqual : ∀ x y, test .greaterOrEqual x y = !test .less x y
  lessOrEqual : ∀ x y, test .lessOrEqual x y = !test .greater x y
  swap : ∀ x y, test .less y x = test .greater x y
  swap_equal : ∀ x y, test .equal y x = test .equal x y
  trans : ∀ x y z, test .lessOrEqual x y → test .lessOrEqual y z → test .lessOrEqual x z

namespace Comparison

theorem holds_lessOrEqual (o : Ordering) : lessOrEqual.holds o = o.isLE := by
  cases o <;> rfl

theorem holds_equal_iff {o : Ordering} : equal.holds o ↔ o = .eq := by
  cases o <;> decide

theorem holds_less_iff {o : Ordering} : less.holds o ↔ o = .lt := by
  cases o <;> decide

theorem total_of_order (cmp : α → α → Ordering) [Std.TransCmp cmp] :
    Total fun comparison x y => comparison.holds (cmp x y) where
  one := by
    intro x y
    cases cmp x y <;> rfl
  notEqual _ _ := rfl
  greaterOrEqual _ _ := rfl
  lessOrEqual _ _ := rfl
  swap := by
    intro x y
    have turned : cmp y x = (cmp x y).swap := Std.OrientedCmp.eq_swap
    rw [turned]
    cases cmp x y <;> rfl
  swap_equal := by
    intro x y
    have turned : cmp y x = (cmp x y).swap := Std.OrientedCmp.eq_swap
    rw [turned]
    cases cmp x y <;> rfl
  trans := by
    intro x y z first second
    rw [holds_lessOrEqual] at *
    exact Std.TransCmp.isLE_trans first second

end Comparison

namespace Condition

/-- A condition that compares two fields. What else is written in it stays. -/
def testing (c : Condition) (comparison : Comparison) (operands : Operands) : Condition :=
  { c with
    comparison := { c.comparison with literal := comparison }
    operands := operands }

/-- A comparison follows no variable: it is the one that is written. -/
theorem resolve_comparison (field : Bindable Comparison) (store : Store) :
    field.resolve store = field.literal := by
  have unread (name : String) : store.get? name = (none : Option Comparison) := by
    cases known : store.value? name <;> simp [Store.get?, known, Storable.ofValue?]
  cases named : field.source? <;> simp [Bindable.resolve, named, unread]

theorem holds_ints (c : Condition) (store : Store) (comparison : Comparison)
    (x y : Bindable Int64) : (c.testing comparison (.int x y)).holds store =
      comparison.holds (compareOn (fun field => (field.resolve store).toInt) x y) := by
  simp only [holds, testing, resolve_comparison, compareOn]

theorem holds_floats (c : Condition) (store : Store) (comparison : Comparison)
    (x y : Bindable Binary64) : (c.testing comparison (.float x y)).holds store =
      comparison.holds (compareOn (fun field => (field.resolve store).place) x y) := by
  simp only [holds, testing, resolve_comparison, compareOn, Binary64.order]

end Condition

/-- Whatever is written in the conditions besides, and whatever their fields read from the store:
they compare integers by one total order, and floating-point numbers by another. Integers are
ordered as such, floating-point numbers by value, and NaN equals NaN and lies below every number. -/
theorem numbers_totally_ordered (conditions : Comparison → Condition) (store : Store) :
    let ints comparison x y := ((conditions comparison).testing comparison (.int x y)).holds store
    let floats comparison x y :=
      ((conditions comparison).testing comparison (.float x y)).holds store
    (Comparison.Total ints ∧
      (∀ x y, ints .equal x y ↔ x.resolve store = y.resolve store) ∧
      ∀ x y, ints .less x y ↔ x.resolve store < y.resolve store) ∧
    Comparison.Total floats ∧
      (∀ x y, floats .equal x y ↔ x.resolve store = .nan ∧ y.resolve store = .nan ∨
        ∃ v, (x.resolve store).value? = some v ∧ (y.resolve store).value? = some v) ∧
      ∀ x y, floats .less x y ↔ x.resolve store = .nan ∧ y.resolve store ≠ .nan ∨
        ∃ v w, (x.resolve store).value? = some v ∧ (y.resolve store).value? = some w ∧ v < w := by
  simp only [Condition.holds_ints, Condition.holds_floats, Comparison.holds_equal_iff,
    Comparison.holds_less_iff]
  refine ⟨⟨Comparison.total_of_order _, ?_, ?_⟩, Comparison.total_of_order _, ?_, ?_⟩
  · intro x y
    rw [compareOn, compare_eq_iff_eq, Int64.toInt_inj]
  · intro x y
    rw [compareOn, compare_lt_iff_lt, Int64.lt_iff_toInt_lt]
  · intro x y
    exact Binary64.order_eq_eq_iff _ _
  · intro x y
    exact Binary64.order_eq_lt_iff _ _

end Parley
