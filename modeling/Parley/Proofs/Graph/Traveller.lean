import Parley.Graph.Traveller

/-! A traveller comes to rest where the move says, and stands there. Where it stood before shows in
nothing but the node that a move is asked to leave. -/
namespace Parley

/-- What follows an action starts from the state that the action leaves. -/
theorem run_bind (x : StateM σ α) (next : α → StateM σ β) (s : σ) :
    (x >>= next).run s = (next (x.run s).1).run (x.run s).2 := rfl

theorem run_get (next : σ → StateM σ α) (s : σ) : (get >>= next).run s = (next s).run s := rfl

namespace Traveller

variable (g : Graph) (store : Store) (t : Traveller)

theorem run_follow (hops : Nat) (target : Option NodeId) :
    (follow g store (hops + 1) target).run t =
      (g.travelWithin store hops target, ⟨(g.travelWithin store hops target).position⟩) := by
  induction hops generalizing t target with
  | zero =>
    unfold follow Graph.travelWithin
    cases target.bind g.node? with
    | none => rfl
    | some n =>
      cases n with
      | dialogue d => rfl
      | interrupt i => rfl
      | splitter s =>
        simp only
        cases s.exit store with
        | stall => rfl
        | onward next => rfl
  | succ hops ih =>
    unfold follow Graph.travelWithin
    cases target.bind g.node? with
    | none => rfl
    | some n =>
      cases n with
      | dialogue d => rfl
      | interrupt i => rfl
      | splitter s =>
        simp only
        cases s.exit store with
        | stall => rfl
        | onward next => exact ih ⟨some s.id⟩ next

theorem run_goTo (target : Option NodeId) :
    (goTo g store target).run t =
      (g.travel store target, ⟨(g.travel store target).position⟩) :=
  run_follow g store t Graph.hopLimit target

theorem run_proceed :
    (proceed g store).run t =
      (g.proceed store t.current, ⟨(g.proceed store t.current).position⟩) :=
  run_goTo g store t _

theorem run_choose? (index : Nat) :
    (choose? g store index).run t =
      (g.follow? store t.current index,
        ((g.follow? store t.current index).map fun landing => ⟨landing.position⟩).getD t) := by
  unfold choose? currentNode? Graph.follow?
  rw [run_get]
  cases t.current.bind g.node? with
  | none => rfl
  | some n =>
    cases n with
    | interrupt i => rfl
    | splitter s => rfl
    | dialogue d =>
      simp only
      cases written : d.choices[index]? with
      | none => rfl
      | some c =>
        have arrives := run_goTo g store t c.next
        show ((some ((goTo g store c.next).run t).1, ((goTo g store c.next).run t).2) :
          Option Landing × Traveller) = _
        rw [arrives]
        rfl

end Traveller
end Parley
