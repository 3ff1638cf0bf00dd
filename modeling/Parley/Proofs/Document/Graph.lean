import Parley.Document.Whole
import Parley.Proofs.Document.Record

/-! Graphs are read as they were saved. -/
namespace Parley

open Ron

theorem Comparison.faithful : (Codec.enumerated Comparison).Faithful := by
  apply Codec.faithful_enumerated
  all_goals
    intro comparison
    cases comparison <;> decide

theorem TextAlign.faithful : (Codec.enumerated TextAlign).Faithful := by
  apply Codec.faithful_enumerated
  all_goals
    intro align
    cases align <;> decide

theorem BoxTransition.faithful : (Codec.enumerated BoxTransition).Faithful := by
  apply Codec.faithful_enumerated
  all_goals
    intro transition
    cases transition <;> decide

theorem BackgroundTransition.faithful : (Codec.enumerated BackgroundTransition).Faithful := by
  apply Codec.faithful_enumerated
  all_goals
    intro transition
    cases transition <;> decide

theorem Value.faithful : Value.codec.Faithful := by
  apply Codec.faithful_ofVariants
  · decide
  · simp only [List.forall_mem_cons, List.not_mem_nil, false_imp_iff, implies_true, and_true]
    refine ⟨Codec.faithful_bool.variant ?_ _, Codec.faithful_int.variant ?_ _,
      Codec.faithful_float.variant ?_ _, Codec.faithful_string.variant ?_ _⟩
    all_goals
      rintro (_ | _ | _ | _) _ ⟨⟩
      rfl
  · intro depth v
    cases v <;> rfl

theorem Variable.faithful : Variable.codec.Faithful := by
  apply Schema.faithful
  · decide
  · intro v
    exact .slot Codec.faithful_string (.slot Value.faithful .done)

theorem Bindable.faithful [Inhabited α] {c : Codec α} (faithful : c.Faithful) :
    (Bindable.codec c).Faithful := by
  apply Schema.faithful
  · have names : AreNames ["active", "bound", "literal"] := by decide
    exact names
  · intro field
    exact .slot Codec.faithful_bool (.slot Codec.faithful_string.option (.slot faithful .done))

theorem Operands.faithful : Operands.codec.Faithful := by
  apply Codec.faithful_ofVariants
  · decide
  · simp only [List.forall_mem_cons, List.not_mem_nil, false_imp_iff, implies_true, and_true]
    refine ⟨(Bindable.faithful Codec.faithful_bool).pairVariant ?_ _ _,
      (Bindable.faithful Codec.faithful_int).pairVariant ?_ _ _,
      (Bindable.faithful Codec.faithful_float).pairVariant ?_ _ _,
      (Bindable.faithful Codec.faithful_string).pairVariant ?_ _ _⟩
    all_goals
      rintro (_ | _ | _ | _) _ _ ⟨⟩
      rfl
  · intro depth operands
    cases operands <;> rfl

theorem Condition.faithful : Condition.codec.Faithful := by
  apply Schema.faithful
  · decide
  · intro condition
    exact .slot (Bindable.faithful Comparison.faithful)
      (.slot (Bindable.faithful Codec.faithful_bool) (.slot Operands.faithful .done))

theorem Presentation.faithful : Presentation.codec.Faithful := by
  have number := Bindable.faithful Codec.faithful_float
  have text := Bindable.faithful Codec.faithful_string
  have flag := Bindable.faithful Codec.faithful_bool
  have color := Bindable.faithful Codec.faithful_color
  have texts := Bindable.faithful Codec.faithful_string.list
  apply Schema.faithful
  · decide
  · intro settings
    exact .slot Codec.faithful_bool <| .slot Codec.faithful_bool <| .slot Codec.faithful_bool <|
      .slot number <| .slot number <| .slot text <|
      .slot flag <| .slot flag <| .slot flag <| .slot color <| .slot text <|
      .slot (Bindable.faithful TextAlign.faithful) <| .slot flag <|
      .slot texts <| .slot flag <| .slot flag <| .slot texts <|
      .slot (Bindable.faithful BoxTransition.faithful) <| .slot color <| .slot text <|
      .slot color <| .slot text <| .slot text <|
      .slot (Bindable.faithful BackgroundTransition.faithful) .done

theorem Speaker.faithful : Speaker.codec.Faithful := by
  have flag := Bindable.faithful Codec.faithful_bool
  apply Schema.faithful
  · decide
  · intro speaker
    exact .slot (Bindable.faithful Codec.faithful_string) (.slot flag (.slot flag .done))

theorem NodeId.faithful : NodeId.codec.Faithful := Codec.faithful_string

theorem Choice.faithful : Choice.codec.Faithful := by
  apply Schema.faithful
  · decide
  · intro choice
    exact .slot (Bindable.faithful Codec.faithful_string) <| .slot Condition.faithful.list <|
      .slot (Bindable.faithful Codec.faithful_bool) <| .slot NodeId.faithful.option .done

theorem Dialogue.faithful : Dialogue.codec.Faithful := by
  apply Schema.faithful
  · decide
  · intro dialogue
    exact .slot NodeId.faithful <| .slot NodeId.faithful.option <| .slot Codec.faithful_string <|
      .slot Presentation.faithful <| .slot Speaker.faithful.list <| .slot Choice.faithful.list .done

theorem Branch.faithful : Branch.codec.Faithful := by
  apply Schema.faithful
  · decide
  · intro branch
    exact .slot Condition.faithful.list (.slot NodeId.faithful.option .done)

theorem Splitter.faithful : Splitter.codec.Faithful := by
  apply Schema.faithful
  · decide
  · intro splitter
    exact .slot NodeId.faithful <| .slot Branch.faithful.list <| .slot NodeId.faithful.option .done

theorem Interrupt.faithful : Interrupt.codec.Faithful := by
  apply Schema.faithful
  · decide
  · intro interrupt
    exact .slot NodeId.faithful (.slot NodeId.faithful.option .done)

theorem Node.faithful : Node.codec.Faithful := by
  apply Codec.faithful_ofVariants
  · decide
  · simp only [List.forall_mem_cons, List.not_mem_nil, false_imp_iff, implies_true, and_true]
    refine ⟨Dialogue.faithful.variant ?_ _, Splitter.faithful.variant ?_ _,
      Interrupt.faithful.variant ?_ _⟩
    all_goals
      rintro (_ | _ | _) _ ⟨⟩
      rfl
  · intro depth node
    cases node <;> rfl

theorem PlayRules.faithful : PlayRules.codec.Faithful := by
  apply Schema.faithful
  · decide
  · intro rules
    exact .slot Codec.faithful_bool <| .slot Codec.faithful_bool <| .slot Codec.faithful_bool <|
      .slot BoxTransition.faithful .done

namespace Graph

/-- The table of nodes is filled anew from the list that is written. -/
theorem faithful : Graph.codec.Faithful := by
  apply Schema.faithful
  · decide
  · intro g
    have filled : Restores g ⟨g.entry, g.rules, g.declarations, .ofList g.nodeList⟩ [] := by
      rw [nodeList, Registry.ofList_entries]
      exact .done
    exact .slot NodeId.faithful.option <| .slot PlayRules.faithful <|
      .slot Variable.faithful.list <| .slot Node.faithful.list filled

end Graph

theorem Codec.Faithful.parse_self {c : Codec α} (faithful : c.Faithful) (a : α) :
    c.parse (c.text a) = .ok a := by
  obtain ⟨first, tail, written, opens⟩ := faithful.starts 0 a
  have unmarked (fuel : Nat) :
      head (fuel + 1) .plain (c.write 0 a) = .ok (.plain, c.write 0 a) := by
    have skips := skip_solid opens.1 tail
    rw [written]
    simp only [head, skips, ok_bind]
    split
    case h_1 same => exact absurd (List.cons.inj same).1 opens.2.2.2
    case h_2 => rfl
  have read := faithful.reads 0 a .start .nothing
  rw [List.append_nil] at read
  simp only [Codec.parse, Codec.text, String.toList_ofList, unmarked, ok_bind, read]
  rfl

/-- A graph that is saved and read again is the same graph, and is saved as the same text. -/
theorem Graph.parse_toText (g : Graph) : Graph.parse g.toText = .ok g ∧
    (Graph.parse g.toText).map Graph.toText = .ok g.toText := by
  have read : Graph.parse g.toText = .ok g := Graph.faithful.parse_self g
  constructor
  · exact read
  · rw [read]
    rfl

end Parley
