import Parley.Proofs.Registry
import Parley.Variable.Store

/-! Stores under writes. A write that goes through puts one value in the place of another of the
same kind, so a store stays what its declarations and the writes since make it. -/
namespace Parley.Store

variable {a b : Store} {name wanted : String} {value : Value} {template : List Variable}

theorem write?_eq_some : a.write? name value = some b ↔
    a.kind? name = some value.kind ∧ b = ⟨a.slots.insert ⟨name, value⟩⟩ := by
  unfold write?
  split
  case isTrue same => simp [same, eq_comm]
  case isFalse other => simp [other]

theorem value?_of_write (written : a.write? name value = some b) :
    b.value? name = some value := by
  obtain ⟨-, rfl⟩ := write?_eq_some.mp written
  have found := Registry.find?_insert_self a.slots ⟨name, value⟩
  exact congrArg (Option.map Variable.value) found

/-- A write to one name leaves every other alone. -/
theorem value?_of_write_other (written : a.write? name value = some b) (other : name ≠ wanted) :
    b.value? wanted = a.value? wanted := by
  obtain ⟨-, rfl⟩ := write?_eq_some.mp written
  have found := Registry.find?_insert_other (x := ⟨name, value⟩) a.slots other
  exact congrArg (Option.map Variable.value) found

theorem kind?_of_write (written : a.write? name value = some b) (wanted : String) :
    b.kind? wanted = a.kind? wanted := by
  by_cases same : name = wanted
  · subst same
    rw [(write?_eq_some.mp written).1, kind?, value?_of_write written, Option.map_some]
  · rw [kind?, kind?, value?_of_write_other written same]

theorem mem_names_iff : wanted ∈ a.names ↔ (a.kind? wanted).isSome := by
  simp [names, Registry.names, kind?, value?, Registry.find?, List.find?_isSome]

/-- A write that goes through is one more declaration. -/
theorem write?_seed (written : (seed template).write? name value = some b) :
    b = seed (template ++ [⟨name, value⟩]) := by
  obtain ⟨-, rfl⟩ := write?_eq_some.mp written
  exact congrArg Store.mk (Registry.ofList_append_singleton template ⟨name, value⟩).symm

/-- Each variable has the value of its last declaration. -/
theorem value?_seed (template : List Variable) (wanted : String) :
    (seed template).value? wanted =
      (template.reverse.find? fun v => v.name = wanted).map Variable.value := by
  rw [value?, seed, Registry.find?_ofList]

theorem mem_names_seed : wanted ∈ (seed template).names ↔ wanted ∈ template.map Variable.name :=
  Registry.mem_names_ofList

/-- Two stores have the same values under some names. -/
def Agree (names : List String) (a b : Store) : Prop :=
  ∀ name ∈ names, a.value? name = b.value? name

variable {names fewer : List String}

theorem Agree.refl (names : List String) (a : Store) : a.Agree names a := fun _ _ => rfl

theorem Agree.mono (agree : a.Agree names b) (subset : fewer ⊆ names) : a.Agree fewer b :=
  fun name listed => agree name (subset listed)

/-- Nobody who reads other names notices a write. -/
theorem Agree.of_write (written : a.write? name value = some b) (unread : name ∉ names) :
    b.Agree names a := by
  intro wanted listed
  apply value?_of_write_other written
  rintro rfl
  exact unread listed

/-- A write to a name that two stores agree on goes through in both or in neither, and they still
agree. -/
theorem Agree.write? (agree : b.Agree names a) (listed : name ∈ names) (value : Value) :
    (a.write? name value = none ∧ b.write? name value = none) ∨
      ∃ a' b', a.write? name value = some a' ∧ b.write? name value = some b' ∧
        b'.Agree names a' := by
  have same : b.kind? name = a.kind? name := congrArg (Option.map Value.kind) (agree name listed)
  by_cases fits : a.kind? name = some value.kind
  · have first : a.write? name value = some ⟨a.slots.insert ⟨name, value⟩⟩ := if_pos fits
    have second : b.write? name value = some ⟨b.slots.insert ⟨name, value⟩⟩ :=
      if_pos (same.trans fits)
    refine .inr ⟨_, _, first, second, ?_⟩
    intro wanted listed
    by_cases here : name = wanted
    · subst here
      rw [value?_of_write first, value?_of_write second]
    · rw [value?_of_write_other first here, value?_of_write_other second here]
      exact agree wanted listed
  · exact .inl ⟨if_neg fits, if_neg (same ▸ fits)⟩

end Parley.Store
