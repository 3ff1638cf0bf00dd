import Mathlib.Data.List.Induction
import Mathlib.Data.List.Nodup
import Parley.Registry

/-! What is found in a table: of all entries put in under a name, the last. Nothing else of the way
it was filled is left in it. -/
namespace Parley

open List in
/-- An entry stands beside the earlier ones of other names. -/
theorem insertByName_perm {name : α → String} {entries : List α}
    (sorted : Increasing name entries) (x : α) :
    insertByName name x entries ~ x :: entries.filter fun y => name y ≠ name x := by
  induction entries with
  | nil => exact .refl _
  | cons y rest ih =>
    obtain ⟨below, tail⟩ := List.pairwise_cons.mp sorted
    rw [insertByName]
    split
    case isTrue first =>
      have others : ∀ z ∈ y :: rest, decide (name z ≠ name x) = true := by
        intro z listed
        have behind : name x < name z := by
          rcases List.mem_cons.mp listed with rfl | listed
          · exact first
          · exact String.lt_trans first (below z listed)
        exact decide_eq_true fun same => String.lt_irrefl _ (same ▸ behind)
      rw [List.filter_eq_self.mpr others]
    case isFalse =>
      split
      case isTrue same =>
        have others : ∀ z ∈ rest, decide (name z ≠ name x) = true := by
          intro z listed
          exact decide_eq_true fun same' => String.lt_irrefl _ (same ▸ same' ▸ below z listed)
        rw [List.filter_cons_of_neg (by simpa using same.symm), List.filter_eq_self.mpr others]
      case isFalse different =>
        rw [List.filter_cons_of_pos (by simpa using Ne.symm different)]
        calc y :: insertByName name x rest
            ~ y :: x :: rest.filter fun z => name z ≠ name x := (ih tail).cons _
          _ ~ x :: y :: rest.filter fun z => name z ≠ name x := .swap ..

namespace Registry

variable {α : Type} {name : α → String} {x : α} {wanted : String}

@[simp] theorem find?_insert_self (r : Registry α name) (x : α) :
    (r.insert x).find? (name x) = some x := by
  show (insertByName name x r.entries).find? (fun y => name y = name x) = some x
  induction r.entries with
  | nil => simp [insertByName]
  | cons y rest ih =>
    rw [insertByName]
    split
    case isTrue => simp
    case isFalse =>
      split
      case isTrue => simp
      case isFalse different =>
        rw [List.find?_cons_of_neg (by simpa using Ne.symm different)]
        exact ih

theorem find?_insert_other (r : Registry α name) (other : name x ≠ wanted) :
    (r.insert x).find? wanted = r.find? wanted := by
  show (insertByName name x r.entries).find? (fun y => name y = wanted) =
    r.entries.find? (fun y => name y = wanted)
  induction r.entries with
  | nil => simp [insertByName, other]
  | cons y rest ih =>
    rw [insertByName]
    split
    case isTrue => rw [List.find?_cons_of_neg (by simpa using other)]
    case isFalse =>
      split
      case isTrue same =>
        rw [List.find?_cons_of_neg (by simpa using other),
          List.find?_cons_of_neg (by simpa [← same] using other)]
      case isFalse => rw [List.find?_cons, List.find?_cons, ih]

/-- No two entries share a name, so each is found under its own. -/
theorem find?_eq_some_iff {r : Registry α name} :
    r.find? wanted = some x ↔ x ∈ r.entries ∧ name x = wanted := by
  constructor
  · intro found
    exact ⟨List.mem_of_find?_eq_some found, by simpa using List.find?_some found⟩
  · rintro ⟨listed, rfl⟩
    obtain ⟨before, after, split⟩ := List.append_of_mem listed
    have sorted : Increasing name (before ++ x :: after) := split ▸ r.increasing
    refine List.find?_eq_some_iff_append.mpr ⟨by simp, before, after, split, fun y earlier => ?_⟩
    have below : name y < name x :=
      (List.pairwise_append.mp sorted).2.2 y earlier x List.mem_cons_self
    have other : name y ≠ name x := fun same => String.lt_irrefl _ (same ▸ below)
    simpa using other

/-- Entries of one name are one entry. -/
theorem eq_of_name {r : Registry α name} {y : α} (first : x ∈ r.entries) (second : y ∈ r.entries)
    (same : name x = name y) : x = y :=
  Option.some.inj ((find?_eq_some_iff.mpr ⟨first, same⟩).symm.trans
    (find?_eq_some_iff.mpr ⟨second, rfl⟩))

/-- It does not matter to a look-up how the entries lie. -/
theorem find?_of_perm {r : Registry α name} {entries : List α} (same : entries.Perm r.entries)
    (wanted : String) : (entries.find? fun x => name x = wanted) = r.find? wanted := by
  cases found : entries.find? fun x => name x = wanted with
  | none =>
    have missing : ∀ x ∈ r.entries, ¬decide (name x = wanted) = true := fun x listed =>
      List.find?_eq_none.mp found x (same.mem_iff.mpr listed)
    exact (List.find?_eq_none.mpr missing).symm
  | some x =>
    have named : name x = wanted := by simpa using List.find?_some found
    have listed : x ∈ r.entries := same.mem_iff.mp (List.mem_of_find?_eq_some found)
    exact (find?_eq_some_iff.mpr ⟨listed, named⟩).symm

theorem nodup_names (r : Registry α name) : r.names.Nodup := by
  refine List.pairwise_map.mpr (r.increasing.imp ?_)
  intro x y before same
  exact String.lt_irrefl _ (same ▸ before)

/-- Tables that answer every look-up alike are equal. -/
theorem eq_of_find? {r t : Registry α name} (alike : ∀ wanted, r.find? wanted = t.find? wanted) :
    r = t := by
  have listed (x : α) : x ∈ r.entries ↔ x ∈ t.entries := by
    have iff := (alike (name x)) ▸ @find?_eq_some_iff α name x (name x) r
    simpa [find?_eq_some_iff] using iff.symm
  have perm : r.entries.Perm t.entries :=
    (List.perm_ext_iff_of_nodup (List.Nodup.of_map name r.nodup_names)
      (List.Nodup.of_map name t.nodup_names)).mpr listed
  refine ext (perm.eq_of_pairwise (fun x y _ _ before after => ?_) r.increasing t.increasing)
  exact absurd after (String.lt_asymm before)

/-- One more entry replaces the earlier one of its name. -/
theorem ofList_append_singleton (xs : List α) (x : α) :
    (ofList (xs ++ [x]) : Registry α name) = (ofList xs).insert x := by
  simp only [ofList, List.foldl_append, List.foldl_cons, List.foldl_nil]

/-- Of all entries of a list that have a name, the last is found under it. -/
theorem find?_ofList (xs : List α) (wanted : String) :
    (ofList xs : Registry α name).find? wanted = xs.reverse.find? fun x => name x = wanted := by
  induction xs using List.reverseRecOn with
  | nil => rfl
  | append_singleton xs x ih =>
    rw [ofList_append_singleton, List.reverse_append, List.reverse_singleton, List.singleton_append]
    by_cases same : name x = wanted
    · subst same
      rw [find?_insert_self, List.find?_cons_of_pos (by simp)]
    · rw [find?_insert_other _ same, List.find?_cons_of_neg (by simpa using same), ih]

/-- Tables filled from two lists are equal if the lists agree on the entries of each name. -/
theorem ofList_eq {xs ys : List α}
    (sameOrder : ∀ wanted, (xs.filter fun x => name x = wanted) = ys.filter fun x => name x = wanted) :
    (ofList xs : Registry α name) = ofList ys := by
  apply eq_of_find?
  intro wanted
  have last (zs : List α) : (ofList zs : Registry α name).find? wanted =
      (zs.filter fun x => name x = wanted).reverse.head? := by
    rw [find?_ofList, ← List.filter_reverse, List.head?_filter]
  rw [last xs, last ys, sameOrder]

/-- The names of a table are those of the entries put in. -/
theorem mem_names_ofList {xs : List α} :
    wanted ∈ (ofList xs : Registry α name).names ↔ wanted ∈ xs.map name := by
  have found : wanted ∈ (ofList xs : Registry α name).names ↔
      ((ofList xs : Registry α name).find? wanted).isSome := by
    simp [names, find?, List.find?_isSome, List.mem_map]
  rw [found, find?_ofList, List.find?_isSome]
  simp

end Registry
end Parley
