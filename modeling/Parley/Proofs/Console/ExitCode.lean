import Mathlib.Data.List.Basic
import Parley.Console.Linter

/-! The exit code of the linter. A run fails if there is nothing at its target, or if a graph among
the files that it checks has a problem that counts: an error or, in a strict run, any problem. A
file that holds no graph is passed over, so it never makes a run fail. -/
namespace Parley.Console.Linter

variable {disk : Disk} {target path name : String}

theorem isGraphName_iff : isGraphName name ↔ ∃ stem, stem ≠ "" ∧ name = stem ++ ".ron" := by
  have backwards : "ron".toList.reverse = ['n', 'o', 'r'] := by decide
  simp only [isGraphName, backwards, Bool.and_eq_true, decide_eq_true_eq, beq_iff_eq]
  constructor
  · rintro ⟨longer, extension⟩
    have whole := List.takeWhile_append_dropWhile (p := (· ≠ '.')) (l := name.toList.reverse)
    have point := List.head?_dropWhile_not (· ≠ '.') name.toList.reverse
    have size := congrArg List.length whole
    rw [extension] at longer whole size
    rw [List.length_append, List.length_reverse, String.length_toList] at size
    match rest : name.toList.reverse.dropWhile (· ≠ '.') with
    | [] | [c] =>
      rw [rest] at size
      simp only [List.length_cons, List.length_nil] at size longer
      omega
    | c :: d :: before =>
      rw [rest] at whole point
      obtain rfl : c = '.' := by simpa using point
      refine ⟨String.ofList (d :: before).reverse, by simp, ?_⟩
      rw [← String.toList_inj, ← List.reverse_inj, ← whole]
      simp
  · rintro ⟨stem, some_, rfl⟩
    have letters : 0 < stem.length := by
      rw [← String.length_toList, List.length_pos_iff]
      simpa using some_
    have behind : (stem ++ ".ron").toList.reverse.takeWhile (· ≠ '.') = ['n', 'o', 'r'] := by
      simp [String.toList_append]
    rw [behind, String.length_append]
    exact ⟨Nat.add_lt_add_right letters 4, rfl⟩

/-- The files that a target stands for: itself, or every file below it with something in front of
the extension `ron`. -/
inductive Checks (disk : Disk) (target : String) : String → Prop
  | itself (file : disk.find target = .ok (.file content)) : Checks disk target target
  | below (folder : disk.find target = .ok (.folder place)) (listed : names ∈ disk.below place)
      (stemmed : stem ≠ "")
      (ends : (Disk.names (joinPath target names)).getLastD "" = stem ++ ".ron") :
      Checks disk target (joinPath target names)

theorem mem_graphFiles {paths : List String} : path ∈ graphFiles paths ↔
    path ∈ paths ∧ ∃ stem, stem ≠ "" ∧ (Disk.names path).getLastD "" = stem ++ ".ron" := by
  rw [graphFiles, List.mem_mergeSort, List.mem_filter, isGraphName_iff]

theorem targets?_of_lost (lost : disk.find target = .error obstacle) :
    targets? disk target = none := by
  simp only [targets?, lost]

/-- Where something is at the target, the files that it stands for are listed. -/
theorem targets?_of_found (found : disk.find target = .ok what) :
    ∃ paths, targets? disk target = some paths ∧ ∀ path, path ∈ paths ↔ Checks disk target path := by
  cases what with
  | file content =>
    refine ⟨[target], by simp only [targets?, found], fun path => ?_⟩
    rw [List.mem_singleton]
    constructor
    · rintro rfl
      exact .itself found
    · intro checks
      cases checks with
      | itself => rfl
      | below folder => cases found.symm.trans folder
  | folder place =>
    refine ⟨graphFiles ((disk.below place).map (joinPath target)), by simp only [targets?, found],
      fun path => ?_⟩
    rw [mem_graphFiles, List.mem_map]
    constructor
    · rintro ⟨⟨names, listed, rfl⟩, stem, stemmed, ends⟩
      exact .below found listed stemmed ends
    · intro checks
      cases checks with
      | itself file => cases found.symm.trans file
      | below folder listed stemmed ends =>
        cases found.symm.trans folder
        exact ⟨⟨_, listed, rfl⟩, _, stemmed, ends⟩

/-- A report counts a problem only for a graph that has it. -/
theorem check_counts (read : FileReader) (path : String) :
    (0 < (check read path).errors ↔
      ∃ g, read.load Graph.parse path = .ok g ∧ ∃ i ∈ g.lint, i.isError) ∧
    (0 < (check read path).warnings ↔
      ∃ g, read.load Graph.parse path = .ok g ∧ ∃ i ∈ g.lint, ¬i.isError) := by
  cases loaded : read.load Graph.parse path with
  | error fault => simp [check, loaded]
  | ok g => simp [check, loaded, reportOn, List.length_pos_iff]

theorem total_pos_iff (count : Report → Nat) (reports : List Report) :
    0 < reports.foldr (fun r n => count r + n) 0 ↔ ∃ r ∈ reports, 0 < count r := by
  induction reports with
  | nil => simp
  | cons r rest ih => rw [List.foldr_cons, Nat.add_pos_iff_pos_or_pos, ih, List.exists_mem_cons_iff]

/-- A graph has a problem that makes a run fail. -/
def Fails (strict : Prop) (g : Graph) : Prop :=
  (∃ i ∈ g.lint, i.isError) ∨ strict ∧ ∃ i ∈ g.lint, ¬i.isError

theorem exitCode_checkAll (read : FileReader) (strict : Bool) (paths : List String) :
    (checkAll read strict paths).exitCode ≠ 0 ↔
      ∃ path ∈ paths, ∃ g, read.load Graph.parse path = .ok g ∧ Fails strict g := by
  have code : (checkAll read strict paths).exitCode ≠ 0 ↔
      (∃ path ∈ paths, 0 < (check read path).errors) ∨
        strict ∧ ∃ path ∈ paths, 0 < (check read path).warnings := by
    simp only [checkAll, conclude, ite_ne_right_iff, total_pos_iff, List.mem_map,
      exists_exists_and_eq_and, ne_eq, Nat.one_ne_zero, not_false_eq_true, and_true]
  rw [code]
  constructor
  · rintro (⟨path, listed, counts⟩ | ⟨strictly, path, listed, counts⟩)
    · obtain ⟨g, loaded, issue⟩ := (check_counts read path).1.mp counts
      exact ⟨path, listed, g, loaded, .inl issue⟩
    · obtain ⟨g, loaded, issue⟩ := (check_counts read path).2.mp counts
      exact ⟨path, listed, g, loaded, .inr ⟨strictly, issue⟩⟩
  · rintro ⟨path, listed, g, loaded, issue | ⟨strictly, issue⟩⟩
    · exact .inl ⟨path, listed, (check_counts read path).1.mpr ⟨g, loaded, issue⟩⟩
    · exact .inr ⟨strictly, path, listed, (check_counts read path).2.mpr ⟨g, loaded, issue⟩⟩

theorem request_eq_ok_iff {args : List String} : request args = .ok (target, strict) ↔
    ∃ options, args = target :: options ∧ target ≠ "--help" ∧ target ≠ "-h" ∧
      options.contains "--strict" = strict := by
  cases args with
  | nil => simp [request]
  | cons first options =>
    simp only [request]
    split
    case isTrue help =>
      simp only [reduceCtorEq, false_iff]
      rintro ⟨_, same, notLong, notShort, -⟩
      obtain ⟨rfl, -⟩ := List.cons.inj same
      exact help.elim notLong notShort
    case isFalse other =>
      rw [Except.ok.injEq, Prod.mk.injEq]
      constructor
      · rintro ⟨rfl, rfl⟩
        exact ⟨options, rfl, not_or.mp other |>.1, not_or.mp other |>.2, rfl⟩
      · rintro ⟨_, same, -, -, rfl⟩
        obtain ⟨rfl, rfl⟩ := List.cons.inj same
        exact ⟨rfl, rfl⟩

/-- To be asked for nothing but help is no failure. -/
theorem exitCode_of_help {args : List String} (help : request args = .error outcome) :
    (run disk args).exitCode = 0 := by
  simp only [run, help]
  unfold request at help
  split at help
  · cases help
    rfl
  · split at help
    · cases help
      rfl
    · cases help

theorem exitCode_of_request {args : List String} (asked : request args = .ok (target, strict)) :
    (run disk args).exitCode ≠ 0 ↔ (∃ obstacle, disk.find target = .error obstacle) ∨
      ∃ path, Checks disk target path ∧
        ∃ g, disk.reader.load Graph.parse path = .ok g ∧ Fails strict g := by
  cases found : disk.find target with
  | error obstacle =>
    simp only [run, asked, targets?_of_lost found]
    exact iff_of_true Nat.one_ne_zero (.inl ⟨obstacle, rfl⟩)
  | ok what =>
    obtain ⟨paths, listed, checks⟩ := targets?_of_found found
    simp only [run, asked, listed, exitCode_checkAll, checks, reduceCtorEq, exists_false, false_or]

/-- A run fails if and only if it is asked to check something and either nothing is there, or some
graph among the files to be checked has an error or, in a strict run, any other problem. What else
lies among them, and whether it can be read at all, does not matter. -/
theorem exit_code_of_graphs (disk : Disk) (args : List String) :
    (run disk args).exitCode ≠ 0 ↔
      ∃ target options, args = target :: options ∧ target ≠ "--help" ∧ target ≠ "-h" ∧
        ((∃ obstacle, disk.find target = .error obstacle) ∨
          ∃ path, Checks disk target path ∧ ∃ g, disk.reader.load Graph.parse path = .ok g ∧
            Fails ("--strict" ∈ options) g) := by
  cases asked : request args with
  | error outcome =>
    refine iff_of_false (fun fails => fails (exitCode_of_help asked)) ?_
    rintro ⟨target, options, given, notLong, notShort, -⟩
    cases asked.symm.trans (request_eq_ok_iff.mpr ⟨options, given, notLong, notShort, rfl⟩)
  | ok what =>
    obtain ⟨target, strict⟩ := what
    obtain ⟨options, rfl, notLong, notShort, rfl⟩ := request_eq_ok_iff.mp asked
    rw [exitCode_of_request asked, List.contains_iff_mem]
    constructor
    · intro fails
      exact ⟨target, options, rfl, notLong, notShort, fails⟩
    · rintro ⟨_, _, same, -, -, fails⟩
      obtain ⟨rfl, rfl⟩ := List.cons.inj same
      exact fails

/-- The text of a graph whose only node has no id. -/
def namelessText : String := "(entry: Some(\"gate\"), nodes: [Interrupt((next: Some(\"door\")))])"

def namelessGate : Disk := .ofFiles [("gate.ron", namelessText)]

theorem decode_toUTF8 (text : String) : Disk.decode text.toUTF8 = .ok text := by
  have valid : String.fromUTF8? text.toUTF8 = some text := dif_pos text.isValidUTF8
  simp only [Disk.decode, valid]

theorem namelessGate_find :
    namelessGate.find "gate.ron" = .ok (.file namelessText.toUTF8) := by
  have parts : Disk.parts "gate.ron" = ["gate.ron"] := by decide +kernel
  have relative : ¬"gate.ron".startsWith "/" = true := by decide +kernel
  have there : namelessGate.at? ["work", "gate.ron"] = some (.file namelessText.toUTF8) := by
    simp [namelessGate, Disk.ofFiles, Disk.at?, Disk.names, parts]
  rw [Disk.find, if_neg (by decide), if_neg (by decide), if_neg (by decide), if_neg relative, parts]
  show namelessGate.walk (.folder ["work"]) ["gate.ron"] = _
  simp only [Disk.walk]
  rw [if_neg (by decide), if_neg (by decide), if_neg (by decide), List.singleton_append, there]

/-- A graph that fails to load passes, in a strict run too. -/
theorem nameless_gate_passes :
    Checks namelessGate "gate.ron" "gate.ron" ∧
      namelessGate.reader.load Graph.parse "gate.ron" =
        .error (.document (.missingField "id" "InterruptNode")) ∧
      (run namelessGate ["gate.ron"]).exitCode = 0 ∧
      (run namelessGate ["gate.ron", "--strict"]).exitCode = 0 := by
  have text : namelessGate.reader "gate.ron" = .ok namelessText := by
    simp only [Disk.reader, namelessGate_find, decode_toUTF8]
  have refused : (Graph.parse namelessText).map Graph.size =
      .error (.missingField "id" "InterruptNode") := by
    decide +kernel
  have broken : namelessGate.reader.load Graph.parse "gate.ron" =
      .error (.document (.missingField "id" "InterruptNode")) := by
    simp only [FileReader.load, text]
    cases loaded : Graph.parse namelessText with
    | error fault =>
      rw [loaded] at refused
      rw [Except.error.inj refused]
      rfl
    | ok g =>
      rw [loaded] at refused
      cases refused
  have passes (strict : Bool) :
      (checkAll namelessGate.reader strict ["gate.ron"]).exitCode = 0 := by
    refine Decidable.not_not.mp fun fails => ?_
    obtain ⟨path, listed, g, loaded, -⟩ := (exitCode_checkAll _ strict _).mp fails
    cases List.mem_singleton.mp listed
    cases broken.symm.trans loaded
  have listed : targets? namelessGate "gate.ron" = some ["gate.ron"] := by
    simp only [targets?, namelessGate_find]
  refine ⟨.itself namelessGate_find, broken, ?_, ?_⟩
  · have asked : request ["gate.ron"] = .ok ("gate.ron", false) := by decide
    simp only [run, asked, listed, passes]
  · have asked : request ["gate.ron", "--strict"] = .ok ("gate.ron", true) := by decide
    simp only [run, asked, listed, passes]

end Parley.Console.Linter
