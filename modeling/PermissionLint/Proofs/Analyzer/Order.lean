/-
The violations of a run by the rule for permissions are in strict order.

In one file no two violations are at the same line and column, for no two findings are
(`Permission.positions_nodup`).  Files below a folder are reported by paths that differ.  So the
order of violations leaves no ties (`violations_increase`).
-/
import PermissionLint.Proofs.Analyzer.Result
import PermissionLint.Proofs.Permission.Distinct

namespace PermissionLint

open Std PermissionLint.Text PermissionLint.Model

/-- The violation is before the other one, by file, line and column. -/
def Violation.Precedes (v w : Violation) : Prop :=
  Path.compare v.location.file.toList w.location.file.toList = .lt ∨
    Path.compare v.location.file.toList w.location.file.toList = .eq ∧
      (v.location.line < w.location.line ∨
        v.location.line = w.location.line ∧ v.location.column < w.location.column)

namespace Analyzer

/-! ## Ties -/

lemma isTied_inOrder_iff {v w : Violation} :
    isTied inOrder v w = true ↔
      compareFiles v w = .eq ∧ v.location.line = w.location.line ∧
        v.location.column = w.location.column := by
  have hswap : compareFiles w v = (compareFiles v w).swap := OrientedCmp.eq_swap
  simp only [compareFiles] at hswap ⊢
  simp only [isTied, inOrder, hswap]
  cases Path.compare v.location.file.toList w.location.file.toList with
  | lt => simp
  | gt => simp
  | eq =>
    simp only [Ordering.swap, Bool.and_eq_true, Bool.or_eq_true, decide_eq_true_eq, beq_iff_eq,
      true_and]
    omega

/-- Violations in order precede each other unless they are tied. -/
lemma precedes_of_inOrder {v w : Violation} (h : inOrder v w = true)
    (hne : isTied inOrder v w = false) : v.Precedes w := by
  have hne : ¬(compareFiles v w = .eq ∧ v.location.line = w.location.line ∧
      v.location.column = w.location.column) := by
    rw [← isTied_inOrder_iff, hne]
    exact Bool.false_ne_true
  rw [inOrder] at h
  rw [compareFiles] at hne
  rw [Violation.Precedes]
  split at h
  · next hlt => exact .inl hlt
  · cases h
  · next heq =>
    simp only [Bool.or_eq_true, decide_eq_true_eq, Bool.and_eq_true, beq_iff_eq] at h
    refine .inr ⟨heq, ?_⟩
    simp only [heq, true_and] at hne
    omega

/-- Sorting violations without ties gives a strict order. -/
lemma precedes_mergeSort {l : List Violation}
    (h : l.Pairwise fun v w => isTied inOrder v w = false) :
    (l.mergeSort inOrder).Pairwise Violation.Precedes := by
  have hsymm : ∀ {v w : Violation}, isTied inOrder v w = false → isTied inOrder w v = false := by
    intro v w hvw
    rw [isTied, Bool.and_comm]
    exact hvw
  have hsorted := (isOrder_inOrder.isStableSort_mergeSort l).sorted
  have hdistinct := h.perm (List.mergeSort_perm l inOrder).symm hsymm
  exact (hsorted.and hdistinct).imp fun hvw => precedes_of_inOrder hvw.1 hvw.2

/-! ## Violations of one file -/

lemma parse_of_readFile {f : Found} {text : List Char} {m : Module}
    (h : readFile f = .ok (text, m)) : Module.parse (String.ofList text) = .ok m := by
  obtain ⟨bytes, -, h⟩ := readFile_eq_ok_iff.1 h
  rw [readModule] at h
  split at h
  · cases h
  · split at h
    · cases h
    · next hparse =>
      cases h
      exact hparse

variable {c : Config} {base : Path} {f : Found} {o : Permission.Options}

/-- The path that a file is reported by. -/
def pathBelow (base : Path) (f : Found) : Path := (f.path.stripPrefix? base).getD f.path

lemma file_of_mem_ruleViolations {v : Violation}
    (hv : v ∈ ruleViolations c base f (Permission.rule o)) :
    v.location.file.toList = pathBelow base f := by
  rw [ruleViolations] at hv
  split at hv
  · rw [findings] at hv
    split at hv
    · obtain ⟨w, hw, rfl⟩ := List.mem_map.1 hv
      rw [location_withSeverity, Permission.file_of_mem_violations hw, String.toList_ofList]
      rfl
    · exact absurd hv List.not_mem_nil
  · exact absurd hv List.not_mem_nil

/-- No two violations of a file by the rule for permissions are tied. -/
lemma pairwise_ruleViolations (c : Config) (base : Path) (f : Found) (o : Permission.Options) :
    (ruleViolations c base f (Permission.rule o)).Pairwise
      fun v w => isTied inOrder v w = false := by
  have hnodup : ((ruleViolations c base f (Permission.rule o)).map
      fun v => (v.location.line, v.location.column)).Nodup := by
    rw [ruleViolations]
    split
    · next text m hread =>
      rw [findings]
      split
      · have hplaces := Permission.places_nodup (parse_of_readFile hread) o
          (FileContext.of f.path text base)
        simp only [List.map_map, Function.comp_def, location_withSeverity]
        exact hplaces
      · exact List.nodup_nil
    · exact List.nodup_nil
  rw [List.Nodup, List.pairwise_map] at hnodup
  refine hnodup.imp fun {v w} hne => Bool.eq_false_iff.2 fun htied => hne ?_
  obtain ⟨-, hline, hcolumn⟩ := isTied_inOrder_iff.1 htied
  rw [hline, hcolumn]

/-! ## Violations of all files -/

/-- Files are reported by paths that differ. -/
lemma pairwise_sourceFiles {a : Analyzer} {fs : FileSystem} {files : List Found}
    (hproper : fs.top.IsProper) (hfiles : a.sourceFiles fs = .ok files) :
    files.Pairwise fun f g =>
      Path.compare (pathBelow (a.base fs) f) (pathBelow (a.base fs) g) ≠ .eq := by
  rcases sourceFiles_cases hfiles with ⟨bytes, -, rfl⟩ | ⟨entries, found, hget, hfound, rfl⟩
  · exact List.pairwise_singleton _ _
  · have hwalk := walksBelow_of_discover hproper hfound
    rw [base_of_folder hget]
    refine (select_sorted hwalk).imp_of_mem fun {f g} hf hg hlt heq => ?_
    have hf := hwalk.below f (List.mem_of_mem_filter (List.mem_mergeSort.1 hf))
    have hg := hwalk.below g (List.mem_of_mem_filter (List.mem_mergeSort.1 hg))
    -- without the folder, paths are compared as they were with it
    have hsame : Path.compare (pathBelow a.root f) (pathBelow a.root g)
        = Path.compare f.path g.path := compare_relativePath hf hg
    rw [heq, hlt] at hsame
    cases hsame

/-- No two violations of a run by the rule for permissions are tied. -/
lemma pairwise_violationsIn {a : Analyzer} (hrules : a.rules = [Permission.rule o])
    {fs : FileSystem} {files : List Found} (hproper : fs.top.IsProper)
    (hfiles : a.sourceFiles fs = .ok files) :
    (a.violationsIn (a.base fs) files).Pairwise fun v w => isTied inOrder v w = false := by
  rw [violationsIn_of_single hrules, List.pairwise_flatMap]
  refine ⟨fun f _ => pairwise_ruleViolations _ _ f o, ?_⟩
  refine (pairwise_sourceFiles hproper hfiles).imp fun {f g} hne v hv w hw => ?_
  refine Bool.eq_false_iff.2 fun htied => hne ?_
  obtain ⟨hfiles, -⟩ := isTied_inOrder_iff.1 htied
  rwa [compareFiles, file_of_mem_ruleViolations hv, file_of_mem_ruleViolations hw] at hfiles

/-- **No two findings in a module are at the same position, so the violations of a run by the rule
for permissions are in strict order.** -/
theorem violations_increase :
    (∀ (source : String) (m : Module), Module.parse source = .ok m →
        ((Permission.checkModule m).map (·.position)).Nodup) ∧
      ∀ (a : Analyzer) (o : Permission.Options) (fs : FileSystem) (report : Report),
        a.rules = [Permission.rule o] → fs.top.IsProper → (a.analyze fs).result = .ok report →
        report.violations.Pairwise Violation.Precedes := by
  refine ⟨fun source m => Permission.positions_nodup, ?_⟩
  intro a o fs report hrules hproper hresult
  obtain ⟨files, hfiles, rfl⟩ := exists_sourceFiles hresult
  exact precedes_mergeSort (pairwise_violationsIn hrules hproper hfiles)

set_option maxRecDepth 100000 in
/-- Two classes, of which the one inside is found last, and a file that is found after them but
comes first. -/
theorem violations_increase_three :
    let nested := "class A:\n  class B: permission_classes = []\n  permission_classes = ()\n".toList
    let single := "class A: permission_classes = []".toList
    let fs : FileSystem := { top := .folder [("p".toList, .folder
      [("b.py".toList, .file (Utf8.encode nested)),
        ("a".toList, .folder [("c.py".toList, .file (Utf8.encode single))])])] }
    let a : Analyzer := ⟨"/p".toList, Rule.ofConfig {}, [], {}, false⟩
    (∃ m, Module.parse (String.ofList nested) = .ok m ∧
        ((Permission.checkModule m).map (·.position)).Nodup) ∧
      ∃ report, (a.analyze fs).result = .ok report ∧
        (report.violations.map fun v => (v.location.file, v.location.line, v.location.column)).Perm
          [("b.py", 3, 3), ("b.py", 2, 12), ("a/c.py", 1, 10)] ∧
        report.violations.Pairwise Violation.Precedes := by
  intro nested single fs a
  have hproper : fs.top.IsProper := ⟨by decide +kernel, by decide +kernel⟩
  constructor
  · have hok : (Module.parse (String.ofList nested)).isOk = true := by decide +kernel
    cases hparse : Module.parse (String.ofList nested) with
    | error e =>
      rw [hparse] at hok
      cases hok
    | ok m => exact ⟨m, rfl, violations_increase.1 _ m hparse⟩
  · let found : List Found :=
      [⟨"/p/b.py".toList, Utf8.encode nested⟩, ⟨"/p/a/c.py".toList, Utf8.encode single⟩]
    have hfiles : a.sourceFiles fs = .ok (a.select found) := rfl
    have haccess : a.HasAccess found := by
      intro f hf _ _
      simp only [found, List.mem_cons, List.not_mem_nil, or_false] at hf
      obtain rfl | rfl := hf <;> exact ⟨_, rfl⟩
    have hresult : (a.analyze fs).result = .ok (a.reportOn (a.base fs) (a.select found)) := by
      rw [result_analyze, reportedFiles_of_lenient rfl (fun f hf => haccess.of_mem_select hf) hfiles]
      rfl
    have hselect : (a.select found).Perm found := List.mergeSort_perm _ _
    have hplaces : (a.violationsIn (a.base fs) found).map
        (fun v => (v.location.file, v.location.line, v.location.column))
          = [("b.py", 3, 3), ("b.py", 2, 12), ("a/c.py", 1, 10)] := by
      decide +kernel
    refine ⟨_, hresult, ?_, violations_increase.2 a (.ofConfig {}) fs _ rfl hproper hresult⟩
    rw [← hplaces]
    exact ((List.mergeSort_perm _ _).trans (hselect.flatMap_right _)).map _

end Analyzer

end PermissionLint
