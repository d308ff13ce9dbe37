/-
The violations of the rule for permissions: what the check finds and no comment suppresses, each
with the file that the rule looks at.
-/
import Mathlib.Data.List.Basic
import PermissionLint.Permission.Registry

namespace PermissionLint.Permission

open PermissionLint.Model

lemma violations_check {o : Options} {file : FileContext}
    (h : (o.allowInTests && file.isTest) = false) (m : Module) :
    (check o file m).violations
      = ((checkModule m).filter fun d => !isSuppressed file.text d).map
          (violationOf o.severity file) := by
  rw [check, h, if_neg (by simp), List.partition_eq_filter_filter]
  rfl

/-- Every violation is one of the findings of the check. -/
lemma exists_of_mem_violations {o : Options} {file : FileContext} {m : Module} {v : Violation}
    (hv : v ∈ (check o file m).violations) :
    ∃ d ∈ checkModule m, v = violationOf o.severity file d := by
  cases h : o.allowInTests && file.isTest with
  | true =>
    rw [check, h, if_pos rfl] at hv
    cases hv
  | false =>
    rw [violations_check h] at hv
    obtain ⟨d, hd, rfl⟩ := List.mem_map.1 hv
    exact ⟨d, List.mem_of_mem_filter hd, rfl⟩

/-- The rule reports the path of the file below the folder that is checked. -/
lemma file_of_mem_violations {o : Options} {file : FileContext} {m : Module} {v : Violation}
    (hv : v ∈ (check o file m).violations) : v.location.file = String.ofList file.relativePath := by
  obtain ⟨d, -, rfl⟩ := exists_of_mem_violations hv
  rfl

end PermissionLint.Permission
