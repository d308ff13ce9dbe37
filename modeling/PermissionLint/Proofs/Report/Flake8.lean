/-
What the lines of the format `flake8` tell.

A line begins with the file, and what the file is called is not marked in any way: it may hold
colons, blanks and digits, so that it looks like the beginning of another line.  But the end of a
line is the same for all violations of the rule for permissions, and before it stand two numbers, in
which there is no colon.  So a line is read from its end (`place_eq_of_flake8`), and as long as no
file has a line feed in its name, the lines are read one after the other (`places_of_renderFlake8`).
-/
import PermissionLint.Proofs.Permission.Violations
import PermissionLint.Proofs.Text.Separator
import PermissionLint.Report.Format

namespace PermissionLint

open PermissionLint.Text PermissionLint.Model

/-! ## Numbers -/

lemma toList_toString (n : Nat) : (toString n).toList = Nat.toDigits 10 n := by
  rw [Nat.toString_eq_ofList_toDigits, String.toList_ofList]

/-- A number is written with digits only. -/
lemma not_mem_toString {c : Char} (hc : c.isDigit = false) (n : Nat) :
    c ∉ (toString n).toList := by
  intro h
  rw [toList_toString] at h
  rw [Nat.isDigit_of_mem_toDigits (by decide) (by decide) h] at hc
  cases hc

/-- A number is told by its digits. -/
lemma eq_of_toList_toString {m n : Nat} (h : (toString m).toList = (toString n).toList) : m = n := by
  rw [toList_toString, toList_toString] at h
  have hvalue := congrArg (Nat.ofDigitChars 10 · 0) h
  rwa [Nat.ofDigitChars_toDigits (by decide) (by decide),
    Nat.ofDigitChars_toDigits (by decide) (by decide)] at hvalue

namespace Violation

/-! ## One line -/

/-- The file, the line and the column of a violation. -/
def place (v : Violation) : String × Nat × Nat :=
  (v.location.file, v.location.line, v.location.column)

/-- The violation is one of the rule for permissions, in some file that it looks at. -/
def IsOfPermission (v : Violation) : Prop :=
  ∃ o file m, v ∈ (Permission.check o file m).violations

/-- How all lines end. -/
def lineEnd : List Char := (": " ++ Permission.code ++ " " ++ Permission.summary).toList

variable {v v' : Violation}

/-- A line, taken apart at its last colons. -/
lemma toList_flake8 (h : v.IsOfPermission) :
    v.flake8.toList
      = (v.location.file.toList ++ ':' :: (toString v.location.line).toList)
          ++ ':' :: (toString v.location.column).toList ++ lineEnd := by
  obtain ⟨o, file, m, hv⟩ := h
  obtain ⟨d, -, rfl⟩ := Permission.exists_of_mem_violations hv
  simp [flake8, Location.describe, Permission.violationOf, lineEnd, String.toList_append]

/-- **A line tells its place**, whatever the file is called. -/
theorem place_eq_of_flake8 (h : v.IsOfPermission) (h' : v'.IsOfPermission)
    (hline : v.flake8 = v'.flake8) : v.place = v'.place := by
  have hchars := congrArg String.toList hline
  rw [toList_flake8 h, toList_flake8 h'] at hchars
  have hcolon : ∀ n : Nat, ':' ∉ (toString n).toList := not_mem_toString rfl
  -- from the end of the line: first the column, then the line
  obtain ⟨hfront, hcolumn⟩ :=
    append_cons_inj_of_back (hcolon _) (hcolon _) (List.append_cancel_right hchars)
  obtain ⟨hfile, hnumber⟩ := append_cons_inj_of_back (hcolon _) (hcolon _) hfront
  rw [place, place, String.toList_inj.1 hfile, eq_of_toList_toString hnumber,
    eq_of_toList_toString hcolumn]

/-- A violation is printed on one line if its file has no line feed in its name. -/
lemma lineFeed_not_mem_flake8 (h : v.IsOfPermission) (hfile : '\n' ∉ v.location.file.toList) :
    '\n' ∉ v.flake8.toList := by
  have hnumber : ∀ n : Nat, '\n' ∉ (toString n).toList := not_mem_toString rfl
  have hend : '\n' ∉ lineEnd := by decide
  rw [toList_flake8 h]
  simp only [List.mem_append, List.mem_cons, hfile, hnumber, hend, or_false, false_or]
  decide

end Violation

namespace Report

open Violation

/-! ## All lines -/

lemma toList_renderFlake8 (r : Report) :
    r.renderFlake8.toList = r.violations.flatMap fun v => v.flake8.toList ++ ['\n'] := by
  rw [renderFlake8, String.toList_join]
  simp [List.flatMap_map]

/-- **What is printed in the format `flake8` tells the file, the line and the column of each
violation of the rule for permissions**, as long as no file has a line feed in its name. -/
theorem places_of_renderFlake8 {r r' : Report}
    (hr : ∀ v ∈ r.violations, v.IsOfPermission ∧ '\n' ∉ v.location.file.toList)
    (hr' : ∀ v ∈ r'.violations, v.IsOfPermission ∧ '\n' ∉ v.location.file.toList)
    (h : r.renderFlake8 = r'.renderFlake8) :
    r.violations.map place = r'.violations.map place := by
  have hchars := congrArg String.toList h
  rw [toList_renderFlake8, toList_renderFlake8] at hchars
  generalize r.violations = vs at hr hchars
  generalize r'.violations = vs' at hr' hchars
  induction vs generalizing vs' with
  | nil =>
    cases vs' with
    | nil => rfl
    | cons v' vs' => simp at hchars
  | cons v vs ih =>
    cases vs' with
    | nil => simp at hchars
    | cons v' vs' =>
      obtain ⟨⟨hv, hfile⟩, hvs⟩ := List.forall_mem_cons.1 hr
      obtain ⟨⟨hv', hfile'⟩, hvs'⟩ := List.forall_mem_cons.1 hr'
      simp only [List.flatMap_cons, List.append_assoc, List.singleton_append] at hchars
      obtain ⟨hline, hrest⟩ := append_cons_inj_of_front (lineFeed_not_mem_flake8 hv hfile)
        (lineFeed_not_mem_flake8 hv' hfile') hchars
      rw [List.map_cons, List.map_cons, ih hvs vs' hvs' hrest,
        place_eq_of_flake8 hv hv' (String.toList_inj.1 hline)]

/-- A file whose name ends as a position does, reported as an error and as a warning. -/
theorem places_of_renderFlake8_colons :
    let statement : Stmt :=
      .assign [.name "permission_classes" ⟨2, 4⟩] (.list [] ⟨2, 25⟩) ⟨2, 4⟩
    let m : Module := ⟨[.classDef "V" [] [statement] ⟨1, 0⟩]⟩
    let file : FileContext := ⟨"/p/a.py:1:2".toList, [], false, "a.py:1:2".toList⟩
    let r : Report := ⟨(Permission.check {} file m).violations, 1⟩
    let r' : Report := ⟨(Permission.check { severity := .warning } file m).violations, 2⟩
    (∀ v ∈ r.violations ++ r'.violations, v.IsOfPermission ∧ '\n' ∉ v.location.file.toList) ∧
      r.renderFlake8 = r'.renderFlake8 ∧ r.violations ≠ r'.violations ∧
      r.violations.map place = r'.violations.map place ∧
      r.violations.map place = [("a.py:1:2", 2, 5)] := by
  intro statement m file r r'
  have hfile : ∀ o, ∀ v ∈ (Permission.check o file m).violations,
      v.IsOfPermission ∧ '\n' ∉ v.location.file.toList := by
    intro o v hv
    refine ⟨⟨o, file, m, hv⟩, ?_⟩
    rw [Permission.file_of_mem_violations hv]
    decide
  have hrendered : r.renderFlake8 = r'.renderFlake8 := by decide
  refine ⟨fun v hv => ?_, hrendered, by decide,
    places_of_renderFlake8 (hfile _) (hfile _) hrendered, by decide⟩
  rcases List.mem_append.1 hv with hv | hv
  · exact hfile _ v hv
  · exact hfile _ v hv

end Report

end PermissionLint
