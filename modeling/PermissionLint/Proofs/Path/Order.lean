/-
The order of paths.

Paths are compared component by component, so that the comparison is transitive, any two paths can
be compared, and paths are tied only if they have the same components.  Components that two paths
begin with alike do not count (`compare_of_components_append`).
-/
import Mathlib.Data.List.Basic
import PermissionLint.Path

namespace PermissionLint.Path

open Std

/-! ## Names and components -/

lemma compareNames_eq (a b : List Char) :
    compareNames a b = List.compareLex (compareOn Char.toNat) a b := by
  induction a generalizing b with
  | nil => cases b <;> rfl
  | cons x xs ih =>
    cases b with
    | nil => rfl
    | cons y ys =>
      rw [compareNames, List.compareLex_cons_cons, ih, compareOn]
      rcases Nat.lt_trichotomy x.toNat y.toNat with hlt | heq | hgt
      · rw [if_pos hlt, Nat.compare_eq_lt.2 hlt]
        rfl
      · rw [if_neg (by omega), if_neg (by omega), Nat.compare_eq_eq.2 heq]
        rfl
      · rw [if_neg (by omega), if_pos hgt, Nat.compare_eq_gt.2 hgt]
        rfl

instance : TransCmp compareNames := by
  have h : compareNames = List.compareLex (compareOn Char.toNat) := by
    funext a b
    exact compareNames_eq a b
  rw [h]
  infer_instance

instance : LawfulEqCmp compareNames where
  compare_self {a} := ReflCmp.compare_self
  eq_of_compare {a b} h := by
    induction a generalizing b with
    | nil =>
      cases b with
      | nil => rfl
      | cons y ys => cases h
    | cons x xs ih =>
      cases b with
      | nil => cases h
      | cons y ys =>
        rw [compareNames] at h
        split at h
        · cases h
        split at h
        · cases h
        obtain rfl : x = y := Char.toNat_inj.1 (by omega)
        rw [ih h]

/-- The name of a component, or nothing. -/
def nameOf : Component → List Char
  | .normal name => name
  | _ => []

lemma compareComponents_eq (a b : Component) :
    compareComponents a b
      = compareLex (compareOn componentRank)
          (fun a b => compareNames (nameOf a) (nameOf b)) a b := by
  cases a <;> cases b <;> rfl

instance : TransCmp fun a b => compareNames (nameOf a) (nameOf b) where
  eq_swap := OrientedCmp.eq_swap
  isLE_trans := TransCmp.isLE_trans

instance : TransCmp compareComponents := by
  have h : compareComponents = compareLex (compareOn componentRank)
      fun a b => compareNames (nameOf a) (nameOf b) := by
    funext a b
    exact compareComponents_eq a b
  rw [h]
  infer_instance

instance : LawfulEqCmp compareComponents where
  compare_self {a} := ReflCmp.compare_self
  eq_of_compare {a b} h := by
    cases a <;> cases b <;> simp_all [compareComponents, componentRank]

/-! ## Lists of components -/

lemma compareLists_eq (a b : List Component) :
    compareLists a b = List.compareLex compareComponents a b := by
  induction a generalizing b with
  | nil => cases b <;> rfl
  | cons x xs ih =>
    cases b with
    | nil => rfl
    | cons y ys =>
      rw [compareLists, List.compareLex_cons_cons, ih]
      cases compareComponents x y <;> rfl

instance : TransCmp Path.compare where
  eq_swap {p q} := by
    rw [Path.compare, Path.compare, compareLists_eq, compareLists_eq]
    exact OrientedCmp.eq_swap
  isLE_trans {p q r} := by
    rw [Path.compare, Path.compare, Path.compare, compareLists_eq, compareLists_eq, compareLists_eq]
    exact TransCmp.isLE_trans

/-- Only paths with the same components are tied. -/
lemma compare_eq_eq_iff {p q : Path} : Path.compare p q = .eq ↔ p.components = q.components := by
  rw [Path.compare, compareLists_eq]
  exact LawfulEqCmp.compare_eq_iff_eq

lemma compareLists_append (a b c : List Component) :
    compareLists (a ++ b) (a ++ c) = compareLists b c := by
  induction a with
  | nil => rfl
  | cons x xs ih =>
    have hx : compareComponents x x = .eq := ReflCmp.compare_self
    rw [List.cons_append, List.cons_append, compareLists, hx]
    exact ih

/-- What two paths begin with alike does not count. -/
lemma compare_of_components_append {p q p' q' : Path} {front : List Component}
    (hp : p.components = front ++ p'.components) (hq : q.components = front ++ q'.components) :
    Path.compare p q = Path.compare p' q' := by
  rw [Path.compare, hp, hq, compareLists_append]
  rfl

end PermissionLint.Path
