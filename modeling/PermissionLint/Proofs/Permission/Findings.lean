/-
What the check for permissions finds in a module, said without a visitor.

`LacksPermission` describes the statements that are reported: an assignment of a list or a tuple to
the one name `permission_classes`, with no bare `IsAuthenticated` among the elements.  A class has
the findings of the statements directly in its body, and the check gives the findings of all classes
of the module, each class before the classes inside it (`checkModule_eq_findings_classes`).
-/
import PermissionLint.Permission.Check
import PermissionLint.Proofs.Model.Statements

namespace PermissionLint.Permission

open PermissionLint.Source PermissionLint.Model

/-- The statement sets the permissions of a class without requiring authentication. -/
inductive LacksPermission : Stmt → Prop where
  /-- The permissions are a list. -/
  | list {elts : List Expr} {p q r : Position}
      (h : ∀ place, Expr.name "IsAuthenticated" place ∉ elts) :
      LacksPermission (.assign [.name "permission_classes" p] (.list elts q) r)
  /-- The permissions are a tuple. -/
  | tuple {elts : List Expr} {p q r : Position}
      (h : ∀ place, Expr.name "IsAuthenticated" place ∉ elts) :
      LacksPermission (.assign [.name "permission_classes" p] (.tuple elts q) r)

lemma isName_eq_true_iff {id : String} {e : Expr} : e.isName id = true ↔ ∃ p, e = .name id p := by
  cases e with
  | name x p => simp [Expr.isName]
  | _ => simp [Expr.isName]

/-- No element of a list is the given name. -/
lemma any_isName_eq_false_iff {id : String} {elts : List Expr} :
    elts.any (·.isName id) = false ↔ ∀ p, Expr.name id p ∉ elts := by
  rw [List.any_eq_false]
  constructor
  · intro h p hp
    exact h _ hp (isName_eq_true_iff.2 ⟨p, rfl⟩)
  · intro h e he hname
    obtain ⟨p, rfl⟩ := isName_eq_true_iff.1 hname
    exact h p he

lemma lacksRequired_eq_true_iff {targets : List Expr} {value : Expr} (p : Position) :
    lacksRequired targets value = true ↔ LacksPermission (.assign targets value p) := by
  constructor
  · intro h
    match targets with
    | [] | _ :: _ :: _ => simp [lacksRequired] at h
    | [target] =>
      rw [lacksRequired, Bool.and_eq_true, isName_eq_true_iff] at h
      obtain ⟨⟨q, rfl⟩, h⟩ := h
      cases value with
      | list elts r =>
        exact .list (any_isName_eq_false_iff.1 (Bool.not_eq_true' _ ▸ h))
      | tuple elts r =>
        exact .tuple (any_isName_eq_false_iff.1 (Bool.not_eq_true' _ ▸ h))
      | _ => simp [Expr.elements?] at h
  · intro h
    cases h with
    | list h | tuple h =>
      have hnone := any_isName_eq_false_iff.2 h
      simpa [lacksRequired, Expr.isName, Expr.elements?, attributeName, required] using hnone

instance : DecidablePred LacksPermission
  | .assign targets value p =>
    decidable_of_iff (lacksRequired targets value = true) (lacksRequired_eq_true_iff p)
  | .classDef .. | .functionDef .. | .annAssign .. | .compound .. | .other .. => .isFalse nofun

/-- A statement is diagnosed at its own position, if it lacks the permission. -/
lemma diagnose_eq (s : Stmt) : diagnose s = if LacksPermission s then some ⟨s.pos⟩ else none := by
  cases s with
  | assign targets value p =>
    rw [diagnose]
    exact if_congr (lacksRequired_eq_true_iff p) rfl rfl
  | _ => exact (if_neg nofun).symm

/-- What is wrong with the statements directly in a class, in their order. -/
def findingsOf (c : ClassDef) : List Diagnostic :=
  (c.body.filter LacksPermission).map fun s => ⟨s.pos⟩

lemma filterMap_diagnose (body : List Stmt) :
    body.filterMap diagnose = (body.filter LacksPermission).map fun s => ⟨s.pos⟩ := by
  induction body with
  | nil => rfl
  | cons s body ih =>
    rw [List.filterMap_cons, diagnose_eq, ih]
    by_cases h : LacksPermission s
    · simp [h]
    · simp [h]

/-- The check writes down the findings of the classes that are announced, and nothing else. -/
lemma collector_eq_writer :
    collector = Visitor.writer fun event => event.class?.toList.flatMap findingsOf := by
  funext event descend found
  cases event with
  | classDef s =>
    cases s with
    | classDef name bases body p =>
      simp [collector, diagnoseBody, filterMap_diagnose, Event.class?, Stmt.class?, findingsOf]
    | _ => simp [collector, diagnoseBody, Event.class?, Stmt.class?]
  | _ => simp [collector, Event.class?]

lemma checkModule_eq_flatMap (m : Module) : checkModule m = m.classes.flatMap findingsOf := by
  rw [checkModule, collector_eq_writer, Visitor.writer_visitModule, List.nil_append,
    ← filterMap_class?_module_announced]
  generalize m.announced = events
  induction events with
  | nil => rfl
  | cons event events ih =>
    rw [List.flatMap_cons, ih, List.filterMap_cons]
    cases event.class? <;> simp

/-- **The check of a module gives the findings of its classes, each class before the ones inside
it.**  The findings of a class and of the classes inside it stand together, its own first. -/
theorem checkModule_eq_findings_classes (m : Module) :
    checkModule m = m.classes.flatMap findingsOf ∧
      ∀ c ∈ m.classes, findingsOf c ++ c.inner.flatMap findingsOf <:+: checkModule m := by
  refine ⟨checkModule_eq_flatMap m, ?_⟩
  intro c hc
  obtain ⟨before, after, h⟩ := cons_inner_isInfix_classes hc
  refine ⟨before.flatMap findingsOf, after.flatMap findingsOf, ?_⟩
  rw [checkModule_eq_flatMap, ← h]
  simp

/-- A class that is opened before the assignment of the class around it reports after it. -/
theorem checkModule_eq_findings_classes_nested :
    let inner : Stmt := .classDef "Inner" [.name "APIView" ⟨2, 16⟩]
      [.assign [.name "permission_classes" ⟨3, 8⟩] (.list [.name "AllowAny" ⟨3, 30⟩] ⟨3, 29⟩) ⟨3, 8⟩]
      ⟨2, 4⟩
    let outer : ClassDef := ⟨"Outer", [.name "APIView" ⟨1, 12⟩],
      [inner, .assign [.name "permission_classes" ⟨4, 4⟩] (.tuple [] ⟨4, 25⟩) ⟨4, 4⟩], ⟨1, 0⟩⟩
    let m : Module := ⟨[.classDef outer.name outer.bases outer.body outer.pos]⟩
    outer ∈ m.classes ∧ checkModule m = [⟨⟨4, 4⟩⟩, ⟨⟨3, 8⟩⟩] ∧
      findingsOf outer ++ outer.inner.flatMap findingsOf <:+: checkModule m := by
  intro inner outer m
  have hmem : outer ∈ m.classes := List.mem_cons_self
  exact ⟨hmem, by decide, (checkModule_eq_findings_classes m).2 outer hmem⟩

end PermissionLint.Permission
