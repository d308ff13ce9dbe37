/-
All statements of a module, and what a visitor that only writes down gets to see.

A statement may hold others: a class and a function in their bodies, a compound statement in each of
its bodies.  `Stmt.subtree` lists a statement and all those inside it, each one before the ones that
it holds, and `Module.statements` does so for a whole module.  The list says nothing about visiting;
it is what visits are compared with.

A visitor whose state is a list to which every event adds something, and which always goes down, is
a *writer*.  The main results are

* `writer_visitModule`: a writer ends up with what the announcements of the module add, in order;
* `subtree_isInfix_statements`: the statements inside of a statement follow it at once, before any
  other one.
-/
import Mathlib.Data.List.Basic
import PermissionLint.Model.Visit

namespace PermissionLint.Model

open PermissionLint.Source

/-! ## Statements and those inside them -/

/-- Induction on a statement: the statements that it holds come first. -/
@[elab_as_elim]
theorem Stmt.nestedInduction {P : Stmt → Prop}
    (classDef : ∀ name bases body p, (∀ s ∈ body, P s) → P (.classDef name bases body p))
    (functionDef : ∀ name isAsync body p, (∀ s ∈ body, P s) → P (.functionDef name isAsync body p))
    (assign : ∀ targets value p, P (.assign targets value p))
    (annAssign : ∀ target hint value p, P (.annAssign target hint value p))
    (compound : ∀ kind bodies p, (∀ body ∈ bodies, ∀ s ∈ body, P s) → P (.compound kind bodies p))
    (other : ∀ kind p, P (.other kind p)) : ∀ s, P s := by
  refine @Stmt.rec P (fun body => ∀ s ∈ body, P s) (fun bodies => ∀ body ∈ bodies, ∀ s ∈ body, P s)
    classDef functionDef assign annAssign compound other ?_ ?_ ?_ ?_
  · simp
  · intro s body hs hbody
    exact List.forall_mem_cons.2 ⟨hs, hbody⟩
  · simp
  · intro body bodies hbody hbodies
    exact List.forall_mem_cons.2 ⟨hbody, hbodies⟩

namespace Stmt

mutual

/-- A statement and all those inside it, each before the ones that it holds. -/
def subtree : Stmt → List Stmt
  | classDef name bases body p => classDef name bases body p :: forest body
  | functionDef name isAsync body p => functionDef name isAsync body p :: forest body
  | assign targets value p => [assign targets value p]
  | annAssign target hint value p => [annAssign target hint value p]
  | compound kind bodies p => compound kind bodies p :: forests bodies
  | other kind p => [other kind p]

/-- The statements of a body and all those inside them. -/
def forest : List Stmt → List Stmt
  | [] => []
  | s :: ss => subtree s ++ forest ss

/-- The statements of several bodies and all those inside them. -/
def forests : List (List Stmt) → List Stmt
  | [] => []
  | body :: bodies => forest body ++ forests bodies

end

lemma forest_eq_flatMap (ss : List Stmt) : forest ss = ss.flatMap subtree := by
  induction ss with
  | nil => rfl
  | cons s ss ih => rw [forest, ih, List.flatMap_cons]

lemma forest_append (ss ts : List Stmt) : forest (ss ++ ts) = forest ss ++ forest ts := by
  simp only [forest_eq_flatMap, List.flatMap_append]

lemma forest_flatten (bodies : List (List Stmt)) : forest bodies.flatten = forests bodies := by
  induction bodies with
  | nil => rfl
  | cons body bodies ih => rw [List.flatten_cons, forest_append, ih, forests]

/-- The statements that a statement holds directly. -/
def held : Stmt → List Stmt
  | classDef _ _ body _ | functionDef _ _ body _ => body
  | compound _ bodies _ => bodies.flatten
  | assign .. | annAssign .. | other .. => []

/-- A statement comes first, and behind it come those that it holds. -/
lemma subtree_eq_cons (s : Stmt) : s.subtree = s :: forest s.held := by
  cases s with
  | compound kind bodies p => rw [subtree, held, forest_flatten]
  | _ => rfl

/-- The statements inside of a statement follow it at once. -/
lemma subtree_isInfix_subtree {s t : Stmt} (h : s ∈ t.subtree) : s.subtree <:+: t.subtree := by
  have key : ∀ t : Stmt, (∀ u ∈ t.held, s ∈ u.subtree → s.subtree <:+: u.subtree) →
      s ∈ t.subtree → s.subtree <:+: t.subtree := by
    intro t ih h
    rw [subtree_eq_cons, List.mem_cons] at h
    rcases h with rfl | h
    · exact List.infix_rfl
    · rw [forest_eq_flatMap, List.mem_flatMap] at h
      obtain ⟨u, hu, hs⟩ := h
      refine (ih u hu hs).trans ?_
      rw [subtree_eq_cons t, forest_eq_flatMap]
      exact List.infix_cons (List.infix_flatMap_of_mem hu _)
  induction t using nestedInduction with
  | classDef name bases body p ih => exact key _ ih h
  | functionDef name isAsync body p ih => exact key _ ih h
  | compound kind bodies p ih =>
    refine key _ (fun u hu => ?_) h
    obtain ⟨body, hbody, hu⟩ := List.mem_flatten.1 hu
    exact ih body hbody u hu
  | assign | annAssign | other => exact key _ (by simp [held]) h

end Stmt

/-- All statements of a module, each before the ones that it holds. -/
def Module.statements (m : Module) : List Stmt := Stmt.forest m.body

lemma subtree_isInfix_statements {m : Module} {s : Stmt} (h : s ∈ m.statements) :
    s.subtree <:+: m.statements := by
  rw [Module.statements, Stmt.forest_eq_flatMap, List.mem_flatMap] at h
  obtain ⟨t, ht, hs⟩ := h
  rw [Module.statements, Stmt.forest_eq_flatMap]
  exact (Stmt.subtree_isInfix_subtree hs).trans (List.infix_flatMap_of_mem ht _)

/-- A class. -/
structure ClassDef where
  name : String
  bases : List Expr
  /-- The statements directly in the class. -/
  body : List Stmt
  pos : Position

/-- The class that a statement defines. -/
def Stmt.class? : Stmt → Option ClassDef
  | .classDef name bases body p => some ⟨name, bases, body, p⟩
  | _ => none

/-- All classes of a module, each before the ones inside it. -/
def Module.classes (m : Module) : List ClassDef := m.statements.filterMap Stmt.class?

/-- All classes inside of a class, at any depth. -/
def ClassDef.inner (c : ClassDef) : List ClassDef := (Stmt.forest c.body).filterMap Stmt.class?

/-- The classes inside of a class follow it at once. -/
lemma cons_inner_isInfix_classes {m : Module} {c : ClassDef} (h : c ∈ m.classes) :
    c :: c.inner <:+: m.classes := by
  obtain ⟨s, hs, hc⟩ := List.mem_filterMap.1 h
  have hsub : s.subtree.filterMap Stmt.class? = c :: c.inner := by
    cases s with
    | classDef name bases body p =>
      rw [Stmt.class?, Option.some.injEq] at hc
      rw [← hc]
      rfl
    | _ => simp [Stmt.class?] at hc
  rw [← hsub]
  exact (subtree_isInfix_statements hs).filterMap _

/-! ## Announcements -/

mutual

/-- The announcements of an expression and of its parts. -/
def Expr.announced : Expr → List Event
  | .name id p => [.expr (.name id p)]
  | .list elts p => .expr (.list elts p) :: Expr.announcedAll elts
  | .tuple elts p => .expr (.tuple elts p) :: Expr.announcedAll elts
  | .attr value field p => .expr (.attr value field p) :: value.announced
  | .call func args p =>
    .expr (.call func args p) :: (func.announced ++ Expr.announcedAll args)
  | .starred value p => .expr (.starred value p) :: value.announced
  | .other kind p => [.expr (.other kind p)]

/-- The announcements of several expressions. -/
def Expr.announcedAll : List Expr → List Event
  | [] => []
  | e :: es => e.announced ++ Expr.announcedAll es

end

mutual

/-- The announcements of a statement, of its expressions and of the statements inside it. -/
def Stmt.announced : Stmt → List Event
  | .classDef name bases body p =>
    [.stmt (.classDef name bases body p), .classDef (.classDef name bases body p)]
      ++ Expr.announcedAll bases ++ Stmt.announcedAll body
  | .functionDef name isAsync body p =>
    [.stmt (.functionDef name isAsync body p), .functionDef (.functionDef name isAsync body p)]
      ++ Stmt.announcedAll body
  | .assign targets value p =>
    [.stmt (.assign targets value p), .assign (.assign targets value p)]
      ++ Expr.announcedAll targets ++ value.announced
  | .annAssign target hint value p =>
    [.stmt (.annAssign target hint value p), .annAssign (.annAssign target hint value p)]
      ++ target.announced ++ hint.announced ++ Expr.announcedAll value.toList
  | .compound kind bodies p =>
    [.stmt (.compound kind bodies p), .compound (.compound kind bodies p)]
      ++ Stmt.announcedBodies bodies
  | .other kind p => [.stmt (.other kind p)]

/-- The announcements of the statements of a body. -/
def Stmt.announcedAll : List Stmt → List Event
  | [] => []
  | s :: ss => s.announced ++ Stmt.announcedAll ss

/-- The announcements of the statements of several bodies. -/
def Stmt.announcedBodies : List (List Stmt) → List Event
  | [] => []
  | body :: bodies => Stmt.announcedAll body ++ Stmt.announcedBodies bodies

end

/-- The announcements of a module. -/
def Module.announced (m : Module) : List Event := .module m :: Stmt.announcedAll m.body

/-- The class that an event announces. -/
def Event.class? : Event → Option ClassDef
  | .classDef s => s.class?
  | _ => none

mutual

lemma filterMap_class?_expr_announced : ∀ e : Expr, e.announced.filterMap Event.class? = []
  | .name .. | .other .. => rfl
  | .list elts p | .tuple elts p => filterMap_class?_expr_announcedAll elts
  | .attr value field p | .starred value p => filterMap_class?_expr_announced value
  | .call func args p => by
    rw [Expr.announced, List.filterMap_cons_none rfl, List.filterMap_append,
      filterMap_class?_expr_announced func, filterMap_class?_expr_announcedAll args,
      List.append_nil]

lemma filterMap_class?_expr_announcedAll : ∀ es : List Expr,
    (Expr.announcedAll es).filterMap Event.class? = []
  | [] => rfl
  | e :: es => by
    rw [Expr.announcedAll, List.filterMap_append, filterMap_class?_expr_announced e,
      filterMap_class?_expr_announcedAll es, List.append_nil]

end

mutual

lemma filterMap_class?_announced : ∀ s : Stmt,
    s.announced.filterMap Event.class? = s.subtree.filterMap Stmt.class?
  | .classDef name bases body p => by
    simp only [Stmt.announced, Stmt.subtree, List.filterMap_append, List.filterMap_cons,
      List.filterMap_nil, Event.class?, Stmt.class?, filterMap_class?_expr_announcedAll,
      filterMap_class?_announcedAll body, List.append_nil, List.singleton_append]
  | .functionDef name isAsync body p => by
    simp only [Stmt.announced, Stmt.subtree, List.filterMap_append, List.filterMap_cons,
      List.filterMap_nil, Event.class?, Stmt.class?, filterMap_class?_announcedAll body,
      List.nil_append]
  | .assign targets value p => by
    simp only [Stmt.announced, Stmt.subtree, List.filterMap_append, List.filterMap_cons,
      List.filterMap_nil, Event.class?, Stmt.class?, filterMap_class?_expr_announcedAll,
      filterMap_class?_expr_announced, List.append_nil]
  | .annAssign target hint value p => by
    simp only [Stmt.announced, Stmt.subtree, List.filterMap_append, List.filterMap_cons,
      List.filterMap_nil, Event.class?, Stmt.class?, filterMap_class?_expr_announcedAll,
      filterMap_class?_expr_announced, List.append_nil]
  | .compound kind bodies p => by
    simp only [Stmt.announced, Stmt.subtree, List.filterMap_append, List.filterMap_cons,
      List.filterMap_nil, Event.class?, Stmt.class?, filterMap_class?_announcedBodies bodies,
      List.nil_append]
  | .other kind p => rfl

lemma filterMap_class?_announcedAll : ∀ ss : List Stmt,
    (Stmt.announcedAll ss).filterMap Event.class? = (Stmt.forest ss).filterMap Stmt.class?
  | [] => rfl
  | s :: ss => by
    rw [Stmt.announcedAll, Stmt.forest, List.filterMap_append, List.filterMap_append,
      filterMap_class?_announced s, filterMap_class?_announcedAll ss]

lemma filterMap_class?_announcedBodies : ∀ bodies : List (List Stmt),
    (Stmt.announcedBodies bodies).filterMap Event.class?
      = (Stmt.forests bodies).filterMap Stmt.class?
  | [] => rfl
  | body :: bodies => by
    rw [Stmt.announcedBodies, Stmt.forests, List.filterMap_append, List.filterMap_append,
      filterMap_class?_announcedAll body, filterMap_class?_announcedBodies bodies]

end

/-- Every class is announced once, before the classes inside it. -/
lemma filterMap_class?_module_announced (m : Module) :
    m.announced.filterMap Event.class? = m.classes := by
  rw [Module.announced, List.filterMap_cons_none rfl, filterMap_class?_announcedAll]
  rfl

namespace Visitor

variable {α : Type} (out : Event → List α)

/-- The visitor that adds something to a list at every event, and always goes down. -/
def writer : Visitor (List α) := fun event descend seen => descend (seen ++ out event)

@[simp]
lemma writer_apply (event : Event) (descend : List α → List α) (seen : List α) :
    writer out event descend seen = descend (seen ++ out event) := rfl

mutual

lemma writer_visitExpr : ∀ (e : Expr) (seen : List α),
    (writer out).visitExpr e seen = seen ++ e.announced.flatMap out
  | .name id p, seen => by simp [visitExpr, Expr.announced]
  | .list elts p, seen => by simp [visitExpr, Expr.announced, writer_visitExprs elts]
  | .tuple elts p, seen => by simp [visitExpr, Expr.announced, writer_visitExprs elts]
  | .attr value field p, seen => by simp [visitExpr, Expr.announced, writer_visitExpr value]
  | .call func args p, seen => by
    simp [visitExpr, Expr.announced, writer_visitExpr func, writer_visitExprs args]
  | .starred value p, seen => by simp [visitExpr, Expr.announced, writer_visitExpr value]
  | .other kind p, seen => by simp [visitExpr, Expr.announced]

lemma writer_visitExprs : ∀ (es : List Expr) (seen : List α),
    (writer out).visitExprs es seen = seen ++ (Expr.announcedAll es).flatMap out
  | [], seen => by simp [visitExprs, Expr.announcedAll]
  | e :: es, seen => by
    simp [visitExprs, Expr.announcedAll, writer_visitExpr e, writer_visitExprs es]

end

lemma writer_visitOptional (value : Option Expr) (seen : List α) :
    (writer out).visitOptional value seen
      = seen ++ (Expr.announcedAll value.toList).flatMap out := by
  cases value with
  | none => simp [visitOptional, Expr.announcedAll]
  | some e => simp [visitOptional, Expr.announcedAll, writer_visitExpr]

mutual

lemma writer_visitStmt : ∀ (s : Stmt) (seen : List α),
    (writer out).visitStmt s seen = seen ++ s.announced.flatMap out
  | .classDef name bases body p, seen => by
    simp [visitStmt, Stmt.announced, writer_visitExprs, writer_visitStmts body]
  | .functionDef name isAsync body p, seen => by
    simp [visitStmt, Stmt.announced, writer_visitStmts body]
  | .assign targets value p, seen => by
    simp [visitStmt, Stmt.announced, writer_visitExprs, writer_visitExpr]
  | .annAssign target hint value p, seen => by
    simp [visitStmt, Stmt.announced, writer_visitOptional, writer_visitExpr]
  | .compound kind bodies p, seen => by
    simp [visitStmt, Stmt.announced, writer_visitBodies bodies]
  | .other kind p, seen => by simp [visitStmt, Stmt.announced]

lemma writer_visitStmts : ∀ (ss : List Stmt) (seen : List α),
    (writer out).visitStmts ss seen = seen ++ (Stmt.announcedAll ss).flatMap out
  | [], seen => by simp [visitStmts, Stmt.announcedAll]
  | s :: ss, seen => by
    simp [visitStmts, Stmt.announcedAll, writer_visitStmt s, writer_visitStmts ss]

lemma writer_visitBodies : ∀ (bodies : List (List Stmt)) (seen : List α),
    (writer out).visitBodies bodies seen = seen ++ (Stmt.announcedBodies bodies).flatMap out
  | [], seen => by simp [visitBodies, Stmt.announcedBodies]
  | body :: bodies, seen => by
    simp [visitBodies, Stmt.announcedBodies, writer_visitStmts body, writer_visitBodies bodies]

end

/-- **A writer sees every announcement of a module once, in order.** -/
theorem writer_visitModule (m : Module) (seen : List α) :
    (writer out).visitModule m seen = seen ++ m.announced.flatMap out := by
  simp [visitModule, Module.announced, writer_visitStmts]

end Visitor

end PermissionLint.Model
