/-
The nodes of a module and their places.

A node is a statement or an expression, and its parts are the nodes directly inside it, in the order
of the source.  A place is the chain of numbers that lead to a node from part to part, so that no two
nodes have the same place and the lexicographic order of places is the order depth first.  All
places of several nodes are those of the first one and then those of the others (`areAll_cons`), and
all places of a node are the empty one and then those of its parts (`areAll_parts`).
-/
import Mathlib.Data.List.Lex
import PermissionLint.Proofs.Model.Statements

namespace PermissionLint.Model

/-! ## Nodes -/

/-- A node of a module. -/
inductive Part where
  | stmt (s : Stmt)
  | expr (e : Expr)

/-- The event that announces a statement as what it is; none if only its kind is known. -/
def Stmt.ownEvent? : Stmt → Option Event
  | .classDef name bases body p => some (.classDef (.classDef name bases body p))
  | .functionDef name isAsync body p => some (.functionDef (.functionDef name isAsync body p))
  | .assign targets value p => some (.assign (.assign targets value p))
  | .annAssign target hint value p => some (.annAssign (.annAssign target hint value p))
  | .compound kind bodies p => some (.compound (.compound kind bodies p))
  | .other .. => none

namespace Part

/-- The nodes directly inside of a node, in the order of the source. -/
def parts : Part → List Part
  | stmt (.classDef _ bases body _) => bases.map expr ++ body.map stmt
  | stmt (.functionDef _ _ body _) => body.map stmt
  | stmt (.assign targets value _) => targets.map expr ++ [expr value]
  | stmt (.annAssign target hint value _) => expr target :: expr hint :: value.toList.map expr
  | stmt (.compound _ bodies _) => bodies.flatten.map stmt
  | stmt (.other ..) => []
  | expr (.list elts _) | expr (.tuple elts _) => elts.map expr
  | expr (.attr value _ _) | expr (.starred value _) => [expr value]
  | expr (.call func args _) => expr func :: args.map expr
  | expr (.name ..) | expr (.other ..) => []

/-- The events of a node itself: a statement is announced as such and then as what it is. -/
def ownEvents : Part → List Event
  | stmt s => .stmt s :: s.ownEvent?.toList
  | expr e => [.expr e]

/-- The node that numbers of parts lead to. -/
def at? : List Nat → Part → Option Part
  | [], p => some p
  | i :: is, p => p.parts[i]?.bind (at? is)

/-- The node that numbers lead to from several nodes, the first of which chooses one of them. -/
def atIn? (ps : List Part) : List Nat → Option Part
  | [] => none
  | i :: is => ps[i]?.bind (at? is)

/-- Induction on a node: the nodes directly inside it come first. -/
@[elab_as_elim]
theorem nestedInduction {P : Part → Prop} (h : ∀ p, (∀ q ∈ p.parts, P q) → P p) : ∀ p, P p := by
  have hexpr : ∀ e, P (.expr e) := by
    refine @Expr.rec (fun e => P (.expr e)) (fun es => ∀ q ∈ es.map Part.expr, P q) ?_ ?_ ?_ ?_ ?_ ?_
      ?_ ?_ ?_
    · exact fun _ _ => h _ (by simp [parts])
    · exact fun _ _ ih => h _ ih
    · exact fun _ _ ih => h _ ih
    · exact fun _ _ _ ih => h _ (by simpa [parts] using ih)
    · exact fun _ _ _ ihfunc ihargs => h _ (List.forall_mem_cons.2 ⟨ihfunc, ihargs⟩)
    · exact fun _ _ ih => h _ (by simpa [parts] using ih)
    · exact fun _ _ => h _ (by simp [parts])
    · simp
    · exact fun _ _ ih ihs => List.forall_mem_cons.2 ⟨ih, ihs⟩
  have hexprs : ∀ es : List Expr, ∀ q ∈ es.map Part.expr, P q := by
    intro es
    exact List.forall_mem_map.2 fun e _ => hexpr e
  intro p
  cases p with
  | expr e => exact hexpr e
  | stmt s =>
    induction s using Stmt.nestedInduction with
    | classDef name bases body p ih =>
      exact h _ (List.forall_mem_append.2 ⟨hexprs bases, List.forall_mem_map.2 ih⟩)
    | functionDef name isAsync body p ih => exact h _ (List.forall_mem_map.2 ih)
    | assign targets value p =>
      exact h _ (List.forall_mem_append.2 ⟨hexprs targets, by simpa using hexpr value⟩)
    | annAssign target hint value p =>
      exact h _ (List.forall_mem_cons.2 ⟨hexpr target,
        List.forall_mem_cons.2 ⟨hexpr hint, hexprs value.toList⟩⟩)
    | compound kind bodies p ih =>
      refine h _ (List.forall_mem_map.2 fun s hs => ?_)
      obtain ⟨body, hbody, hs⟩ := List.mem_flatten.1 hs
      exact ih body hbody s hs
    | other kind p => exact h _ (by simp [parts])

end Part

/-! ## Places -/

/-- The node of a module at a place.  The first number chooses a statement of the body. -/
def Module.node? (m : Module) (place : List Nat) : Option Part :=
  Part.atIn? (m.body.map .stmt) place

/-- The places are those at which there are nodes, each once and in order. -/
structure AreAll (node? : List Nat → Option Part) (places : List (List Nat)) : Prop where
  increasing : places.Pairwise (· < ·)
  mem_iff : ∀ place, place ∈ places ↔ (node? place).isSome = true

/-- The place with the next part in the first choice. -/
def nextPlace : List Nat → List Nat
  | [] => []
  | i :: is => (i + 1) :: is

lemma nextPlace_lt_nextPlace {a b : List Nat} (h : a < b) : nextPlace a < nextPlace b := by
  cases b with
  | nil => exact absurd h (List.not_lt_nil a)
  | cons j js =>
    cases a with
    | nil => exact List.nil_lt_cons _ _
    | cons i is =>
      rw [nextPlace, nextPlace, List.cons_lt_cons_iff]
      rcases List.cons_lt_cons_iff.1 h with hfirst | ⟨rfl, hrest⟩
      · exact .inl (Nat.succ_lt_succ hfirst)
      · exact .inr ⟨rfl, hrest⟩

lemma atIn?_nextPlace (q : Part) (ps : List Part) (place : List Nat) :
    Part.atIn? (q :: ps) (nextPlace place) = Part.atIn? ps place := by
  cases place with
  | nil => rfl
  | cons i is => rw [nextPlace, Part.atIn?, Part.atIn?, List.getElem?_cons_succ]

/-- The places of several nodes: those of the first one, and then those of the others. -/
lemma areAll_cons {q : Part} {ps : List Part} {own others : List (List Nat)}
    (hown : AreAll (fun place => q.at? place) own) (hothers : AreAll (Part.atIn? ps) others) :
    AreAll (Part.atIn? (q :: ps)) (own.map (0 :: ·) ++ others.map nextPlace) := by
  constructor
  · rw [List.pairwise_append, List.pairwise_map, List.pairwise_map]
    refine ⟨?_, ?_, ?_⟩
    · exact hown.increasing.imp fun h => List.cons_lt_cons_iff.2 (.inr ⟨rfl, h⟩)
    · exact hothers.increasing.imp nextPlace_lt_nextPlace
    · intro a ha b hb
      obtain ⟨place, -, rfl⟩ := List.mem_map.1 ha
      obtain ⟨place', hplace', rfl⟩ := List.mem_map.1 hb
      cases place' with
      | nil => cases (hothers.mem_iff []).1 hplace'
      | cons i is => exact List.cons_lt_cons_iff.2 (.inl (Nat.succ_pos i))
  · intro place
    rw [List.mem_append, List.mem_map, List.mem_map]
    constructor
    · rintro (⟨rest, hrest, rfl⟩ | ⟨rest, hrest, rfl⟩)
      · exact (hown.mem_iff rest).1 hrest
      · rw [atIn?_nextPlace]
        exact (hothers.mem_iff rest).1 hrest
    · intro hplace
      match place with
      | [] => cases hplace
      | 0 :: is => exact .inl ⟨is, (hown.mem_iff is).2 hplace, rfl⟩
      | (i + 1) :: is =>
        refine .inr ⟨i :: is, (hothers.mem_iff (i :: is)).2 ?_, rfl⟩
        rwa [← atIn?_nextPlace q]

/-- The node itself is at the empty place, and its parts are behind it. -/
lemma areAll_parts {p : Part} {places : List (List Nat)} (h : AreAll (Part.atIn? p.parts) places) :
    AreAll (fun place => p.at? place) ([] :: places) := by
  constructor
  · refine List.Pairwise.cons (fun place hplace => ?_) h.increasing
    cases place with
    | nil => cases (h.mem_iff []).1 hplace
    | cons i is => exact List.nil_lt_cons i is
  · intro place
    rw [List.mem_cons, h.mem_iff]
    cases place with
    | nil => simp [Part.at?]
    | cons i is => simp [Part.at?, Part.atIn?]

end PermissionLint.Model
