/-
The names of a model come from the identifiers of its tree.

An expression of the model is made of the expressions of nodes below its own: of the phrases of the
node, of the child in a role, or of arguments, where a keyword argument counts as its value.  So what
is true of the expression of a node is shown from what is true of those of the nodes below it
(`forall_exprsOf`, `forall_exprAt`, `forall_argumentsAt`).  The main result, `isPlaced_exprOf`, says
that every name inside of an expression has the text and the place of an identifier.
-/
import PermissionLint.Proofs.Model.Lowering
import PermissionLint.Proofs.Model.Nodes

namespace PermissionLint.Syntax.Node

/-- Induction on a node: all nodes below it come first. -/
@[elab_as_elim]
theorem belowInduction {P : Node → Prop}
    (step : ∀ n, (∀ c ∈ n.children, ∀ m ∈ c.nodes, P m) → P n) : ∀ n, P n := by
  have hbelow : ∀ n : Node, ∀ m ∈ n.nodes, P m := by
    intro n
    induction n using childInduction with
    | step n ih =>
      intro m hm
      rcases mem_nodes_iff.1 hm with rfl | ⟨c, hc, hm⟩
      · exact step m ih
      · exact ih c hc m hm
  exact fun n => hbelow n n (self_mem_nodes n)

end PermissionLint.Syntax.Node

namespace PermissionLint.Model

open PermissionLint.Source PermissionLint.Syntax

/-! ## Properties of all nodes -/

namespace Part

/-- The node and all nodes inside it have the property. -/
def All (P : Part → Prop) (p : Part) : Prop := ∀ place q, p.at? place = some q → P q

variable {P : Part → Prop} {p : Part}

/-- A node and its parts. -/
lemma all_iff : p.All P ↔ P p ∧ ∀ q ∈ p.parts, q.All P := by
  constructor
  · intro h
    refine ⟨h [] p rfl, fun q hq place r hr => ?_⟩
    obtain ⟨i, hi⟩ := List.mem_iff_getElem?.1 hq
    exact h (i :: place) r (by rw [at?, hi]; exact hr)
  · rintro ⟨hp, hparts⟩ place q hq
    cases place with
    | nil =>
      cases hq
      exact hp
    | cons i is =>
      obtain ⟨r, hr, hq⟩ := Option.bind_eq_some_iff.1 hq
      exact hparts r (List.mem_of_getElem? hr) is q hq

end Part

/-! ## Expressions of nodes below a node -/

section

variable {text : List Char} {Q : Expr → Prop} {ns : List Node}
  (h : ∀ c ∈ ns, ∀ m ∈ c.nodes, Q (exprOf text m))

include h

lemma forall_exprsOf : ∀ e ∈ exprsOf text ns, Q e := by
  intro e he
  rw [exprsOf_eq] at he
  obtain ⟨n, hn, rfl⟩ := List.mem_map.1 he
  exact h n (List.mem_of_mem_filter hn) n (Node.self_mem_nodes n)

lemma forall_exprAt {role : Role} {e : Expr} (he : exprAt text role ns = some e) : Q e := by
  rw [exprAt_eq] at he
  obtain ⟨n, hn, rfl⟩ := Option.map_eq_some_iff.1 he
  exact h n (List.mem_of_find?_eq_some hn) n (Node.self_mem_nodes n)

omit h in
lemma below_children (h : ∀ c ∈ ns, ∀ m ∈ c.nodes, Q (exprOf text m)) {n : Node} (hn : n ∈ ns) :
    ∀ c ∈ n.children, ∀ m ∈ c.nodes, Q (exprOf text m) :=
  fun c hc m hm => h n hn m (Node.mem_nodes_iff.2 (.inr ⟨c, hc, hm⟩))

/-- The value of a keyword argument is below it. -/
lemma forall_argumentsOf : ∀ e ∈ argumentsOf text ns, Q e := by
  intro e he
  rw [argumentsOf_eq] at he
  obtain ⟨n, hn, rfl⟩ := List.mem_map.1 he
  have hn : n ∈ ns := List.mem_of_mem_filter hn
  have hwhole : Q (exprOf text n) := h n hn n (Node.self_mem_nodes n)
  rw [argumentOf]
  split
  · cases hat : exprAt text .value n.children with
    | none => exact hwhole
    | some e => exact forall_exprAt (below_children h hn) hat
  · exact hwhole

lemma forall_argumentsAt (role : Role) : ∀ e ∈ argumentsAt text role ns, Q e := by
  rw [argumentsAt_eq]
  cases hfirst : ns.find? fun n => n.role == some role with
  | none => simp
  | some n => exact forall_argumentsOf (below_children h (List.mem_of_find?_eq_some hfirst))

end

/-! ## Nodes in their places -/

/-- The bodies of a statement. -/
def Stmt.bodies : Stmt → List (List Stmt)
  | .classDef _ _ body _ | .functionDef _ _ body _ => [body]
  | .compound _ bodies _ => bodies
  | .assign .. | .annAssign .. | .other .. => []

/-- Statements come in the order of the source. -/
def InOrder (body : List Stmt) : Prop := body.Pairwise fun s s' => s.pos.lt s'.pos = true

/-- The node of a model is in its place: if it is a name, it has the text and the place of an
identifier of the tree, and if it is a statement, its bodies are in order. -/
def InPlace (text : List Char) (t : Node) : Part → Prop
  | .expr (.name id pos) =>
    ∃ n ∈ t.nodes, n.kind = .identifier ∧ id = spelling text n ∧ pos = positionOf text n
  | .expr _ => True
  | .stmt s => ∀ body ∈ s.bodies, InOrder body

/-- All nodes inside of an expression are in their places. -/
abbrev IsPlaced (text : List Char) (t : Node) (e : Expr) : Prop :=
  (Part.expr e).All (InPlace text t)

section

variable {text : List Char} {t n : Node}

lemma isPlaced_other (k : Kind) (p : Position) : IsPlaced text t (.other k p) :=
  Part.all_iff.2 ⟨trivial, by simp [Part.parts]⟩

lemma isPlaced_list {elts : List Expr} (h : ∀ e ∈ elts, IsPlaced text t e) (p : Position) :
    IsPlaced text t (.list elts p) :=
  Part.all_iff.2 ⟨trivial, List.forall_mem_map.2 h⟩

lemma isPlaced_tuple {elts : List Expr} (h : ∀ e ∈ elts, IsPlaced text t e) (p : Position) :
    IsPlaced text t (.tuple elts p) :=
  Part.all_iff.2 ⟨trivial, List.forall_mem_map.2 h⟩

lemma isPlaced_attr {value : Expr} (h : IsPlaced text t value) (attr : String) (p : Position) :
    IsPlaced text t (.attr value attr p) :=
  Part.all_iff.2 ⟨trivial, List.forall_mem_singleton.2 h⟩

lemma isPlaced_starred {value : Expr} (h : IsPlaced text t value) (p : Position) :
    IsPlaced text t (.starred value p) :=
  Part.all_iff.2 ⟨trivial, List.forall_mem_singleton.2 h⟩

lemma isPlaced_call {func : Expr} {args : List Expr} (h : IsPlaced text t func)
    (hargs : ∀ e ∈ args, IsPlaced text t e) (p : Position) : IsPlaced text t (.call func args p) :=
  Part.all_iff.2 ⟨trivial, List.forall_mem_cons.2 ⟨h, List.forall_mem_map.2 hargs⟩⟩

/-- **The names in the expression of a node are identifiers of the tree.** -/
theorem isPlaced_exprOf (hn : n ∈ t.nodes) : IsPlaced text t (exprOf text n) := by
  induction n using Node.belowInduction with
  | step n ih =>
    have hbelow : ∀ c ∈ n.children, ∀ m ∈ c.nodes, IsPlaced text t (exprOf text m) :=
      fun c hc m hm => ih c hc m hm
        (Node.mem_nodes_trans (Node.mem_nodes_iff.2 (.inr ⟨c, hc, hm⟩)) hn)
    have hexprs := forall_exprsOf hbelow
    cases n with
    | mk kind span role extra children =>
      rw [exprOf.eq_def]
      simp only
      split
      -- a name
      · exact Part.all_iff.2 ⟨⟨_, hn, rfl, rfl, rfl⟩, by simp [Part.parts]⟩
      -- lists and tuples
      · exact isPlaced_list hexprs _
      · exact isPlaced_list hexprs _
      · exact isPlaced_tuple hexprs _
      · exact isPlaced_tuple hexprs _
      · exact isPlaced_tuple hexprs _
      · split
        · next inner hinner =>
          rw [hinner] at hexprs
          split
          · exact isPlaced_tuple hexprs _
          · exact List.forall_mem_singleton.1 hexprs
        · exact isPlaced_tuple hexprs _
      -- parentheses
      · split
        · next inner _ hinner =>
          rw [hinner] at hexprs
          exact hexprs inner List.mem_cons_self
        · exact isPlaced_other _ _
      -- attributes and calls
      · split
        · next hvalue _ => exact isPlaced_attr (forall_exprAt hbelow hvalue) _ _
        · exact isPlaced_other _ _
      · split
        · next hfunc =>
          exact isPlaced_call (forall_exprAt hbelow hfunc) (forall_argumentsAt hbelow _) _
        · exact isPlaced_other _ _
      -- starred values
      · split
        · next inner _ hinner =>
          rw [hinner] at hexprs
          exact isPlaced_starred (hexprs inner List.mem_cons_self) _
        · exact isPlaced_other _ _
      · split
        · next inner _ hinner =>
          rw [hinner] at hexprs
          exact isPlaced_starred (hexprs inner List.mem_cons_self) _
        · exact isPlaced_other _ _
      · exact isPlaced_other _ _

lemma isPlaced_below (hn : n ∈ t.nodes) :
    ∀ c ∈ n.children, ∀ m ∈ c.nodes, IsPlaced text t (exprOf text m) := fun c hc _ hm =>
  isPlaced_exprOf (Node.mem_nodes_trans (Node.mem_nodes_iff.2 (.inr ⟨c, hc, hm⟩)) hn)

end

end PermissionLint.Model
