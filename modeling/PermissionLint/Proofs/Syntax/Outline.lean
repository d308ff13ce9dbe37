/-
The outline of a program: where the nodes of its tree that hold statements may stand.

Definitions, compound statements, their clauses and blocks make up the *outline* of a tree, and
everything else is a *phrase* of it.  A tree of a program is regular:

* a block is the body of a class or of a function, or it stands under a compound statement or under
  one of its clauses;
* what stands below decorators is a class or a function;
* definitions and compound statements are statements of the file or of a block, and clauses are
  parts of compound statements, where the block of a `match` statement holds clauses instead of
  statements;
* so nothing of the outline stands inside of a phrase, and nothing of it is an aside.

`Node.fits` checks this from the top down: each node is given a `Place`, which says what may stand
there, and each child gets a place from its parent.  So all nodes below a node that fits do so as
well (`exists_fits_of_mem_nodes`).
-/
import Mathlib.Data.List.Basic
import PermissionLint.Syntax.Node

namespace PermissionLint.Syntax

/-! ## Kinds of the outline -/

namespace Kind

/-- Classes and functions. -/
def isDefinition : Kind → Bool
  | classDefinition | functionDefinition => true
  | _ => false

/-- The compound statements that hold blocks. -/
def isCompound : Kind → Bool
  | ifStatement | forStatement | whileStatement | tryStatement | withStatement | matchStatement =>
    true
  | _ => false

/-- The kinds of the outline. -/
def isOutline (k : Kind) : Bool :=
  k == root || k == block || k == decoratedDefinition || k.isDefinition || k.isCompound
    || k.isClause

end Kind

/-- Where a node stands. -/
inductive Place where
  /-- Among the statements of the file or of a block. -/
  | statement
  /-- Below decorators. -/
  | definition
  /-- In the body of a class or of a function. -/
  | body
  /-- Among the parts of a compound statement or of a clause. -/
  | part
  /-- Among the parts of a `match` statement. -/
  | matchPart
  /-- Anywhere else. -/
  | phrase
  deriving DecidableEq, Repr

namespace Place

/-- The kinds of nodes that may stand at a place. -/
def admits : Place → Kind → Bool
  | statement, k =>
    k.isDefinition || k == .decoratedDefinition || k.isCompound || !k.isOutline
  | definition, k => k.isDefinition
  | body, k => k == .block
  | part, k | matchPart, k => k == .block || k.isClause || !k.isOutline
  | phrase, k => !k.isOutline

/-- The place of a child of a node of the given kind, which itself stands at a place. -/
def below (place : Place) (kind : Kind) (role : Option Role) : Place :=
  match kind with
  | .root => statement
  | .block => if place = matchPart then part else statement
  | .classDefinition | .functionDefinition => if role = some .body then body else phrase
  | .decoratedDefinition => if role = some .definition then definition else phrase
  | .matchStatement => matchPart
  | _ => if kind.isCompound || kind.isClause then part else phrase

end Place

namespace Node

/-! ## Nodes below a node -/

/-- Induction on a node: its children come first. -/
@[elab_as_elim]
theorem childInduction {P : Node → Prop} (step : ∀ n, (∀ c ∈ n.children, P c) → P n) :
    ∀ n, P n := by
  refine @Node.rec P (fun cs => ∀ c ∈ cs, P c) ?_ ?_ ?_
  · intro kind span role extra children ih
    exact step _ ih
  · simp
  · intro c cs hc hcs
    exact List.forall_mem_cons.2 ⟨hc, hcs⟩

mutual

/-- A node and all nodes below it, each before its children. -/
def nodes : Node → List Node
  | ⟨kind, span, role, extra, children⟩ => ⟨kind, span, role, extra, children⟩ :: nodesOf children

/-- Nodes and all nodes below them. -/
def nodesOf : List Node → List Node
  | [] => []
  | n :: ns => nodes n ++ nodesOf ns

end

lemma nodesOf_eq_flatMap (ns : List Node) : nodesOf ns = ns.flatMap nodes := by
  induction ns with
  | nil => rfl
  | cons n ns ih => rw [nodesOf, ih, List.flatMap_cons]

lemma nodes_eq_cons (n : Node) : n.nodes = n :: n.children.flatMap nodes := by
  cases n with
  | mk kind span role extra children => rw [nodes, nodesOf_eq_flatMap]

lemma mem_nodes_iff {m n : Node} : m ∈ n.nodes ↔ m = n ∨ ∃ c ∈ n.children, m ∈ c.nodes := by
  rw [nodes_eq_cons, List.mem_cons, List.mem_flatMap]

lemma self_mem_nodes (n : Node) : n ∈ n.nodes := mem_nodes_iff.2 (.inl rfl)

lemma mem_nodes_trans {l m n : Node} (hl : l ∈ m.nodes) (hm : m ∈ n.nodes) : l ∈ n.nodes := by
  induction n using childInduction with
  | step n ih =>
    rcases mem_nodes_iff.1 hm with rfl | ⟨c, hc, hm⟩
    · exact hl
    · exact mem_nodes_iff.2 (.inr ⟨c, hc, ih c hc hm⟩)

lemma mem_nodes_of_mem_children {m n : Node} (hm : m ∈ n.children) : m ∈ n.nodes :=
  mem_nodes_iff.2 (.inr ⟨m, hm, self_mem_nodes m⟩)

/-- The definitions among a node and the nodes below it. -/
def definitions (n : Node) : List Node := n.nodes.filter (·.kind.isDefinition)

lemma definitions_eq (n : Node) :
    n.definitions
      = (if n.kind.isDefinition then [n] else []) ++ n.children.flatMap definitions := by
  rw [definitions, nodes_eq_cons, List.filter_cons, List.filter_flatMap]
  split <;> rfl

/-! ## Regular trees -/

/-- At most one child plays the role. -/
def hasOne (n : Node) (role : Role) : Bool := n.children.countP (·.role == some role) ≤ 1

mutual

/-- A node may stand at a place, and so may the nodes below it at theirs. -/
def fits (place : Place) : Node → Bool
  | ⟨kind, span, role, extra, children⟩ =>
    place.admits kind && (!extra || !kind.isOutline)
      && hasOne ⟨kind, span, role, extra, children⟩ .body
      && hasOne ⟨kind, span, role, extra, children⟩ .definition
      && fitAll (place.below kind) children

/-- Nodes may stand at the places that they get by their roles. -/
def fitAll (places : Option Role → Place) : List Node → Bool
  | [] => true
  | n :: ns => fits (places n.role) n && fitAll places ns

end

lemma fitAll_iff {places : Option Role → Place} {ns : List Node} :
    fitAll places ns = true ↔ ∀ n ∈ ns, n.fits (places n.role) = true := by
  induction ns with
  | nil => simp [fitAll]
  | cons n ns ih => rw [fitAll, Bool.and_eq_true, ih, List.forall_mem_cons]

/-- What it means for a node to fit. -/
structure Fits (place : Place) (n : Node) : Prop where
  admits : place.admits n.kind = true
  extra : n.kind.isOutline = true → n.extra = false
  body : n.hasOne .body = true
  definition : n.hasOne .definition = true
  children : ∀ c ∈ n.children, c.fits (place.below n.kind c.role) = true

lemma fits_iff {place : Place} {n : Node} : n.fits place = true ↔ Fits place n := by
  cases n with
  | mk kind span role extra children =>
    simp only [fits, Bool.and_eq_true, fitAll_iff]
    constructor
    · rintro ⟨⟨⟨⟨hadmits, hextra⟩, hbody⟩, hdefinition⟩, hchildren⟩
      refine ⟨hadmits, fun hkind => ?_, hbody, hdefinition, hchildren⟩
      simpa [show kind.isOutline = true from hkind] using hextra
    · rintro ⟨hadmits, hextra, hbody, hdefinition, hchildren⟩
      refine ⟨⟨⟨⟨hadmits, ?_⟩, hbody⟩, hdefinition⟩, hchildren⟩
      cases hkind : kind.isOutline with
      | true => simp [show extra = false from hextra hkind]
      | false => simp

/-- The tree of a file is regular. -/
def IsRegular (t : Node) : Prop :=
  t.kind = .root ∧ ∀ c ∈ t.children, c.fits .statement = true

instance : DecidablePred IsRegular := fun t =>
  inferInstanceAs (Decidable (t.kind = .root ∧ ∀ c ∈ t.children, c.fits .statement = true))

end Node

/-! ## Kinds and places -/

lemma Kind.isNamed_of_isOutline {k : Kind} (h : k.isOutline = true) : k.isNamed = true := by
  cases k <;> first | rfl | cases h

namespace Place

/-- Outside of the outline all children are phrases. -/
lemma below_eq_phrase {kind : Kind} (h : kind.isOutline = false) (place : Place)
    (role : Option Role) : place.below kind role = .phrase := by
  cases kind <;> first | rfl | cases h

variable {place : Place} {k : Kind}

lemma below_definition (h : k.isDefinition = true) (place : Place) (role : Option Role) :
    place.below k role = if role = some .body then .body else .phrase := by
  cases k <;> first | rfl | cases h

lemma below_compound (h : k.isCompound = true) (place : Place) (role : Option Role) :
    place.below k role = if k == .matchStatement then .matchPart else .part := by
  cases k <;> first | rfl | cases h

lemma below_clause (h : k.isClause = true) (place : Place) (role : Option Role) :
    place.below k role = .part := by
  cases k <;> first | rfl | cases h

/-- The root of a tree stands nowhere inside of one. -/
lemma admits_root (place : Place) : place.admits .root = false := by
  cases place <;> rfl

/-- Statements of the outline stand where statements do. -/
lemma eq_of_admits_statement (h : place.admits k = true)
    (hk : (k.isDefinition || k == .decoratedDefinition || k.isCompound) = true) :
    place = .statement ∨ place = .definition := by
  cases k <;> cases hk <;> cases place <;> first | exact .inl rfl | exact .inr rfl | cases h

/-- Clauses stand among the parts of compound statements. -/
lemma eq_of_admits_clause (h : place.admits k = true) (hk : k.isClause = true) :
    place = .part ∨ place = .matchPart := by
  cases k <;> cases hk <;> cases place <;> first | exact .inl rfl | exact .inr rfl | cases h

end Place

namespace Node

/-- Every node below a node that fits does so at some place. -/
lemma exists_fits_of_mem_nodes {m n : Node} {place : Place} (hfits : n.fits place = true)
    (hm : m ∈ n.nodes) : ∃ place', m.fits place' = true := by
  induction n using childInduction generalizing place with
  | step n ih =>
    rcases mem_nodes_iff.1 hm with rfl | ⟨c, hc, hm⟩
    · exact ⟨place, hfits⟩
    · exact ih c hc ((fits_iff.1 hfits).children c hc) hm

end Node

end PermissionLint.Syntax
