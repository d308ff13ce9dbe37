/-
The definitions of the model of a regular tree.

The functions that lead from trees to models walk through lists of nodes; the first section says
what they do in terms of `filter`, `find?` and `map`, and nothing later looks at them again.

A node gives statements to the model in a way that depends on its place in the outline: itself, the
statements of its block, or those of the bodies that are collected below it (`contentAt`).  At every
place the definitions among what it gives are the definitions among the nodes below it.  The main
results are

* `definitions_ofTree`: the definitions of the model are those of the tree, at any depth and in the
  same order, so that no class and no function is lost or made up;
* `classes_ofTree`: the same for classes alone.
-/
import PermissionLint.Model.OfTree
import PermissionLint.Proofs.Model.Statements
import PermissionLint.Proofs.Syntax.Outline

namespace PermissionLint.Model

open PermissionLint.Source PermissionLint.Syntax

variable (text : List Char)

/-! ## Lists of nodes -/

lemma exprsOf_eq (ns : List Node) :
    exprsOf text ns = (ns.filter Node.isPhrase).map (exprOf text) := by
  induction ns with
  | nil => rfl
  | cons n ns ih =>
    rw [exprsOf, ih, List.filter_cons]
    split <;> rfl

lemma exprAt_eq (role : Role) (ns : List Node) :
    exprAt text role ns = (ns.find? fun n => n.role == some role).map (exprOf text) := by
  induction ns with
  | nil => rfl
  | cons n ns ih =>
    rw [exprAt, ih, List.find?_cons]
    cases n.role == some role <;> rfl

/-- The argument that a node is.  A keyword argument counts as its value. -/
def argumentOf (n : Node) : Expr :=
  if n.kind == .keywordArgument then (exprAt text .value n.children).getD (exprOf text n)
  else exprOf text n

lemma argumentsOf_eq (ns : List Node) :
    argumentsOf text ns = (ns.filter Node.isPhrase).map (argumentOf text) := by
  induction ns with
  | nil => rfl
  | cons n ns ih =>
    cases n with
    | mk kind span role extra children =>
      rw [argumentsOf, ih, List.filter_cons]
      split <;> rfl

lemma argumentsAt_eq (role : Role) (ns : List Node) :
    argumentsAt text role ns
      = ((ns.find? fun n => n.role == some role).map
          fun n => argumentsOf text n.children).getD [] := by
  induction ns with
  | nil => rfl
  | cons n ns ih =>
    cases n with
    | mk kind span role' extra children =>
      rw [argumentsAt, ih, List.find?_cons]
      cases role' == some role <;> rfl

lemma chainAt_eq (ns : List Node) :
    chainAt text ns = (ns.find? fun n => n.role == some .right).bind (chainOf text) := by
  induction ns with
  | nil => rfl
  | cons n ns ih =>
    rw [chainAt, ih, List.find?_cons]
    cases n.role == some .right <;> rfl

lemma stmtsOf_eq (ns : List Node) :
    stmtsOf text ns = (ns.filter Node.isPhrase).map (stmtOf text) := by
  induction ns with
  | nil => rfl
  | cons n ns ih =>
    rw [stmtsOf, ih, List.filter_cons]
    split <;> rfl

lemma bodyAt_eq (ns : List Node) :
    bodyAt text ns
      = ((ns.find? fun n => n.role == some .body).map
          fun b => stmtsOf text b.children).getD [] := by
  induction ns with
  | nil => rfl
  | cons n ns ih =>
    cases n with
    | mk kind span role extra children =>
      rw [bodyAt, ih, List.find?_cons]
      cases role == some .body <;> rfl

lemma definitionAt_eq (ns : List Node) :
    definitionAt text ns = (ns.find? fun n => n.role == some .definition).map (stmtOf text) := by
  induction ns with
  | nil => rfl
  | cons n ns ih =>
    rw [definitionAt, ih, List.find?_cons]
    cases n.role == some .definition <;> rfl

lemma stmtsOf_eq_flatMap (ns : List Node) :
    stmtsOf text ns = ns.flatMap fun n => stmtsOf text [n] := by
  induction ns with
  | nil => rfl
  | cons n ns ih =>
    rw [List.flatMap_cons, ← ih, stmtsOf, stmtsOf, stmtsOf]
    split <;> rfl

lemma bodiesOf_eq_flatMap (inMatch : Bool) (ns : List Node) :
    bodiesOf text inMatch ns = ns.flatMap fun n => bodiesOf text inMatch [n] := by
  induction ns with
  | nil => rfl
  | cons n ns ih =>
    cases n with
    | mk kind span role extra children =>
      rw [List.flatMap_cons, ← ih]
      simp only [bodiesOf, List.append_nil]

/-! ## Statements, by the kind of their node -/

section

variable {text} {n : Node}

lemma stmtOf_class (h : n.kind = .classDefinition) :
    stmtOf text n = .classDef (spellingAt text .name n.children)
      (argumentsAt text .superclasses n.children) (bodyAt text n.children) (positionOf text n) := by
  cases n
  subst h
  rw [stmtOf]

lemma stmtOf_function (h : n.kind = .functionDefinition) :
    stmtOf text n = .functionDef (spellingAt text .name n.children) (n.hasChild (.mark "async"))
      (bodyAt text n.children) (positionOf text n) := by
  cases n
  subst h
  rw [stmtOf]

lemma stmtOf_decorated (h : n.kind = .decoratedDefinition) :
    stmtOf text n
      = (definitionAt text n.children).getD (.other .decoratedDefinition (positionOf text n)) := by
  cases n
  subst h
  rw [stmtOf]

lemma stmtOf_expressionStatement (h : n.kind = .expressionStatement) :
    stmtOf text n = simpleStmtOf text (positionOf text n) n.phrases := by
  cases n
  subst h
  rw [stmtOf]

lemma isSome_ofKind? (k : Kind) : (CompoundKind.ofKind? k).isSome = k.isCompound := by
  cases k <;> rfl

lemma stmtOf_compound (h : n.kind.isCompound = true) :
    ∃ c, stmtOf text n = .compound c (bodiesOf text (n.kind == .matchStatement) n.children)
      (positionOf text n) := by
  obtain ⟨c, hc⟩ := Option.isSome_iff_exists.1 ((isSome_ofKind? n.kind).trans h)
  refine ⟨c, ?_⟩
  cases n with
  | mk kind span role extra children =>
    have hc : CompoundKind.ofKind? kind = some c := hc
    rw [stmtOf, hc]
    all_goals rintro rfl; simp [CompoundKind.ofKind?] at hc

lemma stmtOf_phrase (h : n.kind.isOutline = false) :
    stmtOf text n = (if n.kind = .expressionStatement
      then simpleStmtOf text (positionOf text n) n.phrases
      else .other n.kind (positionOf text n)) := by
  split
  · next hkind => exact stmtOf_expressionStatement hkind
  · next hkind =>
    cases n with
    | mk kind span role extra children =>
      simp only [Kind.isOutline, Bool.or_eq_false_iff] at h
      have hnone : CompoundKind.ofKind? kind = none := by
        rw [← Option.not_isSome_iff_eq_none, isSome_ofKind?, Bool.not_eq_true]
        exact h.1.2
      rw [stmtOf, hnone]
      all_goals rintro rfl; simp_all [Kind.isDefinition]

lemma bodiesOf_block (inMatch : Bool) (h : n.kind = .block) (hextra : n.extra = false) :
    bodiesOf text inMatch [n]
      = if inMatch then bodiesOf text false n.children else [stmtsOf text n.children] := by
  cases n
  subst h hextra
  simp [bodiesOf]

lemma bodiesOf_clause (inMatch : Bool) (h : n.kind.isClause = true) (hextra : n.extra = false) :
    bodiesOf text inMatch [n] = bodiesOf text false n.children := by
  have hblock : n.kind ≠ .block := by
    intro hkind
    simp [hkind, Kind.isClause] at h
  cases n
  subst hextra
  simp_all [bodiesOf]

lemma bodiesOf_phrase (inMatch : Bool) (h : n.kind.isOutline = false) :
    bodiesOf text inMatch [n] = [] := by
  simp only [Kind.isOutline, Bool.or_eq_false_iff] at h
  cases n
  simp only [bodiesOf, h]
  simp

end

/-! ## Definitions -/

/-- The statement defines a class or a function. -/
def Stmt.isDefinition : Stmt → Bool
  | .classDef .. | .functionDef .. => true
  | _ => false

/-- The definitions among statements and those inside them. -/
def Stmt.definitionsIn (ss : List Stmt) : List Stmt := (Stmt.forest ss).filter Stmt.isDefinition

lemma definitionsIn_flatMap {α : Type} (f : α → List Stmt) (l : List α) :
    Stmt.definitionsIn (l.flatMap f) = l.flatMap fun a => Stmt.definitionsIn (f a) := by
  induction l with
  | nil => rfl
  | cons a l ih =>
    rw [List.flatMap_cons, Stmt.definitionsIn, Stmt.forest_append, List.filter_append]
    exact congrArg _ ih

/-- A statement contributes itself, if it is a definition, and what it holds. -/
lemma definitionsIn_singleton (s : Stmt) :
    Stmt.definitionsIn [s]
      = (if s.isDefinition then [s] else []) ++ Stmt.definitionsIn s.held := by
  rw [Stmt.definitionsIn, Stmt.forest_eq_flatMap, List.flatMap_singleton, Stmt.subtree_eq_cons,
    List.filter_cons]
  split <;> rfl

/-- The statements that a node at a place stands for. -/
def contentAt : Place → Node → List Stmt
  | .statement, n | .definition, n => stmtsOf text [n]
  | .body, n => stmtsOf text n.children
  | .part, n => (bodiesOf text false [n]).flatten
  | .matchPart, n => (bodiesOf text true [n]).flatten
  | .phrase, _ => []

lemma definitionsIn_simpleStmtOf (p : Position) (parts : List Node) :
    Stmt.definitionsIn [simpleStmtOf text p parts] = [] := by
  have hother : ∀ kind, Stmt.definitionsIn [.other kind p] = [] := fun _ => rfl
  unfold simpleStmtOf
  split
  · split
    · unfold assignmentOf
      split
      · exact hother _
      · split
        · rfl
        · cases chainAt text _ with
          | none => exact hother _
          | some chain => rfl
    · exact hother _
  · exact hother _

lemma definitionsIn_stmtOf_phrase {n : Node} (h : n.kind.isOutline = false) :
    Stmt.definitionsIn [stmtOf text n] = [] := by
  rw [stmtOf_phrase h]
  split
  · exact definitionsIn_simpleStmtOf text _ _
  · rfl

/-- If at most one node plays a role, whatever the first one gives is what all of them give. -/
lemma flatMap_role_eq_find? {α : Type} {role : Role} {ns : List Node} (f : Node → List α)
    (h : ns.countP (·.role == some role) ≤ 1) :
    (ns.flatMap fun n => if n.role = some role then f n else [])
      = ((ns.find? fun n => n.role == some role).map f).getD [] := by
  induction ns with
  | nil => rfl
  | cons n ns ih =>
    rw [List.countP_cons] at h
    rw [List.flatMap_cons, List.find?_cons]
    by_cases hrole : n.role = some role
    · have hzero : ns.countP (·.role == some role) = 0 := by
        simp only [hrole, beq_self_eq_true, if_true] at h
        omega
      have hrest : (ns.flatMap fun n => if n.role = some role then f n else []) = [] := by
        rw [List.flatMap_eq_nil_iff]
        intro m hm
        have := List.countP_eq_zero.1 hzero m hm
        rw [if_neg (by simpa using this)]
      simp [hrole, hrest]
    · rw [if_neg hrole, List.nil_append, ih (by omega), beq_false_of_ne hrole]

/-! ### One node

Each lemma is about the nodes of one kind: what such a node gives is what its children give at their
own places, behind itself if it is a definition. -/

variable {text} {n : Node}

lemma definitionsIn_contentAt_phrase {place : Place} (hfits : n.fits place = true)
    (h : n.kind.isOutline = false) : Stmt.definitionsIn (contentAt text place n) = [] := by
  have hadmits := (Node.fits_iff.1 hfits).admits
  have hnot := h
  simp only [Kind.isOutline, Bool.or_eq_false_iff] at hnot
  cases place with
  | statement =>
    rw [contentAt, stmtsOf_eq, List.filter_cons, List.filter_nil]
    split
    · exact definitionsIn_stmtOf_phrase text h
    · rfl
  | definition => simp [Place.admits, hnot] at hadmits
  | body => simp [Place.admits, hnot] at hadmits
  | part | matchPart => rw [contentAt, bodiesOf_phrase _ h]; rfl
  | phrase => rfl

lemma isPhrase_of_fits {place : Place} (hfits : n.fits place = true)
    (h : n.kind.isOutline = true) : n.isPhrase = true := by
  have hextra := (Node.fits_iff.1 hfits).extra h
  simp [Node.isPhrase, Kind.isNamed_of_isOutline h, hextra]

/-- A node of the outline among statements is a statement. -/
lemma stmtsOf_singleton {place : Place} (hfits : n.fits place = true)
    (h : n.kind.isOutline = true) : stmtsOf text [n] = [stmtOf text n] := by
  rw [stmtsOf_eq, List.filter_cons_of_pos (isPhrase_of_fits hfits h)]
  rfl

/-- The body of a definition is what its children in the role of a body stand for. -/
lemma bodyAt_eq_flatMap (h : n.hasOne .body = true) :
    bodyAt text n.children
      = n.children.flatMap fun c =>
          if c.role = some .body then stmtsOf text c.children else [] := by
  rw [bodyAt_eq, flatMap_role_eq_find? _ (by simpa [Node.hasOne] using h)]

lemma definitionsIn_definition {place : Place} (hfits : n.fits place = true)
    (h : n.kind.isDefinition = true) :
    Stmt.definitionsIn [stmtOf text n] = stmtOf text n :: n.children.flatMap fun c =>
      Stmt.definitionsIn (contentAt text (place.below n.kind c.role) c) := by
  have hbody : Stmt.definitionsIn (bodyAt text n.children) = n.children.flatMap fun c =>
      Stmt.definitionsIn (contentAt text (place.below n.kind c.role) c) := by
    rw [bodyAt_eq_flatMap (Node.fits_iff.1 hfits).body, definitionsIn_flatMap]
    congr 1
    funext c
    rw [Place.below_definition h]
    split <;> rfl
  rw [definitionsIn_singleton, ← hbody]
  cases hkind : n.kind with
  | classDefinition => rw [stmtOf_class hkind]; rfl
  | functionDefinition => rw [stmtOf_function hkind]; rfl
  | _ => simp [hkind, Kind.isDefinition] at h

/-- A definition with decorators is the definition below them. -/
lemma definitionsIn_decorated {place : Place} (hfits : n.fits place = true)
    (h : n.kind = .decoratedDefinition) :
    Stmt.definitionsIn [stmtOf text n] = n.children.flatMap fun c =>
      Stmt.definitionsIn (contentAt text (place.below n.kind c.role) c) := by
  have hfits' := Node.fits_iff.1 hfits
  have hbelow (c : Node) : place.below n.kind c.role
      = if c.role = some .definition then .definition else .phrase := by rw [h]; rfl
  have hchild : ∀ c ∈ n.children,
      Stmt.definitionsIn (contentAt text (place.below n.kind c.role) c)
        = if c.role = some .definition then Stmt.definitionsIn [stmtOf text c] else [] := by
    intro c hc
    rw [hbelow]
    split
    · next hrole =>
      have hc' := hfits'.children c hc
      rw [hbelow, if_pos hrole] at hc'
      have hkind : c.kind.isDefinition = true := (Node.fits_iff.1 hc').admits
      rw [contentAt, stmtsOf_singleton hc' (by simp [Kind.isOutline, hkind])]
    · rfl
  rw [List.flatMap_congr hchild,
    flatMap_role_eq_find? _ (by simpa [Node.hasOne] using hfits'.definition),
    stmtOf_decorated h, definitionAt_eq]
  cases n.children.find? fun c => c.role == some .definition with
  | none => rfl
  | some c => rfl

/-- The bodies of a compound statement are those that its children give. -/
lemma definitionsIn_bodiesOf (inMatch : Bool) (ns : List Node) :
    Stmt.definitionsIn (bodiesOf text inMatch ns).flatten = ns.flatMap fun c =>
      Stmt.definitionsIn (contentAt text (if inMatch then .matchPart else .part) c) := by
  induction ns with
  | nil => rfl
  | cons n ns ih =>
    rw [bodiesOf_eq_flatMap, List.flatMap_cons, ← bodiesOf_eq_flatMap, List.flatten_append,
      Stmt.definitionsIn, Stmt.forest_append, List.filter_append, List.flatMap_cons, ← ih]
    cases inMatch <;> rfl

lemma definitionsIn_compound {place : Place} (h : n.kind.isCompound = true) :
    Stmt.definitionsIn [stmtOf text n] = n.children.flatMap fun c =>
      Stmt.definitionsIn (contentAt text (place.below n.kind c.role) c) := by
  obtain ⟨c, hc⟩ := @stmtOf_compound text n h
  rw [hc, definitionsIn_singleton, if_neg (by simp [Stmt.isDefinition]), List.nil_append, Stmt.held,
    definitionsIn_bodiesOf]
  simp only [Place.below_compound h]

lemma definitionsIn_stmtsOf (ns : List Node) :
    Stmt.definitionsIn (stmtsOf text ns) = ns.flatMap fun c =>
      Stmt.definitionsIn (contentAt text .statement c) := by
  rw [stmtsOf_eq_flatMap, definitionsIn_flatMap]
  rfl

/-- A block gives its statements, and below a `match` statement its clauses. -/
lemma definitionsIn_block {place : Place} (hfits : n.fits place = true) (h : n.kind = .block) :
    Stmt.definitionsIn (contentAt text place n) = n.children.flatMap fun c =>
      Stmt.definitionsIn (contentAt text (place.below n.kind c.role) c) := by
  have hfits' := Node.fits_iff.1 hfits
  have hextra : n.extra = false := hfits'.extra (by rw [h]; rfl)
  have hadmits := hfits'.admits
  rw [h] at hadmits ⊢
  cases place with
  | statement | definition | phrase =>
    simp [Place.admits, Kind.isDefinition, Kind.isCompound, Kind.isOutline] at hadmits
  | body => exact definitionsIn_stmtsOf n.children
  | part =>
    rw [contentAt, bodiesOf_block _ h hextra, if_neg (by simp), List.flatten_singleton]
    exact definitionsIn_stmtsOf n.children
  | matchPart =>
    rw [contentAt, bodiesOf_block _ h hextra, if_pos rfl]
    exact definitionsIn_bodiesOf false n.children

/-- A clause gives what its parts give. -/
lemma definitionsIn_clause {place : Place} (hfits : n.fits place = true)
    (h : n.kind.isClause = true) :
    Stmt.definitionsIn (contentAt text place n) = n.children.flatMap fun c =>
      Stmt.definitionsIn (contentAt text (place.below n.kind c.role) c) := by
  have hfits' := Node.fits_iff.1 hfits
  have hextra : n.extra = false := hfits'.extra (by simp [Kind.isOutline, h])
  have hcontent : contentAt text place n = (bodiesOf text false n.children).flatten := by
    rcases Place.eq_of_admits_clause hfits'.admits h with rfl | rfl
    · rw [contentAt, bodiesOf_clause _ h hextra]
    · rw [contentAt, bodiesOf_clause _ h hextra]
  simp only [Place.below_clause h, hcontent]
  exact definitionsIn_bodiesOf false n.children

/-! ### The whole tree -/

/-- A statement of the outline stands where statements do. -/
lemma contentAt_of_statement {place : Place} (hfits : n.fits place = true)
    (h : n.kind.isDefinition || n.kind == .decoratedDefinition || n.kind.isCompound) :
    contentAt text place n = [stmtOf text n] := by
  have hkind : n.kind.isOutline = true := by
    simp only [Bool.or_eq_true] at h
    rcases h with (h | h) | h <;> simp [Kind.isOutline, h]
  rcases Place.eq_of_admits_statement (Node.fits_iff.1 hfits).admits h with rfl | rfl
  · exact stmtsOf_singleton hfits hkind
  · exact stmtsOf_singleton hfits hkind

/-- What a node gives is what its children give, behind itself if it is a definition. -/
lemma definitionsIn_contentAt_step {place : Place} (hfits : n.fits place = true) :
    Stmt.definitionsIn (contentAt text place n)
      = (if n.kind.isDefinition then [stmtOf text n] else []) ++ n.children.flatMap fun c =>
        Stmt.definitionsIn (contentAt text (place.below n.kind c.role) c) := by
  cases hdef : n.kind.isDefinition with
  | true =>
    rw [contentAt_of_statement hfits (by simp [hdef]), definitionsIn_definition hfits hdef]
    rfl
  | false =>
    rw [if_neg (by simp), List.nil_append]
    cases hkind : n.kind.isOutline with
    | false =>
      rw [definitionsIn_contentAt_phrase hfits hkind]
      simp only [Place.below_eq_phrase hkind]
      exact (List.flatMap_eq_nil_iff.2 fun _ _ => rfl).symm
    | true =>
      simp only [Kind.isOutline, hdef, Bool.or_eq_true, beq_iff_eq, Bool.or_false] at hkind
      rcases hkind with (((hroot | hblock) | hdecorated) | hcompound) | hclause
      · have hadmits := (Node.fits_iff.1 hfits).admits
        rw [hroot, Place.admits_root] at hadmits
        cases hadmits
      · exact definitionsIn_block hfits hblock
      · rw [contentAt_of_statement hfits (by simp [hdecorated])]
        exact definitionsIn_decorated hfits hdecorated
      · rw [contentAt_of_statement hfits (by simp [hcompound])]
        exact definitionsIn_compound hcompound
      · exact definitionsIn_clause hfits hclause

/-- The definitions that a node gives are those among the nodes below it. -/
lemma definitionsIn_contentAt {place : Place} (hfits : n.fits place = true) :
    Stmt.definitionsIn (contentAt text place n) = n.definitions.map (stmtOf text) := by
  induction n using Node.childInduction generalizing place with
  | step n ih =>
    have hchildren : ∀ c ∈ n.children,
        Stmt.definitionsIn (contentAt text (place.below n.kind c.role) c)
          = c.definitions.map (stmtOf text) :=
      fun c hc => ih c hc ((Node.fits_iff.1 hfits).children c hc)
    rw [definitionsIn_contentAt_step hfits, List.flatMap_congr hchildren, Node.definitions_eq,
      List.map_append, List.map_flatMap]
    split <;> rfl

variable (text)

/-- **The definitions of a model are those of its tree, at any depth and in the same order.** -/
theorem definitions_ofTree {t : Node} (h : t.IsRegular) :
    (Module.ofTree text t).statements.filter Stmt.isDefinition
      = t.definitions.map (stmtOf text) := by
  obtain ⟨hroot, hchildren⟩ := h
  have hcontent : ∀ c ∈ t.children,
      Stmt.definitionsIn (contentAt text .statement c) = c.definitions.map (stmtOf text) :=
    fun c hc => definitionsIn_contentAt (hchildren c hc)
  calc (Module.ofTree text t).statements.filter Stmt.isDefinition
      = Stmt.definitionsIn (stmtsOf text t.children) := rfl
    _ = t.children.flatMap fun c => c.definitions.map (stmtOf text) := by
        rw [definitionsIn_stmtsOf, List.flatMap_congr hcontent]
    _ = t.definitions.map (stmtOf text) := by
        rw [Node.definitions_eq, hroot, if_neg (by simp [Kind.isDefinition]), List.nil_append,
          List.map_flatMap]

/-- The class that a node defines. -/
def classOf (n : Node) : ClassDef where
  name := spellingAt text .name n.children
  bases := argumentsAt text .superclasses n.children
  body := bodyAt text n.children
  pos := positionOf text n

lemma class?_stmtOf {n : Node} (h : n.kind.isDefinition = true) :
    (stmtOf text n).class?
      = if n.kind = .classDefinition then some (classOf text n) else none := by
  cases hkind : n.kind with
  | classDefinition => rw [stmtOf_class hkind]; rfl
  | functionDefinition => rw [stmtOf_function hkind]; rfl
  | _ => simp [hkind, Kind.isDefinition] at h

lemma filterMap_class?_filter (ss : List Stmt) :
    (ss.filter Stmt.isDefinition).filterMap Stmt.class? = ss.filterMap Stmt.class? := by
  rw [List.filterMap_filter]
  congr 1
  funext s
  cases s <;> rfl

/-- **The classes of a model are those of its tree, at any depth and in the same order.** -/
theorem classes_ofTree {t : Node} (h : t.IsRegular) :
    (Module.ofTree text t).classes
      = (t.nodes.filter (·.kind = .classDefinition)).map (classOf text) := by
  rw [Module.classes, ← filterMap_class?_filter, definitions_ofTree text h, Node.definitions,
    List.filterMap_map, List.filterMap_filter, ← List.filterMap_eq_map, List.filterMap_filter]
  congr 1
  funext n
  simp only [Function.comp_apply, decide_eq_true_eq]
  by_cases hdef : n.kind.isDefinition = true
  · rw [if_pos hdef, class?_stmtOf text hdef]
  · rw [if_neg hdef, if_neg]
    intro hclass
    exact hdef (by rw [hclass]; rfl)

end PermissionLint.Model
