/-
Comments leave no trace in a model.

What a node stands for is made of its phrases, of its first children in some roles, and of whether
some mark is among its children.  None of these changes when all comments and line continuations are
taken away, at any depth, so neither do expressions (`exprOf_bare`), statements (`stmtOf_bare`) nor
the whole model (`ofTree_without_asides`).
-/
import PermissionLint.Proofs.Model.Lowering
import PermissionLint.Proofs.Model.Names
import PermissionLint.Proofs.Syntax.Asides

namespace PermissionLint.Model

open PermissionLint.Source PermissionLint.Syntax

variable {text : List Char}

lemma spelling_bare (n : Node) : spelling text n.bare = spelling text n := by
  rw [spelling, Node.span_bare, spelling]

/-! ## What does not change -/

/-- The nodes and those below them have mute asides, and what is made of them is the same without. -/
def AreUnmoved {α : Type} (f : Node → α) (ns : List Node) : Prop :=
  ∀ n ∈ ns, n.HasMuteAsides ∧ ∀ m ∈ n.nodes, f m.bare = f m

namespace AreUnmoved

variable {α : Type} {f : Node → α} {ns : List Node} (h : AreUnmoved f ns)

include h

lemma mute : ∀ n ∈ ns, n.extra = true → n.IsMute :=
  fun n hn hextra => (h n hn).1 n n.self_mem_nodes hextra

lemma self : ∀ n ∈ ns, f n.bare = f n := fun n hn => (h n hn).2 n n.self_mem_nodes

lemma children {n : Node} (hn : n ∈ ns) : AreUnmoved f n.children := by
  intro c hc
  have hmem : c ∈ n.nodes := Node.mem_nodes_of_mem_children hc
  exact ⟨(h n hn).1.of_mem hmem, fun m hm => (h n hn).2 m (Node.mem_nodes_trans hm hmem)⟩

end AreUnmoved

/-! ## Expressions -/

section

variable {ns : List Node} (h : AreUnmoved (exprOf text) ns)

include h

lemma exprsOf_bareAll : exprsOf text (Node.bareAll ns) = exprsOf text ns := by
  rw [exprsOf_eq, exprsOf_eq, Node.filter_isPhrase_bareAll, List.map_map]
  exact List.map_congr_left fun n hn => h.self n (List.mem_of_mem_filter hn)

lemma exprAt_bareAll (role : Role) : exprAt text role (Node.bareAll ns) = exprAt text role ns := by
  rw [exprAt_eq, exprAt_eq, Node.find?_bareAll h.mute, Option.map_map]
  exact Option.map_congr fun n hn => h.self n (List.mem_of_find?_eq_some hn)

/-- A keyword argument counts as its value, which is the same. -/
lemma argumentsOf_bareAll : argumentsOf text (Node.bareAll ns) = argumentsOf text ns := by
  rw [argumentsOf_eq, argumentsOf_eq, Node.filter_isPhrase_bareAll, List.map_map]
  refine List.map_congr_left fun n hn => ?_
  have hn : n ∈ ns := List.mem_of_mem_filter hn
  rw [Function.comp_apply, argumentOf, Node.kind_bare, Node.children_bare, h.self n hn,
    exprAt_bareAll (h.children hn), argumentOf]

lemma argumentsAt_bareAll (role : Role) :
    argumentsAt text role (Node.bareAll ns) = argumentsAt text role ns := by
  rw [argumentsAt_eq, argumentsAt_eq, Node.find?_bareAll h.mute, Option.map_map]
  have hfirst : ∀ n ∈ ns.find? (fun n => n.role == some role),
      argumentsOf text n.bare.children = argumentsOf text n.children := by
    intro n hn
    rw [Node.children_bare, argumentsOf_bareAll (h.children (List.mem_of_find?_eq_some hn))]
  exact congrArg (fun o : Option (List Expr) => o.getD []) (Option.map_congr hfirst)

end

/-- **The expression of a node is the same without asides.** -/
theorem exprOf_bare {n : Node} (h : n.HasMuteAsides) : exprOf text n.bare = exprOf text n := by
  induction n using Node.belowInduction with
  | step n ih =>
    have hchildren : AreUnmoved (exprOf text) n.children := fun c hc =>
      ⟨h.children c hc, fun m hm => ih c hc m hm ((h.children c hc).of_mem hm)⟩
    have hmute := hchildren.mute
    have hcomma := Node.any_bareAll fun n hn hextra => (hmute n hn hextra).comma
    cases n with
    | mk kind span role extra children =>
      have hexprs : exprsOf text (Node.bareAll children) = exprsOf text children :=
        exprsOf_bareAll hchildren
      have hobject : exprAt text .object (Node.bareAll children) = exprAt text .object children :=
        exprAt_bareAll hchildren .object
      have hfunction : exprAt text .function (Node.bareAll children)
          = exprAt text .function children := exprAt_bareAll hchildren .function
      have hposition : positionOf text ⟨kind, span, role, extra, Node.bareAll children⟩
          = positionOf text ⟨kind, span, role, extra, children⟩ := rfl
      have hspelling : spelling text ⟨kind, span, role, extra, Node.bareAll children⟩
          = spelling text ⟨kind, span, role, extra, children⟩ := rfl
      rw [Node.bare, exprOf.eq_def, exprOf.eq_def]
      simp only [hexprs, hobject, hfunction, argumentsAt_bareAll hchildren,
        Node.find?_bareAll hmute, Node.hasChild, hcomma, hposition, hspelling]
      -- what is left is the name of an attribute
      cases children.find? fun c => c.role == some .attributeName with
      | none => rfl
      | some name =>
        cases exprAt text .object children with
        | none => rfl
        | some value =>
          simp only [Option.map_some, spelling_bare]
          rfl

/-! ## Assignments -/

section

variable {ns : List Node} (h : ∀ n ∈ ns, n.HasMuteAsides)

include h

lemma areUnmoved (text : List Char) : AreUnmoved (exprOf text) ns :=
  fun n hn => ⟨h n hn, fun _ hm => exprOf_bare ((h n hn).of_mem hm)⟩

lemma isMute_of_mem : ∀ n ∈ ns, n.extra = true → n.IsMute := fun n hn => h n hn n n.self_mem_nodes

end

lemma spellingAt_bareAll {ns : List Node} (h : ∀ n ∈ ns, n.extra = true → n.IsMute) (role : Role) :
    spellingAt text role (Node.bareAll ns) = spellingAt text role ns := by
  rw [spellingAt, spellingAt, Node.find?_bareAll h]
  cases ns.find? fun n => n.role == some role with
  | none => rfl
  | some n => exact spelling_bare n

lemma chainAt_bareAll {ns : List Node} (h : ∀ n ∈ ns, n.extra = true → n.IsMute)
    (hchain : ∀ n ∈ ns, chainOf text n.bare = chainOf text n) :
    chainAt text (Node.bareAll ns) = chainAt text ns := by
  rw [chainAt_eq, chainAt_eq, Node.find?_bareAll h]
  cases hfirst : ns.find? fun n => n.role == some .right with
  | none => rfl
  | some n => exact hchain n (List.mem_of_find?_eq_some hfirst)

lemma chainOf_bare {n : Node} (h : n.HasMuteAsides) : chainOf text n.bare = chainOf text n := by
  induction n using Node.childInduction with
  | step n ih =>
    have hleft := exprAt_bareAll (areUnmoved h.children text) .left
    have hright := chainAt_bareAll (isMute_of_mem h.children)
      fun c hc => ih c hc (h.children c hc)
    have hself : exprOf text n.bare = exprOf text n := exprOf_bare h
    cases n with
    | mk kind span role extra children =>
      rw [Node.bare] at hself ⊢
      rw [chainOf, chainOf, hself, hright, hleft]

lemma assignmentOf_bare {n : Node} (h : n.HasMuteAsides) (pos : Position) :
    assignmentOf text pos n.bare = assignmentOf text pos n := by
  have hexprs := areUnmoved h.children text
  have hchain : chainAt text (Node.bareAll n.children) = chainAt text n.children :=
    chainAt_bareAll (isMute_of_mem h.children) fun c hc => chainOf_bare (h.children c hc)
  rw [assignmentOf, assignmentOf, Node.child?, Node.children_bare, exprAt_bareAll hexprs,
    exprAt_bareAll hexprs, hchain, Node.find?_bareAll hexprs.mute, Node.child?]
  cases exprAt text .left n.children with
  | none => rfl
  | some left =>
    cases hfirst : n.children.find? fun c => c.role == some .typeHint with
    | none => rfl
    | some hint =>
      have hmem : hint ∈ n.children := List.mem_of_find?_eq_some hfirst
      simp only [Option.map_some, Node.children_bare, exprsOf_bareAll (hexprs.children hmem),
        hexprs.self hint hmem]

/-- A statement on one line is made of its phrases. -/
lemma simpleStmtOf_map_bare {parts : List Node} (h : ∀ n ∈ parts, n.HasMuteAsides)
    (pos : Position) : simpleStmtOf text pos (parts.map Node.bare) = simpleStmtOf text pos parts := by
  match parts with
  | [] | _ :: _ :: _ => rfl
  | [only] =>
    simp only [List.map_singleton, simpleStmtOf, Node.kind_bare,
      assignmentOf_bare (h only (List.mem_singleton_self only))]

/-! ## Statements -/

section

variable {ns : List Node} (h : AreUnmoved (stmtOf text) ns)

include h

lemma stmtsOf_bareAll : stmtsOf text (Node.bareAll ns) = stmtsOf text ns := by
  rw [stmtsOf_eq, stmtsOf_eq, Node.filter_isPhrase_bareAll, List.map_map]
  exact List.map_congr_left fun n hn => h.self n (List.mem_of_mem_filter hn)

lemma bodyAt_bareAll : bodyAt text (Node.bareAll ns) = bodyAt text ns := by
  rw [bodyAt_eq, bodyAt_eq, Node.find?_bareAll h.mute]
  cases hfirst : ns.find? fun n => n.role == some .body with
  | none => rfl
  | some n =>
    simp only [Option.map_some, Node.children_bare,
      stmtsOf_bareAll (h.children (List.mem_of_find?_eq_some hfirst))]

lemma definitionAt_bareAll : definitionAt text (Node.bareAll ns) = definitionAt text ns := by
  rw [definitionAt_eq, definitionAt_eq, Node.find?_bareAll h.mute, Option.map_map]
  exact Option.map_congr fun n hn => h.self n (List.mem_of_find?_eq_some hn)

end

lemma bodiesOf_bareAll_of {ns : List Node} (inMatch : Bool)
    (h : ∀ n ∈ ns, n.extra = false → bodiesOf text inMatch [n.bare] = bodiesOf text inMatch [n]) :
    bodiesOf text inMatch (Node.bareAll ns) = bodiesOf text inMatch ns := by
  induction ns with
  | nil => rfl
  | cons n ns ih =>
    obtain ⟨hn, hns⟩ := List.forall_mem_cons.1 h
    rw [Node.bareAll, bodiesOf_eq_flatMap text inMatch (n :: ns), List.flatMap_cons,
      ← bodiesOf_eq_flatMap, ← ih hns]
    split
    · next hextra =>
      cases n
      rw [bodiesOf, if_pos hextra]
      rfl
    · next hextra =>
      rw [bodiesOf_eq_flatMap, List.flatMap_cons, ← bodiesOf_eq_flatMap,
        hn (by simpa using hextra)]

/-- The bodies are those of the blocks, at any depth of clauses. -/
lemma bodiesOf_bare {n : Node} (h : AreUnmoved (stmtOf text) [n]) (hextra : n.extra = false)
    (inMatch : Bool) : bodiesOf text inMatch [n.bare] = bodiesOf text inMatch [n] := by
  induction n using Node.childInduction generalizing inMatch with
  | step n ih =>
    have hchildren := h.children (List.mem_singleton_self n)
    have hstmts := stmtsOf_bareAll hchildren
    have hbodies : bodiesOf text false (Node.bareAll n.children) = bodiesOf text false n.children :=
      bodiesOf_bareAll_of false fun c hc hc' =>
        ih c hc (fun m hm => hchildren m (List.mem_singleton.1 hm ▸ hc)) hc' false
    cases n with
    | mk kind span role extra children => rw [Node.bare, bodiesOf, bodiesOf, hstmts, hbodies]; rfl

lemma bodiesOf_bareAll {ns : List Node} (h : AreUnmoved (stmtOf text) ns) (inMatch : Bool) :
    bodiesOf text inMatch (Node.bareAll ns) = bodiesOf text inMatch ns :=
  bodiesOf_bareAll_of inMatch fun _ hn hextra =>
    bodiesOf_bare (fun m hm => h m (List.mem_singleton.1 hm ▸ hn)) hextra inMatch

/-- **The statement of a node is the same without asides.** -/
theorem stmtOf_bare {n : Node} (h : n.HasMuteAsides) : stmtOf text n.bare = stmtOf text n := by
  induction n using Node.belowInduction with
  | step n ih =>
    have hchildren : AreUnmoved (stmtOf text) n.children := fun c hc =>
      ⟨h.children c hc, fun m hm => ih c hc m hm ((h.children c hc).of_mem hm)⟩
    have hmute := isMute_of_mem h.children
    have hexprs := areUnmoved h.children text
    have hasync := Node.any_bareAll fun n hn hextra => (hmute n hn hextra).async
    have hphrases : n.bare.phrases = n.phrases.map Node.bare := by
      rw [Node.phrases, Node.children_bare, Node.filter_isPhrase_bareAll, Node.phrases]
    have hsimple : ∀ pos, simpleStmtOf text pos n.bare.phrases = simpleStmtOf text pos n.phrases := by
      intro pos
      rw [hphrases]
      exact simpleStmtOf_map_bare (fun c hc => h.children c (List.mem_of_mem_filter hc)) pos
    cases n with
    | mk kind span role extra children =>
      have hposition : positionOf text ⟨kind, span, role, extra, Node.bareAll children⟩
          = positionOf text ⟨kind, span, role, extra, children⟩ := rfl
      rw [Node.bare] at hsimple ⊢
      rw [stmtOf.eq_def, stmtOf.eq_def]
      simp only [spellingAt_bareAll hmute, argumentsAt_bareAll hexprs, bodyAt_bareAll hchildren,
        definitionAt_bareAll hchildren, bodiesOf_bareAll hchildren, Node.hasChild, hasync,
        hposition, hsimple]

lemma ofTree_bare {t : Node} (h : t.HasMuteAsides) :
    Module.ofTree text t.bare = Module.ofTree text t := by
  have hchildren : AreUnmoved (stmtOf text) t.children := fun c hc =>
    ⟨h.children c hc, fun m hm => stmtOf_bare ((h.children c hc).of_mem hm)⟩
  rw [Module.ofTree, Node.children_bare, stmtsOf_bareAll hchildren, Module.ofTree]

/-- **Comments and line continuations leave no trace**: the model of a tree is the same once all of
them are taken away, at any depth.  This holds for every tree whose asides play no role and are no
marks, and the trees that are read are such trees. -/
theorem ofTree_without_asides (text : List Char) :
    (∀ t : Node, t.HasMuteAsides → (∀ m ∈ t.bare.nodes, m = t.bare ∨ m.extra = false) ∧
        Module.ofTree text t.bare = Module.ofTree text t) ∧
      ∀ t, Node.ofText text = .ok t → t.HasMuteAsides :=
  ⟨fun _ h => ⟨fun _ hm => Node.extra_of_mem_bare hm, ofTree_bare h⟩,
    fun _ h => hasMuteAsides_ofText h⟩

set_option maxRecDepth 100000 in
/-- Comments in the header of a class, inside of a target in parentheses and behind a statement, and
a line continuation inside of a list. -/
theorem ofTree_without_asides_four :
    let text := "class V:  # a\n  (  # b\n  p) = [\\\n  A]  # c\n".toList
    ∃ t, Node.ofText text = .ok t ∧ t.HasMuteAsides ∧ t.nodes.countP Node.extra = 4 ∧
      t.bare.nodes.countP Node.extra = 0 ∧ Module.ofTree text t.bare = Module.ofTree text t := by
  intro text
  have hread : (Node.ofText text).toOption.any (fun t =>
      t.nodes.countP Node.extra = 4 ∧ t.bare.nodes.countP Node.extra = 0) = true := by
    decide +kernel
  cases ht : Node.ofText text with
  | error e =>
    rw [ht] at hread
    cases hread
  | ok t =>
    rw [ht] at hread
    obtain ⟨hcount, hbare⟩ := of_decide_eq_true hread
    obtain ⟨hmodel, hmute⟩ := ofTree_without_asides text
    exact ⟨t, rfl, hmute t ht, hcount, hbare, (hmodel t (hmute t ht)).2⟩

end PermissionLint.Model
