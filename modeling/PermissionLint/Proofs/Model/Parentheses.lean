/-
What stands inside of parentheses.

Parentheses leave no trace in the model: an expression in parentheses is the expression, and a
target in parentheses is the target, unless a comma makes it a tuple.  `Node.core` takes all of them
away.  What a name and what a sequence is can then be read off the kind of the core:

* `isName_exprOf`: the expression is a name if its core is an identifier with that spelling;
* `elements?_exprOf`: the expression is a list or a tuple if its core is of such a kind, and the
  elements are the phrases of the core.
-/
import PermissionLint.Proofs.Model.Lowering

namespace PermissionLint.Syntax

/-- The kinds of lists and tuples, written as values or as targets. -/
def Kind.isSequence : Kind → Bool
  | list | tuple | expressionList | patternList | listPattern | tuplePattern => true
  | _ => false

namespace Node

/-- The node is nothing but parentheses around its first phrase. -/
def isWrapper (n : Node) : Bool :=
  match n.kind with
  | .parenthesizedExpression => !n.phrases.isEmpty
  | .tuplePattern => !n.hasChild (.mark ",") && n.phrases.length == 1
  | _ => false

mutual

/-- The node inside of all parentheses. -/
def core : Node → Node
  | ⟨kind, span, role, extra, children⟩ =>
    let n : Node := ⟨kind, span, role, extra, children⟩
    if n.isWrapper then (coreOf children).getD n else n

/-- The core of the first phrase among nodes. -/
def coreOf : List Node → Option Node
  | [] => none
  | n :: ns => if n.isPhrase then some (core n) else coreOf ns

end

lemma coreOf_eq (ns : List Node) : coreOf ns = (ns.filter isPhrase).head?.map core := by
  induction ns with
  | nil => rfl
  | cons n ns ih =>
    rw [coreOf, ih, List.filter_cons]
    split <;> rfl

lemma core_of_not_isWrapper {n : Node} (h : n.isWrapper = false) : n.core = n := by
  cases n
  rw [core, h]
  rfl

/-- Parentheses hold at least one phrase. -/
lemma exists_phrase_of_isWrapper {n : Node} (h : n.isWrapper = true) :
    ∃ m ms, n.phrases = m :: ms := by
  rw [isWrapper] at h
  cases hphrases : n.phrases with
  | cons m ms => exact ⟨m, ms, rfl⟩
  | nil =>
    rw [hphrases] at h
    split at h <;> simp at h

lemma core_of_isWrapper {n m : Node} {ms : List Node} (h : n.isWrapper = true)
    (hphrases : n.phrases = m :: ms) : n.core = m.core := by
  cases n with
  | mk kind span role extra children =>
    have hfirst : children.filter isPhrase = m :: ms := hphrases
    rw [core, h, if_pos rfl, coreOf_eq, hfirst]
    rfl

lemma isWrapper_core (n : Node) : n.core.isWrapper = false := by
  induction n using childInduction with
  | step n ih =>
    cases h : n.isWrapper with
    | false => rw [core_of_not_isWrapper h, h]
    | true =>
      obtain ⟨m, ms, hphrases⟩ := exists_phrase_of_isWrapper h
      have hm : m ∈ n.phrases := by simp [hphrases]
      rw [core_of_isWrapper h hphrases]
      exact ih m (List.mem_of_mem_filter hm)

end Node

end PermissionLint.Syntax

namespace PermissionLint.Model

open PermissionLint.Source PermissionLint.Syntax

variable (text : List Char)

lemma exprsOf_children (n : Node) : exprsOf text n.children = n.phrases.map (exprOf text) :=
  exprsOf_eq text n.children

/-- Parentheses stand for what they hold. -/
lemma exprOf_of_isWrapper {n m : Node} {ms : List Node} (h : n.isWrapper = true)
    (hphrases : n.phrases = m :: ms) : exprOf text n = exprOf text m := by
  have hexprs := exprsOf_children text n
  rw [hphrases, List.map_cons] at hexprs
  rw [Node.isWrapper] at h
  split at h
  · next hkind =>
    cases n
    subst hkind
    rw [exprOf, hexprs]
  · next hkind =>
    simp only [hphrases, Bool.and_eq_true, Bool.not_eq_true', List.length_cons, beq_iff_eq,
      Nat.add_eq_right, List.length_eq_zero_iff] at h
    obtain ⟨hcomma, rfl⟩ := h
    cases n
    subst hkind
    rw [exprOf, hexprs]
    simp [hcomma]
  · simp at h

/-- An expression is what its innermost parentheses hold. -/
lemma exprOf_core (n : Node) : exprOf text n.core = exprOf text n := by
  induction n using Node.childInduction with
  | step n ih =>
    cases h : n.isWrapper with
    | false => rw [Node.core_of_not_isWrapper h]
    | true =>
      obtain ⟨m, ms, hphrases⟩ := Node.exists_phrase_of_isWrapper h
      have hm : m ∈ n.phrases := by simp [hphrases]
      rw [Node.core_of_isWrapper h hphrases, ih m (List.mem_of_mem_filter hm),
        exprOf_of_isWrapper text h hphrases]

/-- A tuple of targets that is more than parentheses. -/
lemma exprOf_tuplePattern {n : Node} (hkind : n.kind = .tuplePattern) (h : n.isWrapper = false) :
    exprOf text n = .tuple (n.phrases.map (exprOf text)) (positionOf text n) := by
  have hexprs := exprsOf_children text n
  simp only [Node.isWrapper, hkind] at h
  cases n with
  | mk kind span role extra children =>
    subst hkind
    rw [exprOf, hexprs]
    split
    · next inner hinner =>
      have hlength : (⟨.tuplePattern, span, role, extra, children⟩ : Node).phrases.length = 1 := by
        rw [← List.length_map (exprOf text), hinner]
        rfl
      simp only [hlength, beq_self_eq_true, Bool.and_true, Bool.not_eq_false'] at h
      rw [if_pos h, hinner]
    · rfl

/-- Without parentheses around it, an expression shows in its kind whether it is a name and whether
it is a sequence. -/
lemma exprOf_of_not_isWrapper {n : Node} (h : n.isWrapper = false) :
    (∀ id, (exprOf text n).isName id = (n.kind == .identifier && spelling text n == id)) ∧
      (exprOf text n).elements?
        = if n.kind.isSequence then some (n.phrases.map (exprOf text)) else none := by
  by_cases htuple : n.kind = .tuplePattern
  · rw [exprOf_tuplePattern text htuple h, htuple]
    exact ⟨fun _ => rfl, rfl⟩
  have hexprs := exprsOf_children text n
  cases n with
  | mk kind span role extra children =>
    rw [exprOf.eq_def]
    simp only
    split
    -- a name
    · exact ⟨fun _ => rfl, rfl⟩
    -- lists and tuples
    · exact ⟨fun _ => rfl, congrArg some hexprs⟩
    · exact ⟨fun _ => rfl, congrArg some hexprs⟩
    · exact ⟨fun _ => rfl, congrArg some hexprs⟩
    · exact ⟨fun _ => rfl, congrArg some hexprs⟩
    · exact ⟨fun _ => rfl, congrArg some hexprs⟩
    · exact absurd rfl htuple
    -- parentheses that hold nothing
    · have hnil : exprsOf text children = [] := by
        rw [hexprs, List.map_eq_nil_iff]
        simpa [Node.isWrapper] using h
      rw [hnil]
      exact ⟨fun _ => rfl, rfl⟩
    -- attributes, calls and starred values
    · split <;> exact ⟨fun _ => rfl, rfl⟩
    · split <;> exact ⟨fun _ => rfl, rfl⟩
    · split <;> exact ⟨fun _ => rfl, rfl⟩
    · split <;> exact ⟨fun _ => rfl, rfl⟩
    · next hname hlist hlistPattern htuple hexpressionList hpatternList htuplePattern _ _ _ _ _ =>
      have hkind : (kind == .identifier) = false := beq_false_of_ne hname
      have hsequence : kind.isSequence = false := by
        cases kind <;> first
          | rfl
          | exact (hlist rfl).elim
          | exact (hlistPattern rfl).elim
          | exact (htuple rfl).elim
          | exact (hexpressionList rfl).elim
          | exact (hpatternList rfl).elim
          | exact (htuplePattern rfl).elim
      simp [Expr.isName, Expr.elements?, hkind, hsequence]

end PermissionLint.Model

namespace PermissionLint.Syntax

/-- The node is the name `id`, in any number of parentheses. -/
def Node.isNamed (text : List Char) (id : String) (n : Node) : Bool :=
  n.core.kind == .identifier && Model.spelling text n.core == id

end PermissionLint.Syntax

namespace PermissionLint.Model

open PermissionLint.Source PermissionLint.Syntax

variable (text : List Char)

lemma isName_exprOf (id : String) (n : Node) : (exprOf text n).isName id = n.isNamed text id := by
  rw [← exprOf_core]
  exact (exprOf_of_not_isWrapper text n.isWrapper_core).1 id

lemma elements?_exprOf (n : Node) :
    (exprOf text n).elements?
      = if n.core.kind.isSequence then some (n.core.phrases.map (exprOf text)) else none := by
  rw [← exprOf_core]
  exact (exprOf_of_not_isWrapper text n.isWrapper_core).2

end PermissionLint.Model
