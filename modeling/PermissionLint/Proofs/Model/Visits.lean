/-
Visiting the definitions of a tree.

A visitor that overrides one hook for definitions, and goes down from there, is told about every
definition of that sort in the tree, at whatever depth it stands, once and in the order of the
source.  The announcements of definitions are those of the definitions among the statements of the
model (`filter_announced`), and these are the definitions of the tree (`definitions_ofTree`).  The
main result is `visit_lister_ofTree`.
-/
import PermissionLint.Proofs.Model.Lowering
import PermissionLint.Proofs.Syntax.Frames

namespace PermissionLint.Model

open PermissionLint.Source PermissionLint.Syntax

/-! ## Announcements of definitions -/

/-- The event announces a class or a function. -/
def Event.isDefinition (event : Event) : Bool :=
  event.hook == .classDef || event.hook == .functionDef

/-- The event that announces a statement as what it is, if it is a definition. -/
def Stmt.event : Stmt → Event
  | .classDef name bases body p => .classDef (.classDef name bases body p)
  | .functionDef name isAsync body p => .functionDef (.functionDef name isAsync body p)
  | s => .stmt s

/-- The events of the definitions among statements. -/
def Stmt.definitionEvents (ss : List Stmt) : List Event :=
  (ss.filter Stmt.isDefinition).map Stmt.event

lemma definitionEvents_append (ss ts : List Stmt) :
    Stmt.definitionEvents (ss ++ ts) = Stmt.definitionEvents ss ++ Stmt.definitionEvents ts := by
  rw [Stmt.definitionEvents, List.filter_append, List.map_append]
  rfl

mutual

lemma filter_expr_announced : ∀ e : Expr, e.announced.filter Event.isDefinition = []
  | .name .. | .other .. => rfl
  | .list elts p | .tuple elts p => filter_expr_announcedAll elts
  | .attr value field p | .starred value p => filter_expr_announced value
  | .call func args p => by
    rw [Expr.announced, List.filter_cons_of_neg (by simp [Event.isDefinition, Event.hook]),
      List.filter_append, filter_expr_announced func, filter_expr_announcedAll args,
      List.append_nil]

lemma filter_expr_announcedAll : ∀ es : List Expr,
    (Expr.announcedAll es).filter Event.isDefinition = []
  | [] => rfl
  | e :: es => by
    rw [Expr.announcedAll, List.filter_append, filter_expr_announced e,
      filter_expr_announcedAll es, List.append_nil]

end

mutual

lemma filter_stmt_announced : ∀ s : Stmt,
    s.announced.filter Event.isDefinition = Stmt.definitionEvents s.subtree
  | .classDef name bases body p => by
    rw [Stmt.announced, List.filter_append, List.filter_append, filter_expr_announcedAll,
      filter_stmt_announcedAll body]
    rfl
  | .functionDef name isAsync body p => by
    rw [Stmt.announced, List.filter_append, filter_stmt_announcedAll body]
    rfl
  | .assign targets value p => by
    rw [Stmt.announced, List.filter_append, List.filter_append, filter_expr_announcedAll,
      filter_expr_announced]
    rfl
  | .annAssign target hint value p => by
    rw [Stmt.announced, List.filter_append, List.filter_append, List.filter_append,
      filter_expr_announced, filter_expr_announced, filter_expr_announcedAll]
    rfl
  | .compound kind bodies p => by
    rw [Stmt.announced, List.filter_append, filter_stmt_announcedBodies bodies]
    rfl
  | .other kind p => rfl

lemma filter_stmt_announcedAll : ∀ ss : List Stmt,
    (Stmt.announcedAll ss).filter Event.isDefinition = Stmt.definitionEvents (Stmt.forest ss)
  | [] => rfl
  | s :: ss => by
    rw [Stmt.announcedAll, Stmt.forest, List.filter_append, definitionEvents_append,
      filter_stmt_announced s, filter_stmt_announcedAll ss]

lemma filter_stmt_announcedBodies : ∀ bodies : List (List Stmt),
    (Stmt.announcedBodies bodies).filter Event.isDefinition
      = Stmt.definitionEvents (Stmt.forests bodies)
  | [] => rfl
  | body :: bodies => by
    rw [Stmt.announcedBodies, Stmt.forests, List.filter_append, definitionEvents_append,
      filter_stmt_announcedAll body, filter_stmt_announcedBodies bodies]

end

/-- **Every definition of a module is announced as such once, in order, and nothing else is.** -/
theorem filter_announced (m : Module) :
    m.announced.filter Event.isDefinition = Stmt.definitionEvents m.statements := by
  rw [Module.announced, List.filter_cons_of_neg (by simp [Event.isDefinition, Event.hook]),
    filter_stmt_announcedAll]
  rfl

/-! ## Visitors that list definitions -/

/-- The name and the place of the definition that an event announces. -/
def Event.heading? : Event → Option (String × Position)
  | .classDef (.classDef name _ _ p) | .functionDef (.functionDef name _ _ p) => some (name, p)
  | _ => none

/-- The visitor that does something at one hook only: it writes down the name and the place of the
definition that is announced there.  It goes down everywhere. -/
def Visitor.lister (hook : Hook) : Visitor (List (String × Position)) :=
  fun event descend seen =>
    if event.hook = hook then descend (seen ++ event.heading?.toList) else descend seen

/-- What a lister writes down at an event. -/
def Event.listed (hook : Hook) (event : Event) : List (String × Position) :=
  if event.hook = hook then event.heading?.toList else []

lemma lister_eq_writer (hook : Hook) : Visitor.lister hook = Visitor.writer (Event.listed hook) := by
  funext event descend seen
  rw [Visitor.lister, Visitor.writer_apply, Event.listed]
  split
  · rfl
  · rw [List.append_nil]

/-- Only definitions have a heading. -/
lemma listed_of_not_isDefinition {event : Event} (h : event.isDefinition = false) (hook : Hook) :
    event.listed hook = [] := by
  have hheading : event.heading? = none := by
    cases event with
    | classDef | functionDef => simp [Event.isDefinition, Event.hook] at h
    | _ => rfl
  rw [Event.listed, hheading]
  split <;> rfl

lemma flatMap_listed (hook : Hook) (events : List Event) :
    events.flatMap (Event.listed hook)
      = (events.filter Event.isDefinition).flatMap (Event.listed hook) := by
  induction events with
  | nil => rfl
  | cons event events ih =>
    rw [List.flatMap_cons, ih, List.filter_cons]
    cases h : event.isDefinition with
    | true => rfl
    | false => rw [listed_of_not_isDefinition h]; rfl

lemma visitModule_lister (hook : Hook) (m : Module) :
    (Visitor.lister hook).visitModule m []
      = (m.statements.filter Stmt.isDefinition).flatMap fun s => s.event.listed hook := by
  rw [lister_eq_writer, Visitor.writer_visitModule, List.nil_append, flatMap_listed,
    filter_announced, Stmt.definitionEvents, List.flatMap_map]

/-! ## The definitions of a tree -/

variable (text : List Char)

/-- The text of the name of a definition, and the place where the definition begins. -/
def headingOf (n : Node) : String × Position :=
  (((n.child? .name).map (spelling text)).getD "", positionOf text n)

/-- The hook for the definitions of a kind. -/
def hookOf : Kind → Option Hook
  | .classDefinition => some .classDef
  | .functionDefinition => some .functionDef
  | _ => none

lemma spellingAt_eq (role : Role) (n : Node) :
    spellingAt text role n.children = ((n.child? role).map (spelling text)).getD "" := by
  rw [spellingAt, Node.child?]
  cases n.children.find? fun c => c.role == some role <;> rfl

variable {text}

/-- What a lister writes down about a definition of the tree. -/
lemma listed_stmtOf {n : Node} (h : n.kind.isDefinition = true) (hook : Hook) :
    (stmtOf text n).event.listed hook
      = if hookOf n.kind = some hook then [headingOf text n] else [] := by
  cases hkind : n.kind with
  | classDefinition =>
    rw [stmtOf_class hkind, Event.listed, headingOf, ← spellingAt_eq, hookOf]
    simp only [Option.some.injEq]
    rfl
  | functionDefinition =>
    rw [stmtOf_function hkind, Event.listed, headingOf, ← spellingAt_eq, hookOf]
    simp only [Option.some.injEq]
    rfl
  | _ => simp [hkind, Kind.isDefinition] at h

lemma visitModule_lister_ofTree {t : Node} (h : t.IsRegular) {hook : Hook} {kind : Kind}
    (hkind : kind.isDefinition = true) (hhook : ∀ k, hookOf k = some hook ↔ k = kind) :
    (Visitor.lister hook).visitModule (Module.ofTree text t) []
      = (t.nodes.filter (·.kind = kind)).map (headingOf text) := by
  rw [visitModule_lister, definitions_ofTree text h, List.flatMap_map, Node.definitions]
  generalize t.nodes = ns
  induction ns with
  | nil => rfl
  | cons n ns ih =>
    by_cases hn : n.kind = kind
    · have hdef : n.kind.isDefinition = true := hn ▸ hkind
      simp [hn, hkind, ih, listed_stmtOf hdef, (hhook kind).2 rfl]
    · cases hdef : n.kind.isDefinition with
      | true =>
        have hhook : hookOf n.kind ≠ some hook := fun hsome => hn ((hhook _).1 hsome)
        simp [hn, hdef, ih, listed_stmtOf hdef, hhook]
      | false => simp [hn, hdef, ih]

/-- The node stands among statements, or below decorators. -/
def StandsAsStatement (parent n : Node) : Prop :=
  parent.kind = .root ∨ parent.kind = .block ∨
    parent.kind = .decoratedDefinition ∧ n.role = some .definition

/-- In a regular tree every definition stands where statements do. -/
lemma standsAsStatement_of_isDefinition {t parent n : Node} (h : t.IsRegular)
    (hparent : parent ∈ t.nodes) (hn : n ∈ parent.children) (hdef : n.kind.isDefinition = true) :
    StandsAsStatement parent n := by
  rcases Node.mem_nodes_iff.1 hparent with rfl | ⟨c, hc, hmem⟩
  · exact .inl h.1
  obtain ⟨place, hfits⟩ := Node.exists_fits_of_mem_nodes (h.2 c hc) hmem
  have hadmits := (Node.fits_iff.1 ((Node.fits_iff.1 hfits).children n hn)).admits
  -- a definition is admitted among statements and below decorators only
  have hplace : place.below parent.kind n.role = .statement ∨
      place.below parent.kind n.role = .definition := by
    cases hbelow : place.below parent.kind n.role with
    | statement => exact .inl rfl
    | definition => exact .inr rfl
    | body | part | matchPart | phrase =>
      rw [hbelow] at hadmits
      cases hkind : n.kind <;>
        simp_all [Kind.isDefinition, Place.admits, Kind.isOutline, Kind.isClause]
  unfold Place.below at hplace
  split at hplace
  · next hroot => exact .inl hroot
  · next hblock => exact .inr (.inl hblock)
  · split at hplace <;> simp at hplace
  · split at hplace <;> simp at hplace
  · next hkind =>
    split at hplace
    · next hrole => exact .inr (.inr ⟨hkind, hrole⟩)
    · simp at hplace
  · simp at hplace
  · split at hplace <;> simp at hplace

variable (text)

/-- **A visitor that overrides the hook for classes is told about every class of the tree, once and
in the order of the source, and the same holds for functions.**  The tree has to be regular, and the
tree of a text is.  All definitions of such a tree stand among statements or below decorators. -/
theorem visit_lister_ofTree (t : Node) :
    (Node.ofText text = .ok t → t.IsRegular) ∧
      (t.IsRegular →
        (Visitor.lister .classDef).visitModule (Module.ofTree text t) []
            = (t.nodes.filter (·.kind = .classDefinition)).map (headingOf text) ∧
          (Visitor.lister .functionDef).visitModule (Module.ofTree text t) []
            = (t.nodes.filter (·.kind = .functionDefinition)).map (headingOf text) ∧
          ∀ parent ∈ t.nodes, ∀ n ∈ parent.children, n.kind.isDefinition = true →
            StandsAsStatement parent n) := by
  refine ⟨isRegular_ofText, fun h => ⟨?_, ?_, ?_⟩⟩
  · refine visitModule_lister_ofTree h rfl fun k => ?_
    cases k <;> simp [hookOf]
  · refine visitModule_lister_ofTree h rfl fun k => ?_
    cases k <;> simp [hookOf]
  · exact fun parent hparent n hn hdef => standsAsStatement_of_isDefinition h hparent hn hdef

set_option maxRecDepth 100000 in
/-- A class below a decorator, one in a clause of a `match` statement, and a method in each. -/
theorem visit_lister_ofTree_match :
    let text := ("@d\nclass A:\n  def f(): pass\nmatch x:\n  case 1:\n"
      ++ "    class B:\n      def g(): pass\n").toList
    ∃ t, Node.ofText text = .ok t ∧ t.IsRegular ∧
      (Visitor.lister .classDef).visitModule (Module.ofTree text t) []
        = [("A", ⟨2, 0⟩), ("B", ⟨6, 4⟩)] ∧
      (Visitor.lister .functionDef).visitModule (Module.ofTree text t) []
        = [("f", ⟨3, 2⟩), ("g", ⟨7, 6⟩)] := by
  intro text
  have hsome : (Node.ofText text).toOption.any (fun t =>
      (t.nodes.filter (·.kind = .classDefinition)).map (headingOf text)
          = [("A", ⟨2, 0⟩), ("B", ⟨6, 4⟩)] ∧
        (t.nodes.filter (·.kind = .functionDefinition)).map (headingOf text)
          = [("f", ⟨3, 2⟩), ("g", ⟨7, 6⟩)]) = true := by
    decide +kernel
  cases htree : Node.ofText text with
  | error e =>
    rw [htree] at hsome
    cases hsome
  | ok t =>
    rw [htree] at hsome
    obtain ⟨hclasses, hfunctions⟩ := of_decide_eq_true hsome
    obtain ⟨hregular, hvisit⟩ := visit_lister_ofTree text t
    obtain ⟨hclasses', hfunctions', -⟩ := hvisit (hregular htree)
    exact ⟨t, rfl, hregular htree, hclasses'.trans hclasses, hfunctions'.trans hfunctions⟩

end PermissionLint.Model
