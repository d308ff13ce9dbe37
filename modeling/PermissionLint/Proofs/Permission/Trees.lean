/-
The check for permissions on concrete syntax: which nodes of a tree are reported.

`OmitsPermission` describes a statement by its node: an assignment without an annotation, whose only
target is `permission_classes` and whose value is a list or a tuple without `IsAuthenticated` among
its elements, where parentheses around the target, the value and the elements do not count.  The
check of the model of a regular tree, as every tree is that is read from a text, reports the
position of every such statement that stands directly in the body of a class, at whatever depth the
class stands (`positions_checkModule_ofTree`).
-/
import PermissionLint.Proofs.Model.Parentheses
import PermissionLint.Proofs.Permission.Findings
import PermissionLint.Proofs.Syntax.Frames

namespace PermissionLint.Permission

open PermissionLint.Source PermissionLint.Syntax PermissionLint.Model

variable (text : List Char)

/-- The statement sets the permissions of a class without requiring authentication. -/
def OmitsPermission (s : Node) : Prop :=
  s.kind = .expressionStatement ∧ s.phrases.length = 1 ∧ ∃ a ∈ s.phrases,
    a.kind = .assignment ∧ a.child? .typeHint = none ∧
      ∃ left ∈ a.child? .left, ∃ right ∈ a.child? .right,
        right.kind ≠ .assignment ∧ left.isNamed text "permission_classes" = true ∧
          right.core.kind.isSequence = true ∧
            ∀ e ∈ right.core.phrases, e.isNamed text "IsAuthenticated" = false

instance : DecidablePred (OmitsPermission text) := fun s =>
  inferInstanceAs (Decidable (s.kind = .expressionStatement ∧ s.phrases.length = 1 ∧
    ∃ a ∈ s.phrases, a.kind = .assignment ∧ a.child? .typeHint = none ∧
      ∃ left ∈ a.child? .left, ∃ right ∈ a.child? .right,
        right.kind ≠ .assignment ∧ left.isNamed text "permission_classes" = true ∧
          right.core.kind.isSequence = true ∧
            ∀ e ∈ right.core.phrases, e.isNamed text "IsAuthenticated" = false))

/-- The nodes directly in the body of a class, asides left out. -/
def bodyNodes (c : Node) : List Node :=
  ((c.child? .body).map fun b => b.children.filter (!·.extra)).getD []

/-! ## Assignments -/

variable {text}

lemma chainOf_of_ne {r : Node} (h : r.kind ≠ .assignment) :
    chainOf text r = some ([], exprOf text r) := by
  cases r
  rw [chainOf, if_neg (by simpa using h)]

/-- An assignment on the right of another one has a target of its own. -/
lemma targets_ne_nil_of_chainOf {r : Node} {targets : List Expr} {value : Expr}
    (h : r.kind = .assignment) (hchain : chainOf text r = some (targets, value)) :
    targets ≠ [] := by
  cases r
  subst h
  rw [chainOf, if_pos (beq_self_eq_true _)] at hchain
  split at hchain
  · simp only [Option.some.injEq, Prod.mk.injEq] at hchain
    rw [← hchain.1]
    simp
  · simp at hchain

lemma lacksRequired_exprOf (left right : Node) :
    lacksRequired [exprOf text left] (exprOf text right) = true ↔
      left.isNamed text "permission_classes" = true ∧ right.core.kind.isSequence = true ∧
        ∀ e ∈ right.core.phrases, e.isNamed text "IsAuthenticated" = false := by
  rw [lacksRequired, Bool.and_eq_true, isName_exprOf, elements?_exprOf]
  refine and_congr Iff.rfl ?_
  cases right.core.kind.isSequence with
  | false => simp
  | true => simp [isName_exprOf, required]

/-- More than one target, or none, sets no permissions. -/
lemma LacksPermission.targets {targets : List Expr} {value : Expr} {p : Position}
    (h : LacksPermission (.assign targets value p)) : ∃ target, targets = [target] := by
  cases h with
  | list | tuple => exact ⟨_, rfl⟩

/-- What an assignment without an annotation stands for. -/
lemma assignmentOf_eq {a : Node} {p : Position} (h : a.child? .typeHint = none) :
    assignmentOf text p a = (a.child? .left).bind fun left => (a.child? .right).bind fun right =>
      (chainOf text right).map fun (targets, value) =>
        .assign (exprOf text left :: targets) value p := by
  have hleft : exprAt text .left a.children = (a.child? .left).map (exprOf text) :=
    exprAt_eq text .left a.children
  rw [assignmentOf, hleft, chainAt_eq, h]
  cases a.child? .left with
  | none => rfl
  | some left =>
    change Option.map _ ((a.child? .right).bind (chainOf text)) = _
    cases a.child? .right <;> rfl

/-- An assignment lacks the permission if it has one target, no annotation, and the value does. -/
lemma lacksPermission_assignmentOf_iff {a : Node} {p : Position} :
    (∃ s ∈ assignmentOf text p a, LacksPermission s) ↔
      a.child? .typeHint = none ∧ ∃ left ∈ a.child? .left, ∃ right ∈ a.child? .right,
        right.kind ≠ .assignment ∧ left.isNamed text "permission_classes" = true ∧
          right.core.kind.isSequence = true ∧
            ∀ e ∈ right.core.phrases, e.isNamed text "IsAuthenticated" = false := by
  constructor
  · rintro ⟨s, hs, hlacks⟩
    cases hhint : a.child? .typeHint with
    | some hint =>
      rw [assignmentOf, hhint] at hs
      split at hs
      · simp at hs
      · cases hs
        exact absurd hlacks nofun
    | none =>
      rw [assignmentOf_eq hhint] at hs
      simp only [Option.mem_def, Option.bind_eq_some_iff, Option.map_eq_some_iff] at hs
      obtain ⟨left, hleft, right, hright, ⟨targets, value⟩, hchain, rfl⟩ := hs
      have hone : targets = [] := by
        obtain ⟨target, htargets⟩ := hlacks.targets
        exact (List.cons.inj htargets).2
      -- a second assignment on the right would have brought a second target
      have hkind : right.kind ≠ .assignment := fun h => targets_ne_nil_of_chainOf h hchain hone
      rw [chainOf_of_ne hkind] at hchain
      cases hchain
      exact ⟨rfl, left, hleft, right, hright, hkind,
        (lacksRequired_exprOf left right).1 ((lacksRequired_eq_true_iff p).2 hlacks)⟩
  · rintro ⟨hhint, left, hleft, right, hright, hkind, hlacks⟩
    rw [Option.mem_def] at hleft hright
    refine ⟨.assign [exprOf text left] (exprOf text right) p, ?_, ?_⟩
    · rw [assignmentOf_eq hhint, hleft, hright, Option.bind_some, Option.bind_some,
        chainOf_of_ne hkind]
      rfl
    · exact (lacksRequired_eq_true_iff p).1 ((lacksRequired_exprOf left right).2 hlacks)

lemma pos_of_mem_assignmentOf {a : Node} {p : Position} {s : Stmt}
    (h : s ∈ assignmentOf text p a) : s.pos = p := by
  rw [Option.mem_def, assignmentOf] at h
  split at h
  · simp at h
  split at h
  · cases h
    rfl
  · simp only [Option.map_eq_some_iff] at h
    obtain ⟨⟨targets, value⟩, -, rfl⟩ := h
    rfl

/-! ## Statements -/

/-- An expression statement has the position of its node, and it is found wanting on the node if it
is in the model. -/
lemma stmtOf_expressionStatement_spec {s : Node} (h : s.kind = .expressionStatement) :
    (stmtOf text s).pos = positionOf text s ∧
      (LacksPermission (stmtOf text s) ↔ OmitsPermission text s) := by
  rw [stmtOf_expressionStatement h, OmitsPermission]
  simp only [h, true_and]
  match hphrases : s.phrases with
  | [] | _ :: _ :: _ => exact ⟨rfl, iff_of_false nofun (by simp)⟩
  | [a] =>
    rw [simpleStmtOf]
    by_cases hkind : a.kind = .assignment
    · rw [if_pos (by simpa using hkind)]
      have hlacks := @lacksPermission_assignmentOf_iff text a (positionOf text s)
      cases hassign : assignmentOf text (positionOf text s) a with
      | none =>
        rw [hassign] at hlacks
        refine ⟨rfl, iff_of_false nofun ?_⟩
        simp only [List.mem_singleton, exists_eq_left, hkind, ← hlacks]
        simp
      | some stmt =>
        rw [hassign] at hlacks
        refine ⟨pos_of_mem_assignmentOf hassign, ?_⟩
        simp only [List.mem_singleton, exists_eq_left, hkind, ← hlacks]
        simp
    · rw [if_neg (by simpa using hkind)]
      refine ⟨rfl, iff_of_false nofun ?_⟩
      simp [hkind]

/-- A definition sets nothing. -/
lemma not_lacksPermission_of_isDefinition {s : Node} (h : s.kind.isDefinition = true) :
    ¬LacksPermission (stmtOf text s) := by
  cases hkind : s.kind with
  | classDefinition => rw [stmtOf_class hkind]; nofun
  | functionDefinition => rw [stmtOf_function hkind]; nofun
  | _ => simp [hkind, Kind.isDefinition] at h

/-- A decorated definition sets nothing either, for what is below the decorators is a definition. -/
lemma not_lacksPermission_of_decorated {s : Node} {place : Place} (hfits : s.fits place = true)
    (h : s.kind = .decoratedDefinition) : ¬LacksPermission (stmtOf text s) := by
  rw [stmtOf_decorated h, definitionAt_eq]
  cases hfind : s.children.find? fun n => n.role == some .definition with
  | none => rintro ⟨⟩
  | some d =>
    have hrole : d.role = some .definition := by simpa using List.find?_some hfind
    have hd := (Node.fits_iff.1 hfits).children d (List.mem_of_find?_eq_some hfind)
    rw [h, hrole, Place.below, if_pos rfl] at hd
    exact not_lacksPermission_of_isDefinition (Node.fits_iff.1 hd).admits

/-- Among statements, the model of a node lacks the permission if the node omits it. -/
lemma lacksPermission_stmtOf_iff {s : Node} (hfits : s.fits .statement = true) :
    LacksPermission (stmtOf text s) ↔ OmitsPermission text s := by
  by_cases hsimple : s.kind = .expressionStatement
  · exact (stmtOf_expressionStatement_spec hsimple).2
  refine iff_of_false ?_ fun h => hsimple h.1
  have hadmits := (Node.fits_iff.1 hfits).admits
  simp only [Place.admits, Bool.or_eq_true, beq_iff_eq, Bool.not_eq_true'] at hadmits
  rcases hadmits with ((hdef | hdecorated) | hcompound) | hphrase
  · exact not_lacksPermission_of_isDefinition hdef
  · exact not_lacksPermission_of_decorated hfits hdecorated
  · obtain ⟨c, hc⟩ := stmtOf_compound hcompound
    rw [hc]
    rintro ⟨⟩
  · rw [stmtOf_phrase hphrase, if_neg hsimple]
    rintro ⟨⟩

/-! ## Classes -/

lemma isPhrase_of_omitsPermission {s : Node} (h : OmitsPermission text s) :
    s.isPhrase = !s.extra := by
  rw [Node.isPhrase, h.1]
  rfl

/-- The nodes in the body of a class that fits stand where statements may. -/
lemma fits_of_mem_body {c b s : Node} {place : Place} (hfits : c.fits place = true)
    (hc : c.kind = .classDefinition) (hbody : c.child? .body = some b) (hs : s ∈ b.children) :
    s.fits .statement = true := by
  have hrole : b.role = some .body := by simpa using List.find?_some hbody
  have hb := (Node.fits_iff.1 hfits).children b (List.mem_of_find?_eq_some hbody)
  rw [hc, hrole, Place.below, if_pos rfl] at hb
  have hblock : b.kind = .block := by simpa [Place.admits] using (Node.fits_iff.1 hb).admits
  have hs' := (Node.fits_iff.1 hb).children s hs
  rw [hblock] at hs'
  exact hs'

/-- Of statements, those that lack the permission are at the nodes that omit it. -/
lemma positions_filter_lacksPermission {ns : List Node}
    (hfits : ∀ s ∈ ns, s.fits .statement = true) :
    (((ns.filter Node.isPhrase).map (stmtOf text)).filter LacksPermission).map (·.pos)
      = ((ns.filter (!·.extra)).filter (OmitsPermission text)).map (positionOf text) := by
  induction ns with
  | nil => rfl
  | cons s ns ih =>
    obtain ⟨hs, hns⟩ := List.forall_mem_cons.1 hfits
    have hlacks := @lacksPermission_stmtOf_iff text s hs
    by_cases homits : OmitsPermission text s
    · have hphrase := isPhrase_of_omitsPermission homits
      have hpos := (@stmtOf_expressionStatement_spec text s homits.1).1
      cases hextra : s.extra with
      | true => simp [hphrase, hextra, ih hns]
      | false => simp [hphrase, hextra, homits, hlacks.2 homits, hpos, ih hns]
    · -- whether or not the node is in the model, it leaves no trace on either side
      have hmodel : ¬LacksPermission (stmtOf text s) := fun h => homits (hlacks.1 h)
      rw [List.filter_cons, List.filter_cons]
      split <;> split <;> simp [homits, hmodel, ih hns]

/-- The findings of a class are at the statements of its body that omit the permission. -/
lemma positions_findingsOf {c : Node} {place : Place} (hfits : c.fits place = true)
    (hc : c.kind = .classDefinition) :
    (findingsOf (classOf text c)).map (·.position)
      = ((bodyNodes c).filter (OmitsPermission text)).map (positionOf text) := by
  have hbody : (classOf text c).body
      = ((c.child? .body).map fun b => stmtsOf text b.children).getD [] := bodyAt_eq text c.children
  rw [findingsOf, hbody, bodyNodes, List.map_map]
  cases hb : c.child? .body with
  | none => rfl
  | some b =>
    rw [Option.map_some, Option.getD_some, Option.map_some, Option.getD_some, stmtsOf_eq]
    exact positions_filter_lacksPermission fun s hs => fits_of_mem_body hfits hc hb hs

lemma positions_checkModule {t : Node} (h : t.IsRegular) :
    (checkModule (Module.ofTree text t)).map (·.position)
      = (t.nodes.filter (·.kind = .classDefinition)).flatMap fun c =>
          ((bodyNodes c).filter (OmitsPermission text)).map (positionOf text) := by
  rw [checkModule_eq_flatMap, classes_ofTree text h, List.flatMap_map, List.map_flatMap]
  refine List.flatMap_congr fun c hc => ?_
  obtain ⟨hmem, hkind⟩ := List.mem_filter.1 hc
  have hkind : c.kind = .classDefinition := by simpa using hkind
  rcases Node.mem_nodes_iff.1 hmem with rfl | ⟨child, hchild, hmem⟩
  · rw [h.1] at hkind
    cases hkind
  · obtain ⟨place, hfits⟩ := Node.exists_fits_of_mem_nodes (h.2 child hchild) hmem
    exact positions_findingsOf hfits hkind

variable (text)

/-- **The check reports the statements that omit the permission directly in the body of a class, at
whatever depth the class stands.**  The tree has to be regular, and the tree of a text is. -/
theorem positions_checkModule_ofTree (t : Node) :
    (Node.ofText text = .ok t → t.IsRegular) ∧
      (t.IsRegular → (checkModule (Module.ofTree text t)).map (·.position)
        = (t.nodes.filter (·.kind = .classDefinition)).flatMap fun c =>
            ((bodyNodes c).filter (OmitsPermission text)).map (positionOf text)) :=
  ⟨isRegular_ofText, positions_checkModule⟩

set_option maxRecDepth 100000 in
/-- A target in parentheses, a tuple with a comment behind it, and a class inside of an `if`. -/
theorem positions_checkModule_ofTree_nested :
    let text := ("class A:\n  (permission_classes) = (B), # any\n"
      ++ "  if C:\n    class D: permission_classes = []\n").toList
    ∃ t, Node.ofText text = .ok t ∧ t.IsRegular ∧
      (checkModule (Module.ofTree text t)).map (·.position) = [⟨2, 2⟩, ⟨4, 13⟩] := by
  intro text
  have hsome : (Node.ofText text).toOption.any (fun t =>
      (t.nodes.filter (·.kind = .classDefinition)).flatMap (fun c =>
        ((bodyNodes c).filter (OmitsPermission text)).map (positionOf text))
          = [⟨2, 2⟩, ⟨4, 13⟩]) = true := by
    decide +kernel
  cases htree : Node.ofText text with
  | error e =>
    rw [htree] at hsome
    cases hsome
  | ok t =>
    rw [htree] at hsome
    obtain ⟨hregular, hpositions⟩ := positions_checkModule_ofTree text t
    exact ⟨t, rfl, hregular htree,
      (hpositions (hregular htree)).trans (of_decide_eq_true hsome)⟩

end PermissionLint.Permission
