/-
The statements of a body, in the order of the source.

A statement has a position inside of its node: that of the node, or with decorators that of the
definition below them (`exists_offset`).  The nodes of a body stand one behind the other and each of
them covers something, so the positions of its statements increase (`inOrder_stmtsOf`).  All bodies
that a node gives to the model are like that, by induction on nodes with one case for each kind of
the outline (`areSound_bodiesAt`).  The main result, `parse_inPlace`, is about whole modules: names
are where their positions say, and the statements of each body increase.
-/
import PermissionLint.Proofs.Model.Names
import PermissionLint.Proofs.Permission.Distinct

namespace PermissionLint.Model

open PermissionLint.Source PermissionLint.Syntax PermissionLint.Permission PermissionLint.Text

variable {text : List Char} {t n : Node} {place : Place}

/-! ## Nodes of a tree -/

/-- What is known of a node at a place in the tree of a text. -/
structure IsReadAt (text : List Char) (t : Node) (place : Place) (n : Node) : Prop where
  mem : n ∈ t.nodes
  fits : n.fits place = true
  spaced : n.SpacedAll
  opens : n.OpensAll text

lemma IsReadAt.child (h : IsReadAt text t place n) {c : Node} (hc : c ∈ n.children) :
    IsReadAt text t (place.below n.kind c.role) c where
  mem := Node.mem_nodes_trans (Node.mem_nodes_of_mem_children hc) h.mem
  fits := (Node.fits_iff.1 h.fits).children c hc
  spaced := h.spaced.child hc
  opens := h.opens.of_mem (Node.mem_nodes_of_mem_children hc)

lemma isReadAt_of_mem_children (ht : Node.ofText text = .ok t) {c : Node} (hc : c ∈ t.children) :
    IsReadAt text t .statement c where
  mem := Node.mem_nodes_of_mem_children hc
  fits := (isRegular_ofText ht).2 c hc
  spaced := (spacedAll_ofText ht).child hc
  opens := opens_ofText ht c hc

/-- A statement covers something, and so does a definition below decorators. -/
lemma IsReadAt.start_lt_stop (h : IsReadAt text t place n)
    (hplace : place = .statement ∨ place = .definition) : n.span.start < n.span.stop :=
  h.spaced.start_lt_stop h.opens (Place.isHollow_of_admits (Node.fits_iff.1 h.fits).admits hplace)

/-! ## Where statements begin -/

/-- Without decorators a statement begins with its node. -/
lemma pos_stmtOf (h : n.kind ≠ .decoratedDefinition) : (stmtOf text n).pos = positionOf text n := by
  by_cases hstatement : n.kind = .expressionStatement
  · exact (stmtOf_expressionStatement_spec hstatement).1
  · cases n with
    | mk kind span role extra children =>
      rw [stmtOf.eq_def]
      simp only
      split
      · rfl
      · rfl
      · exact absurd rfl h
      · exact absurd rfl hstatement
      · split <;> rfl

/-- The definition below decorators. -/
lemma exists_of_definitionAt {s : Stmt} (place : Place) (hkind : n.kind = .decoratedDefinition)
    (hs : definitionAt text n.children = some s) :
    ∃ d ∈ n.children, place.below n.kind d.role = .definition ∧ s = stmtOf text d := by
  rw [definitionAt_eq] at hs
  obtain ⟨d, hd, rfl⟩ := Option.map_eq_some_iff.1 hs
  have hrole : d.role = some .definition := by simpa using List.find?_some hd
  exact ⟨d, List.mem_of_find?_eq_some hd, by rw [hkind, hrole]; rfl, rfl⟩

/-- **A statement has the position of a byte inside of its node.** -/
theorem exists_offset (h : IsReadAt text t .statement n) :
    ∃ offset, (stmtOf text n).pos = Position.ofOffset text offset ∧ StandsAt text [] offset ∧
      n.span.start ≤ offset ∧ offset < n.span.stop := by
  have hlt := h.start_lt_stop (.inl rfl)
  have hself : positionOf text n = Position.ofOffset text n.span.start := rfl
  by_cases hkind : n.kind = .decoratedDefinition
  · rw [stmtOf_decorated hkind]
    cases hs : definitionAt text n.children with
    | none => exact ⟨n.span.start, hself, h.opens.self.stands, Nat.le_refl _, hlt⟩
    | some s =>
      obtain ⟨d, hmem, hplace, rfl⟩ := exists_of_definitionAt .statement hkind hs
      have hd := h.child hmem
      rw [hplace] at hd
      have hwithin := h.spaced.self.within d hmem
      have hlt' := hd.start_lt_stop (.inr rfl)
      have hdefinition : d.kind ≠ .decoratedDefinition := by
        intro hdecorated
        have hadmits := (Node.fits_iff.1 hd.fits).admits
        rw [hdecorated] at hadmits
        cases hadmits
      exact ⟨d.span.start, pos_stmtOf hdefinition, hd.opens.self.stands, hwithin.1, by omega⟩
  · exact ⟨n.span.start, pos_stmtOf hkind, h.opens.self.stands, Nat.le_refl _, hlt⟩

/-- Nodes that stand one behind the other give statements in order. -/
lemma inOrder_stmtsOf {ns : List Node} (hns : ∀ n ∈ ns, IsReadAt text t .statement n)
    (hordered : ns.Pairwise fun c d => c.span.stop ≤ d.span.start) :
    InOrder (stmtsOf text ns) := by
  rw [InOrder, stmtsOf_eq, List.pairwise_map]
  refine (hordered.filter _).imp_of_mem fun {n m} hn hm hapart => ?_
  obtain ⟨offset, hpos, hstands, -, hstop⟩ := exists_offset (hns n (List.mem_of_mem_filter hn))
  obtain ⟨offset', hpos', hstands', hstart, -⟩ := exists_offset (hns m (List.mem_of_mem_filter hm))
  rw [hpos, hpos']
  exact ofOffset_lt_ofOffset hstands hstands' (by omega)

/-! ## Assignments -/

/-- All nodes inside of a statement are in their places. -/
abbrev IsSound (text : List Char) (t : Node) (s : Stmt) : Prop :=
  (Part.stmt s).All (InPlace text t)

lemma isSound_other (k : Kind) (p : Position) : IsSound text t (.other k p) :=
  Part.all_iff.2 ⟨nofun, nofun⟩

/-- The targets and the value of the right side of an assignment are in their places. -/
lemma isPlaced_chainOf (hn : n ∈ t.nodes) {targets : List Expr} {value : Expr}
    (h : chainOf text n = some (targets, value)) :
    (∀ e ∈ targets, IsPlaced text t e) ∧ IsPlaced text t value := by
  induction n using Node.childInduction generalizing targets value with
  | step n ih =>
    have hbelow := @isPlaced_below text _ _ hn
    cases n with
    | mk kind span role extra children =>
      rw [chainOf] at h
      split at h
      · split at h
        · next target targets' value' htarget hchain =>
          cases h
          rw [chainAt_eq] at hchain
          obtain ⟨c, hc, hchain⟩ := Option.bind_eq_some_iff.1 hchain
          have hmem : c ∈ children := List.mem_of_find?_eq_some hc
          obtain ⟨htargets, hvalue⟩ := ih c hmem
            (Node.mem_nodes_trans (Node.mem_nodes_of_mem_children hmem) hn) hchain
          exact ⟨List.forall_mem_cons.2 ⟨forall_exprAt hbelow htarget, htargets⟩, hvalue⟩
        · cases h
      · cases h
        exact ⟨List.forall_mem_nil _, isPlaced_exprOf hn⟩

lemma isSound_assignmentOf (hn : n ∈ t.nodes) {p : Position} {s : Stmt}
    (h : assignmentOf text p n = some s) : IsSound text t s := by
  have hchildren : ∀ c ∈ n.children, c ∈ t.nodes := fun c hc =>
    Node.mem_nodes_trans (Node.mem_nodes_of_mem_children hc) hn
  have hbelow := @isPlaced_below text _ _ hn
  rw [assignmentOf] at h
  split at h
  · cases h
  · next left hleft =>
    have hleft := forall_exprAt hbelow hleft
    split at h
    · next hint hhint =>
      cases h
      have hmem : hint ∈ n.children := List.mem_of_find?_eq_some hhint
      have hinner := forall_exprsOf (below_children hbelow hmem)
      refine Part.all_iff.2 ⟨List.forall_mem_nil _,
        List.forall_mem_cons.2 ⟨hleft, List.forall_mem_cons.2 ⟨?_, ?_⟩⟩⟩
      · cases hexprs : (exprsOf text hint.children).head? with
        | none => exact isPlaced_exprOf (hchildren hint hmem)
        | some inner => exact hinner inner (List.mem_of_head? hexprs)
      · refine List.forall_mem_map.2 fun e he => ?_
        exact forall_exprAt hbelow (Option.mem_toList.1 he)
    · obtain ⟨⟨targets, value⟩, hchain, rfl⟩ := Option.map_eq_some_iff.1 h
      rw [chainAt_eq] at hchain
      obtain ⟨c, hc, hchain⟩ := Option.bind_eq_some_iff.1 hchain
      obtain ⟨htargets, hvalue⟩ :=
        isPlaced_chainOf (hchildren c (List.mem_of_find?_eq_some hc)) hchain
      refine Part.all_iff.2 ⟨List.forall_mem_nil _, List.forall_mem_append.2 ⟨?_, ?_⟩⟩
      · exact List.forall_mem_map.2 (List.forall_mem_cons.2 ⟨hleft, htargets⟩)
      · exact List.forall_mem_singleton.2 hvalue

lemma isSound_simpleStmtOf {parts : List Node} (h : ∀ c ∈ parts, c ∈ t.nodes) (p : Position) :
    IsSound text t (simpleStmtOf text p parts) := by
  unfold simpleStmtOf
  split
  · next only =>
    split
    · cases hassign : assignmentOf text p only with
      | none => exact isSound_other _ _
      | some s => exact isSound_assignmentOf (h only List.mem_cons_self) hassign
    · exact isSound_other _ _
  · exact isSound_other _ _

/-! ## Bodies -/

/-- The statements of the body are in order, and all nodes inside of them are in their places. -/
structure IsSoundBody (text : List Char) (t : Node) (body : List Stmt) : Prop where
  inOrder : InOrder body
  sound : ∀ s ∈ body, IsSound text t s

lemma isSoundBody_singleton {s : Stmt} (h : IsSound text t s) : IsSoundBody text t [s] :=
  ⟨List.pairwise_singleton _ _, List.forall_mem_singleton.2 h⟩

/-- The bodies that a node at a place gives to the model. -/
def bodiesAt (text : List Char) : Place → Node → List (List Stmt)
  | .statement, n | .definition, n => [stmtsOf text [n]]
  | .body, n => [stmtsOf text n.children]
  | .part, n => bodiesOf text false [n]
  | .matchPart, n => bodiesOf text true [n]
  | .phrase, _ => []

/-- All bodies that a node gives are sound. -/
abbrev AreSound (text : List Char) (t : Node) (place : Place) (n : Node) : Prop :=
  ∀ body ∈ bodiesAt text place n, IsSoundBody text t body

lemma isSoundBody_nil : IsSoundBody text t [] := ⟨.nil, nofun⟩

/-- A single statement gives one body. -/
lemma areSound_of_isSound (hplace : place = .statement ∨ place = .definition)
    (h : IsSound text t (stmtOf text n)) : AreSound text t place n := by
  have hbodies : bodiesAt text place n = [stmtsOf text [n]] := by
    rcases hplace with rfl | rfl <;> rfl
  rw [AreSound, hbodies, List.forall_mem_singleton, stmtsOf_eq, List.filter_cons]
  split
  · exact isSoundBody_singleton h
  · exact isSoundBody_nil

/-- Statements that stand one behind the other make a body. -/
lemma isSoundBody_stmtsOf {ns : List Node} (hns : ∀ c ∈ ns, IsReadAt text t .statement c)
    (hordered : ns.Pairwise fun c d => c.span.stop ≤ d.span.start)
    (hsound : ∀ c ∈ ns, AreSound text t .statement c) : IsSoundBody text t (stmtsOf text ns) := by
  refine ⟨inOrder_stmtsOf hns hordered, fun s hs => ?_⟩
  rw [stmtsOf_eq_flatMap] at hs
  obtain ⟨c, hc, hs⟩ := List.mem_flatMap.1 hs
  exact (hsound c hc _ List.mem_cons_self).sound s hs

/-- The bodies that nodes give together. -/
lemma forall_bodiesOf {inMatch : Bool} {ns : List Node}
    (h : ∀ c ∈ ns, AreSound text t (if inMatch then .matchPart else .part) c) :
    ∀ body ∈ bodiesOf text inMatch ns, IsSoundBody text t body := by
  intro body hbody
  rw [bodiesOf_eq_flatMap] at hbody
  obtain ⟨c, hc, hbody⟩ := List.mem_flatMap.1 hbody
  cases inMatch <;> exact h c hc body hbody

/-! ### One node

Each lemma is about the nodes of one kind: the bodies that such a node gives are sound if those of
its children are. -/

section

variable (h : IsReadAt text t place n)
  (ih : ∀ c ∈ n.children, AreSound text t (place.below n.kind c.role) c)

include h

lemma areSound_phrase (hkind : n.kind.isOutline = false) : AreSound text t place n := by
  have hstmt : IsSound text t (stmtOf text n) := by
    rw [stmtOf_phrase hkind]
    split
    · refine isSound_simpleStmtOf (fun c hc => ?_) _
      exact Node.mem_nodes_trans (Node.mem_nodes_of_mem_children (List.mem_of_mem_filter hc)) h.mem
    · exact isSound_other _ _
  have hadmits := (Node.fits_iff.1 h.fits).admits
  have hnot := hkind
  simp only [Kind.isOutline, Bool.or_eq_false_iff] at hnot
  cases place with
  | statement => exact areSound_of_isSound (.inl rfl) hstmt
  | definition => exact areSound_of_isSound (.inr rfl) hstmt
  | body => simp [Place.admits, hnot] at hadmits
  | part | matchPart =>
    rw [AreSound, bodiesAt, bodiesOf_phrase _ hkind]
    exact List.forall_mem_nil _
  | phrase => exact List.forall_mem_nil _

include ih

lemma isSound_definition (hkind : n.kind.isDefinition = true) : IsSound text t (stmtOf text n) := by
  have hbody : IsSoundBody text t (bodyAt text n.children) := by
    rw [bodyAt_eq]
    cases hb : n.children.find? fun c => c.role == some .body with
    | none => exact isSoundBody_nil
    | some b =>
      have hrole : b.role = some .body := by simpa using List.find?_some hb
      have hsound := ih b (List.mem_of_find?_eq_some hb)
      rw [hrole, Place.below_definition hkind, if_pos rfl] at hsound
      exact hsound _ List.mem_cons_self
  have hstmts : ∀ q ∈ (bodyAt text n.children).map Part.stmt, q.All (InPlace text t) :=
    List.forall_mem_map.2 hbody.sound
  have hinOrder := List.forall_mem_singleton.2 hbody.inOrder
  cases hk : n.kind with
  | classDefinition =>
    rw [stmtOf_class hk]
    have hbases : ∀ q ∈ (argumentsAt text .superclasses n.children).map Part.expr,
        q.All (InPlace text t) := List.forall_mem_map.2 (forall_argumentsAt (isPlaced_below h.mem) _)
    exact Part.all_iff.2 ⟨hinOrder, List.forall_mem_append.2 ⟨hbases, hstmts⟩⟩
  | functionDefinition =>
    rw [stmtOf_function hk]
    exact Part.all_iff.2 ⟨hinOrder, hstmts⟩
  | _ => simp [hk, Kind.isDefinition] at hkind

lemma isSound_decorated (hkind : n.kind = .decoratedDefinition) :
    IsSound text t (stmtOf text n) := by
  rw [stmtOf_decorated hkind]
  cases hs : definitionAt text n.children with
  | none => exact isSound_other _ _
  | some s =>
    obtain ⟨d, hmem, hplace, rfl⟩ := exists_of_definitionAt place hkind hs
    have hd := h.child hmem
    have hsound := ih d hmem
    rw [hplace] at hd hsound
    have hdefinition : d.kind.isDefinition = true := (Node.fits_iff.1 hd.fits).admits
    have hbody := hsound _ List.mem_cons_self
    rw [stmtsOf_singleton hd.fits (by simp [Kind.isOutline, hdefinition])] at hbody
    exact hbody.sound _ List.mem_cons_self

omit h in
lemma isSound_compound (hkind : n.kind.isCompound = true) : IsSound text t (stmtOf text n) := by
  obtain ⟨c, hc⟩ := @stmtOf_compound text n hkind
  simp only [Place.below_compound hkind] at ih
  have hbodies := forall_bodiesOf ih
  rw [hc]
  refine Part.all_iff.2 ⟨fun body hbody => (hbodies body hbody).inOrder, ?_⟩
  refine List.forall_mem_map.2 fun s hs => ?_
  obtain ⟨body, hbody, hs⟩ := List.mem_flatten.1 hs
  exact (hbodies body hbody).sound s hs

/-- A block gives its statements as one body, and below a `match` statement the bodies of its
clauses. -/
lemma areSound_block (hkind : n.kind = .block) : AreSound text t place n := by
  have hextra : n.extra = false := (Node.fits_iff.1 h.fits).extra (by rw [hkind]; rfl)
  have hadmits := (Node.fits_iff.1 h.fits).admits
  have hstmts (hmatch : place ≠ .matchPart) : IsSoundBody text t (stmtsOf text n.children) := by
    have hplace (role : Option Role) : place.below n.kind role = .statement := by
      rw [hkind, Place.below, if_neg hmatch]
    simp only [hplace] at ih
    refine isSoundBody_stmtsOf (fun c hc => ?_) h.spaced.self.ordered ih
    rw [← hplace c.role]
    exact h.child hc
  rw [hkind] at hadmits ih
  cases place with
  | statement | definition | phrase =>
    simp [Place.admits, Kind.isDefinition, Kind.isCompound, Kind.isOutline] at hadmits
  | body => exact List.forall_mem_singleton.2 (hstmts (by simp))
  | part =>
    rw [AreSound, bodiesAt, bodiesOf_block _ hkind hextra, if_neg (by simp)]
    exact List.forall_mem_singleton.2 (hstmts (by simp))
  | matchPart =>
    rw [AreSound, bodiesAt, bodiesOf_block _ hkind hextra, if_pos rfl]
    exact forall_bodiesOf ih

/-- A clause gives the bodies that its parts give. -/
lemma areSound_clause (hkind : n.kind.isClause = true) : AreSound text t place n := by
  have hextra : n.extra = false :=
    (Node.fits_iff.1 h.fits).extra (by simp [Kind.isOutline, hkind])
  simp only [Place.below_clause hkind] at ih
  have hbodies : bodiesAt text place n = bodiesOf text false n.children := by
    rcases Place.eq_of_admits_clause (Node.fits_iff.1 h.fits).admits hkind with rfl | rfl
    · rw [bodiesAt, bodiesOf_clause _ hkind hextra]
    · rw [bodiesAt, bodiesOf_clause _ hkind hextra]
  rw [AreSound, hbodies]
  exact forall_bodiesOf ih

/-- The bodies that a node gives are sound if those of its children are. -/
lemma areSound_step : AreSound text t place n := by
  have hadmits := (Node.fits_iff.1 h.fits).admits
  have hstatement := @Place.eq_of_admits_statement place n.kind hadmits
  cases hkind : n.kind.isOutline with
  | false => exact areSound_phrase h hkind
  | true =>
    simp only [Kind.isOutline, Bool.or_eq_true, beq_iff_eq] at hkind
    rcases hkind with ((((hroot | hblock) | hdecorated) | hdefinition) | hcompound) | hclause
    · rw [hroot, Place.admits_root] at hadmits
      cases hadmits
    · exact areSound_block h ih hblock
    · exact areSound_of_isSound (hstatement (by simp [hdecorated]))
        (isSound_decorated h ih hdecorated)
    · exact areSound_of_isSound (hstatement (by simp [hdefinition]))
        (isSound_definition h ih hdefinition)
    · exact areSound_of_isSound (hstatement (by simp [hcompound])) (isSound_compound ih hcompound)
    · exact areSound_clause h ih hclause

end

/-- **The bodies that a node of the tree of a text gives are sound.** -/
theorem areSound_bodiesAt (h : IsReadAt text t place n) : AreSound text t place n := by
  induction n using Node.childInduction generalizing place with
  | step n ih => exact areSound_step h fun c hc => ih c hc (h.child hc)

/-! ## Whole modules -/

/-- The body is that of the module or of a statement anywhere in it. -/
def Module.HasBody (m : Module) (body : List Stmt) : Prop :=
  body = m.body ∨ ∃ place s, m.node? place = some (.stmt s) ∧ body ∈ s.bodies

/-- The bodies of a node: those of a statement. -/
def Part.bodies : Part → List (List Stmt)
  | .stmt s => s.bodies
  | .expr _ => []

lemma Module.hasBody_of_mem {m : Module} {place : List Nat} {p : Part} {body : List Stmt}
    (hp : m.node? place = some p) (hbody : body ∈ p.bodies) : m.HasBody body := by
  cases p with
  | stmt s => exact .inr ⟨place, s, hp, hbody⟩
  | expr e => cases hbody

/-- What a name is and where it stands. -/
def Part.name? : Part → Option (String × Position)
  | .expr (.name id pos) => some (id, pos)
  | _ => none

lemma Part.eq_of_name? {p : Part} {id : String} {pos : Position}
    (h : p.name? = some (id, pos)) : p = .expr (.name id pos) := by
  cases p with
  | stmt s => cases h
  | expr e =>
    cases e with
    | name =>
      cases h
      rfl
    | list | tuple | attr | call | starred | other => cases h

lemma isSoundBody_ofTree (ht : Node.ofText text = .ok t) :
    IsSoundBody text t (Module.ofTree text t).body :=
  isSoundBody_stmtsOf (fun _ hc => isReadAt_of_mem_children ht hc)
    (spacedAll_ofText ht).self.ordered
    fun _ hc => areSound_bodiesAt (isReadAt_of_mem_children ht hc)

/-- Everything in the module of a text is in its place. -/
lemma inPlace_ofTree (ht : Node.ofText text = .ok t) {place : List Nat} {p : Part}
    (hp : (Module.ofTree text t).node? place = some p) : InPlace text t p := by
  cases place with
  | nil => cases hp
  | cons i is =>
    obtain ⟨q, hq, hp⟩ := Option.bind_eq_some_iff.1 hp
    obtain ⟨s, hs, rfl⟩ := List.mem_map.1 (List.mem_of_getElem? hq)
    exact (isSoundBody_ofTree ht).sound s hs is p hp

lemma opens_of_mem_nodes (ht : Node.ofText text = .ok t) (hn : n ∈ t.nodes)
    (hkind : n.kind.isHollow = false) : n.OpensAll text := by
  rcases Node.mem_nodes_iff.1 hn with rfl | ⟨c, hc, hn⟩
  · rw [Kind.isHollow, (isRegular_ofText ht).1] at hkind
    cases hkind
  · exact (opens_ofText ht c hc).of_mem hn

lemma span_ofText (ht : Node.ofText text = .ok t) : t.span = ⟨0, byteLength text⟩ := by
  rw [Node.ofText] at ht
  split at ht
  · cases ht
  split at ht
  · cases ht
    rfl
  · cases ht

/-- The text of a node that is no block is there, and it is not empty. -/
lemma standsAt_spelling (ht : Node.ofText text = .ok t) (hn : n ∈ t.nodes)
    (hkind : n.kind.isHollow = false) :
    StandsAt text (spelling text n).toList n.span.start ∧ spelling text n ≠ "" := by
  have hopens := opens_of_mem_nodes ht hn hkind
  have hlt := ((spacedAll_ofText ht).of_mem hn).start_lt_stop hopens hkind
  have hstop : n.span.stop ≤ byteLength text := by
    have hwithin := ((spacedAll_ofText ht).within hn).2
    rwa [span_ofText ht] at hwithin
  have hstands := hopens.self.stands
  have htext : (spelling text n).toList = slice text n.span.start n.span.stop :=
    String.toList_ofList
  refine ⟨htext ▸ hstands.slice _, fun hempty => hstands.slice_ne_nil hlt hstop ?_⟩
  rw [← htext, hempty]
  rfl

/-- **Names are where the model says, and the statements of a body come one after the other.**  At
the byte that the position of a name leads back to, the source has the bytes of the name, and an
identifier of its tree begins there whose text is the name.  In every body of the module, at any
depth, the positions of the statements increase. -/
theorem parse_inPlace {source : String} {m : Module} (hm : Module.parse source = .ok m) :
    (∀ place id pos, m.node? place = some (.expr (.name id pos)) → id ≠ "" ∧
      bytesAt source.toList (offsetFor source.toList pos.line pos.column) (byteLength id.toList)
        = Utf8.encode id.toList ∧
      ∃ t n, Node.ofText source.toList = .ok t ∧ n ∈ t.nodes ∧ n.kind = .identifier ∧
        n.span.start = offsetFor source.toList pos.line pos.column ∧
        spelling source.toList n = id) ∧
    ∀ body, m.HasBody body → body.Pairwise fun s s' => s.pos.lt s'.pos = true := by
  obtain ⟨t, ht, rfl⟩ := exists_tree hm
  refine ⟨fun place id pos hname => ?_, fun body hbody => ?_⟩
  · obtain ⟨n, hn, hkind, rfl, rfl⟩ := inPlace_ofTree ht hname
    have hsolid : n.kind.isHollow = false := by rw [hkind]; rfl
    obtain ⟨hstands, hne⟩ := standsAt_spelling ht hn hsolid
    have hoffset : offsetFor source.toList (positionOf source.toList n).line
        (positionOf source.toList n).column = n.span.start :=
      offsetFor_ofOffset (opens_of_mem_nodes ht hn hsolid).self.stands
    rw [hoffset]
    exact ⟨hne, hstands.bytes_eq, t, n, ht, hn, hkind, rfl, rfl⟩
  · rcases hbody with rfl | ⟨place, s, hs, hbody⟩
    · exact (isSoundBody_ofTree ht).inOrder
    · exact inPlace_ofTree ht hs body hbody

set_option maxRecDepth 100000 in
/-- The name in parentheses behind a keyword and a letter of two bytes, and the body of the class
below a decorator. -/
theorem parse_inPlace_decorated :
    let source := "@d\nclass é(k=(x)):\n  (a) = b\n  c\n"
    ∃ m body, Module.parse source = .ok m ∧
      m.node? [0, 0] = some (.expr (.name "x" ⟨2, 12⟩)) ∧
      bytesAt source.toList (offsetFor source.toList 2 12) 1 = Utf8.encode "x".toList ∧
      m.HasBody body ∧ body.map Stmt.pos = [⟨3, 2⟩, ⟨4, 2⟩] ∧
      body.Pairwise fun s s' => s.pos.lt s'.pos = true := by
  intro source
  have hread : (Module.parse source).toOption.any (fun m =>
      (m.node? [0, 0]).bind Part.name? = some ("x", ⟨2, 12⟩) ∧
      (m.node? [0]).map (fun p => p.bodies.map (·.map Stmt.pos)) = some [[⟨3, 2⟩, ⟨4, 2⟩]])
        = true := by
    decide +kernel
  cases hm : Module.parse source with
  | error e =>
    rw [hm] at hread
    cases hread
  | ok m =>
    rw [hm] at hread
    obtain ⟨hname, hbodies⟩ := of_decide_eq_true hread
    obtain ⟨p, hp, hname⟩ := Option.bind_eq_some_iff.1 hname
    obtain rfl := Part.eq_of_name? hname
    obtain ⟨q, hq, hbodies⟩ := Option.map_eq_some_iff.1 hbodies
    obtain ⟨body, bodies, hs, hbody, -⟩ := List.map_eq_cons_iff.1 hbodies
    have hmem : m.HasBody body := Module.hasBody_of_mem hq (hs ▸ List.mem_cons_self)
    obtain ⟨hnames, hinOrder⟩ := parse_inPlace hm
    obtain ⟨-, hbytes, -⟩ := hnames [0, 0] _ _ hp
    exact ⟨m, body, rfl, hp, hbytes, hmem, hbody, hinOrder body hmem⟩

end PermissionLint.Model
