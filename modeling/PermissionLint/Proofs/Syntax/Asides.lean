/-
Comments and line continuations in a tree.

They may stand between any two children of any node, and `Node.bare` takes all of them away.  What is
asked about the children of a node is which of them are phrases, which is the first one in a role,
and whether some mark is among them.  An aside is no phrase, it plays no role, and it is no mark that
is looked for (`Node.IsMute`); so the answers are the same without asides
(`filter_isPhrase_bareAll`, `find?_bareAll`, `any_bareAll`).

Asides enter a tree in one way only, as leaves on the way to a token, and whatever is read on top of
them leaves them as they are.  So all asides of a tree that is read are mute
(`hasMuteAsides_ofText`).
-/
import PermissionLint.Proofs.Syntax.Reading
import PermissionLint.Syntax.Tree

namespace PermissionLint.Syntax

namespace Node

/-! ## Trees without asides -/

mutual

/-- A node without the asides below it. -/
def bare : Node → Node
  | ⟨kind, span, role, extra, children⟩ => ⟨kind, span, role, extra, bareAll children⟩

/-- Nodes without those that are asides, and without the asides below the others. -/
def bareAll : List Node → List Node
  | [] => []
  | n :: ns => if n.extra then bareAll ns else bare n :: bareAll ns

end

@[simp] lemma kind_bare (n : Node) : n.bare.kind = n.kind := by
  cases n
  rw [bare]

@[simp] lemma span_bare (n : Node) : n.bare.span = n.span := by
  cases n
  rw [bare]

@[simp] lemma role_bare (n : Node) : n.bare.role = n.role := by
  cases n
  rw [bare]

@[simp] lemma extra_bare (n : Node) : n.bare.extra = n.extra := by
  cases n
  rw [bare]

@[simp] lemma children_bare (n : Node) : n.bare.children = bareAll n.children := by
  cases n
  rw [bare]

lemma bareAll_eq (ns : List Node) : bareAll ns = (ns.filter (!·.extra)).map bare := by
  induction ns with
  | nil => rfl
  | cons n ns ih => cases h : n.extra <;> simp [bareAll, h, ih]

/-- An aside says nothing about its parent: it plays no role, and it is no mark that is looked
for. -/
structure IsMute (n : Node) : Prop where
  role : n.role = none
  comma : n.kind ≠ .mark ","
  async : n.kind ≠ .mark "async"

/-- All asides among the nodes of a tree are mute. -/
def HasMuteAsides (t : Node) : Prop := ∀ m ∈ t.nodes, m.extra = true → m.IsMute

/-- A node that is no aside has mute asides if its children do. -/
lemma hasMuteAsides_of_children {t : Node} (hextra : t.extra = false)
    (h : ∀ c ∈ t.children, c.HasMuteAsides) : t.HasMuteAsides := by
  intro m hm hm'
  rcases mem_nodes_iff.1 hm with rfl | ⟨c, hc, hm⟩
  · rw [hextra] at hm'
    cases hm'
  · exact h c hc m hm hm'

lemma HasMuteAsides.of_mem {m t : Node} (h : t.HasMuteAsides) (hm : m ∈ t.nodes) :
    m.HasMuteAsides := fun l hl => h l (mem_nodes_trans hl hm)

lemma HasMuteAsides.children {t : Node} (h : t.HasMuteAsides) :
    ∀ c ∈ t.children, c.HasMuteAsides := fun _ hc => h.of_mem (mem_nodes_of_mem_children hc)

/-- No aside is left below a node. -/
lemma extra_of_mem_bare {n m : Node} (hm : m ∈ n.bare.nodes) : m = n.bare ∨ m.extra = false := by
  induction n using childInduction with
  | step n ih =>
    rcases mem_nodes_iff.1 hm with rfl | ⟨c, hc, hm⟩
    · exact .inl rfl
    · rw [children_bare, bareAll_eq] at hc
      obtain ⟨d, hd, rfl⟩ := List.mem_map.1 hc
      obtain ⟨hd, hextra⟩ := List.mem_filter.1 hd
      rcases ih d hd hm with rfl | hm
      · exact .inr (by simpa using hextra)
      · exact .inr hm

/-! ## What is asked about children -/

/-- The phrases are the same. -/
lemma filter_isPhrase_bareAll (ns : List Node) :
    (bareAll ns).filter isPhrase = (ns.filter isPhrase).map bare := by
  rw [bareAll_eq, List.filter_map, List.filter_filter]
  have hphrase : ∀ n : Node, ((isPhrase ∘ bare) n && !n.extra) = n.isPhrase := by
    intro n
    cases h : n.extra <;> simp [isPhrase, h]
  simp only [hphrase]

/-- The first child in a role is the same. -/
lemma find?_bareAll {ns : List Node} (h : ∀ n ∈ ns, n.extra = true → n.IsMute) (role : Role) :
    (bareAll ns).find? (fun n => n.role == some role)
      = (ns.find? fun n => n.role == some role).map bare := by
  induction ns with
  | nil => rfl
  | cons n ns ih =>
    obtain ⟨hn, hns⟩ := List.forall_mem_cons.1 h
    rw [bareAll, List.find?_cons]
    split
    · next hextra => simp [(hn hextra).role, ih hns]
    · rw [List.find?_cons, role_bare]
      cases n.role == some role <;> simp [ih hns]

/-- A mark that no aside is stands among the children or does not, as before. -/
lemma any_bareAll {ns : List Node} {k : Kind} (h : ∀ n ∈ ns, n.extra = true → n.kind ≠ k) :
    (bareAll ns).any (fun n => n.kind == k) = ns.any fun n => n.kind == k := by
  induction ns with
  | nil => rfl
  | cons n ns ih =>
    obtain ⟨hn, hns⟩ := List.forall_mem_cons.1 h
    rw [bareAll, List.any_cons]
    split
    · next hextra => simp [hn hextra, ih hns]
    · rw [List.any_cons, kind_bare, ih hns]

/-! ## Asides as they are read -/

lemma hasMuteAsides_leaf (k : Kind) (span : Span) : (leaf k span).HasMuteAsides :=
  hasMuteAsides_of_children rfl nofun

lemma IsComment.hasMuteAsides {n : Node} (h : n.IsComment) : n.HasMuteAsides := by
  obtain ⟨k, span, rfl, hk⟩ := h
  intro m hm _
  rcases mem_nodes_iff.1 hm with rfl | ⟨c, hc, -⟩
  · refine ⟨rfl, ?_, ?_⟩ <;> rcases hk with rfl | rfl <;> exact nofun
  · cases hc

/-- A role is given to a node that is no aside, and nothing changes below it. -/
lemma HasMuteAsides.withRole {n : Node} (h : n.HasMuteAsides) (role : Role) :
    (n.withRole role).HasMuteAsides := by
  rw [Node.withRole]
  split
  · exact h
  · next hextra => exact hasMuteAsides_of_children (by simpa using hextra) h.children

end Node

namespace Reader

variable {r s : Reader}

/-- All asides in the frame and below are mute. -/
def IsQuiet (r : Reader) : Prop := ∀ n ∈ r.nodes, n.HasMuteAsides

lemma IsQuiet.passesAsides (h : r.IsQuiet) (hs : r.PassesAsides s) : s.IsQuiet := by
  obtain ⟨asides, hnodes, hasides⟩ := hs
  rw [IsQuiet, hnodes]
  exact List.forall_mem_append.2 ⟨fun n hn => (hasides n hn).hasMuteAsides, h⟩

lemma IsQuiet.takes {k : Kind} (h : r.IsQuiet) (hs : Takes k r s) : s.IsQuiet := by
  obtain ⟨t, span, ht, hnodes⟩ := hs
  rw [IsQuiet, hnodes]
  exact List.forall_mem_cons.2 ⟨Node.hasMuteAsides_leaf k span, h.passesAsides ht⟩

lemma IsQuiet.wrap {k : Kind} (h : r.IsQuiet) (hs : r.wrap k = some s) : s.IsQuiet := by
  obtain ⟨asides, children, span, hframe, -, hnodes⟩ := wrap_eq_some hs
  have hmem : ∀ n ∈ asides ++ children, n.HasMuteAsides := by
    intro n hn
    rw [← hframe, List.mem_reverse] at hn
    exact h n hn
  obtain ⟨hasides, hchildren⟩ := List.forall_mem_append.1 hmem
  rw [IsQuiet, hnodes]
  refine List.forall_mem_cons.2 ⟨Node.hasMuteAsides_of_children rfl hchildren, fun n hn => ?_⟩
  exact hasides n (List.mem_reverse.1 hn)

lemma isQuiet_map_withRole {ns : List Node} (h : ∀ n ∈ ns, n.HasMuteAsides) (role : Role) :
    ∀ n ∈ ns.map (Node.withRole role), n.HasMuteAsides :=
  List.forall_mem_map.2 fun n hn => (h n hn).withRole role

end Reader

namespace Pattern

open Reader

variable {ρ : Type} {grammar : ρ → Pattern ρ} {n : Nat}

/-- **Whatever is read, all asides are mute**, if this is so for the rules. -/
theorem ensures_isQuiet
    (hrules : ∀ name, Ensures grammar n IsQuiet (rule name) IsQuiet) (p : Pattern ρ) :
    Ensures grammar n IsQuiet p IsQuiet := by
  induction p with
  | skip | settled | expect | blanks => exact ensures_update (fun _ _ _ => rfl) fun _ _ h => h
  | textStops | textEnd | lastIs | starEnclosed => exact ensures_test fun _ _ _ => rfl
  | ahead fits p => exact ensures_ahead fits
  | begin =>
    refine ensures_update (fun _ _ _ => rfl) fun _ r h => ?_
    rw [IsQuiet, nodes_begin]
    exact h
  | aside =>
    exact ensures_step (fun _ _ _ => rfl) fun _ _ h hs => h.passesAsides (passesAsides_aside hs)
  | newline =>
    exact ensures_step (fun _ _ _ => rfl) fun _ _ h hs => h.passesAsides (passesAsides_newline hs)
  | indent =>
    exact ensures_step (fun _ _ _ => rfl) fun _ _ h hs => h.passesAsides (passesAsides_indent hs)
  | dedent =>
    exact ensures_step (fun _ _ _ => rfl) fun _ _ h hs => h.passesAsides (passesAsides_dedent hs)
  | finish =>
    exact ensures_step (fun _ _ _ => rfl) fun _ _ h hs => h.passesAsides (passesAsides_finish hs)
  | token => exact ensures_step (fun _ _ _ => rfl) fun _ _ h hs => h.takes (takes_token hs)
  | fragment => exact ensures_step (fun _ _ _ => rfl) fun _ _ h hs => h.takes (takes_fragment hs)
  | openString => exact ensures_step (fun _ _ _ => rfl) fun _ _ h hs => h.takes (takes_openString hs)
  | stringText =>
    refine ensures_step (fun _ _ _ => rfl) fun _ _ h hs => ?_
    rcases takes_stringText hs with hs | hs <;> exact h.takes hs
  | closeString =>
    exact ensures_step (fun _ _ _ => rfl) fun _ _ h hs => h.takes (takes_closeString hs)
  | blank k =>
    exact ensures_update (fun _ _ _ => rfl) fun _ _ h =>
      List.forall_mem_cons.2 ⟨Node.hasMuteAsides_leaf k _, h⟩
  | wrap => exact ensures_step (fun _ _ _ => rfl) fun _ _ h hs => h.wrap hs
  | label role =>
    exact ensures_update (fun _ _ _ => rfl) fun _ _ h => isQuiet_map_withRole h role
  | seq p q ihp ihq => exact ihp.seq ihq
  | alt p q ihp ihq => exact ihp.alt ihq fun _ _ h => h
  | many p ih => exact ih.many fun _ _ h => h
  | framed p ih =>
    refine ensures_inner id (fun _ _ _ => rfl) fun old fuel hfuel e r s hr hread => ?_
    obtain ⟨hnil, hold⟩ := hr
    have hs := ih fuel hfuel e r s (by simp [IsQuiet, hnil]) hread
    exact List.forall_mem_append.2 ⟨hs, hold⟩
  | part role p ih =>
    refine ensures_inner (List.map (Node.withRole role)) (fun _ _ _ => rfl)
      fun old fuel hfuel e r s hr hread => ?_
    obtain ⟨hnil, hold⟩ := hr
    have hs := ih fuel hfuel e r s (by simp [IsQuiet, hnil]) hread
    exact List.forall_mem_append.2 ⟨isQuiet_map_withRole hs role, hold⟩
  | ending e p ih => exact ih.ending e
  | rule name => exact hrules name

end Pattern

/-- **The asides of the tree of a text are mute.** -/
theorem hasMuteAsides_ofText {text : List Char} {t : Node} (h : Node.ofText text = .ok t) :
    t.HasMuteAsides := by
  rw [Node.ofText] at h
  split at h
  · cases h
  split at h
  · next r hread =>
    cases h
    have hrules := @Pattern.ensures_rules _ Grammar.rules Unit (fun _ _ => Reader.IsQuiet)
      (fun _ _ => Reader.IsQuiet) fun n ih name _ =>
        Pattern.ensures_isQuiet (fun name => ih name ()) (Grammar.rules name)
    have hstart : Reader.IsQuiet { rest := text } := by simp [Reader.IsQuiet]
    have hquiet : r.IsQuiet := Pattern.ensures_isQuiet
      (fun name => hrules (depthBound text) name ()) Grammar.file _ (Nat.le_refl _) _ _ _ hstart hread
    exact Node.hasMuteAsides_of_children rfl fun c hc => hquiet c (List.mem_reverse.1 hc)
  · cases h

end PermissionLint.Syntax
