/-
What the steps of reading do to the nodes of a frame.

On its way to a token a step passes asides, which are comments and line continuations; a token is a
leaf on top of them (`Reader.Takes`); and a node is made of all that is in the frame except for the
asides at its beginning (`Reader.wrap_eq_some`).
-/
import Mathlib.Data.List.TakeDrop
import Mathlib.Data.List.TakeWhile
import PermissionLint.Syntax.Reader
import PermissionLint.Proofs.Syntax.Outline

namespace PermissionLint.Syntax

/-! ## Nodes without an outline -/

/-- The node is an extra that plays no role and stands outside of the outline. -/
def Node.IsAside (n : Node) : Prop := n.extra = true ∧ n.role = none ∧ n.fits .phrase = true

/-- The node is a comment or a line continuation as it is read. -/
def Node.IsComment (n : Node) : Prop :=
  ∃ k span, n = Node.aside k span ∧ (k = .comment ∨ k = .lineContinuation)

lemma Node.IsComment.isAside {n : Node} (h : n.IsComment) : n.IsAside := by
  obtain ⟨_, span, rfl, rfl | rfl⟩ := h <;> exact ⟨rfl, rfl, rfl⟩

/-- A phrase may stand wherever a child without a role may. -/
lemma Place.admits_below_none {k : Kind} (h : k.isOutline = false) (place : Place) (parent : Kind) :
    (place.below parent none).admits k = true := by
  have hplace : place.below parent none ≠ .body ∧ place.below parent none ≠ .definition := by
    unfold Place.below
    split
    · simp
    · split <;> simp
    · simp
    · simp
    · simp
    · simp
    · split <;> simp
  cases hbelow : place.below parent none <;> simp_all [Place.admits]

lemma Node.fits_below_none {n : Node} (h : n.fits .phrase = true) (place : Place) (k : Kind) :
    n.fits (place.below k none) = true := by
  obtain ⟨hadmits, hextra, hbody, hdefinition, hchildren⟩ := Node.fits_iff.1 h
  have hkind : n.kind.isOutline = false := by simpa [Place.admits] using hadmits
  refine Node.fits_iff.2 ⟨Place.admits_below_none hkind place k, hextra, hbody, hdefinition, ?_⟩
  intro c hc
  have hc' := hchildren c hc
  rw [Place.below_eq_phrase hkind] at hc' ⊢
  exact hc'

lemma Node.fits_leaf (place : Place) (k : Kind) (span : Span) :
    (Node.leaf k span).fits place = place.admits k := by
  simp [Node.leaf, Node.fits, Node.hasOne, Node.fitAll]

lemma Node.fits_withRole (role : Role) (n : Node) (place : Place) :
    (n.withRole role).fits place = n.fits place := by
  cases n
  rw [Node.withRole]
  split
  · rfl
  · rw [Node.fits, Node.fits]
    rfl

/-! ## Asides -/

namespace Reader

/-- The second state has the nodes of the first one, and asides on top of them. -/
def PassesAsides (r s : Reader) : Prop :=
  ∃ asides, s.nodes = asides ++ r.nodes ∧ ∀ n ∈ asides, n.IsComment

lemma isComment_aside {cs : List Char} {k : Kind} {n : Nat} (h : aside? cs = some (k, n))
    (span : Span) : (Node.aside k span).IsComment := by
  refine ⟨k, span, rfl, ?_⟩
  unfold aside? at h
  split at h <;> simp at h <;> simp [← h.1]

lemma passesAsides_aside {r s : Reader} (h : r.aside = some s) : r.PassesAsides s := by
  obtain ⟨⟨k, n⟩, hk, rfl⟩ := Option.map_eq_some_iff.1 h
  exact ⟨[_], rfl, by simpa using isComment_aside hk _⟩

lemma PassesAsides.trans {r s t : Reader} (h : r.PassesAsides s) (h' : s.PassesAsides t) :
    r.PassesAsides t := by
  obtain ⟨asides, hs, hasides⟩ := h
  obtain ⟨asides', ht, hasides'⟩ := h'
  refine ⟨asides' ++ asides, by rw [ht, hs, List.append_assoc], ?_⟩
  exact List.forall_mem_append.2 ⟨hasides', hasides⟩

/-- On the way to the next token there are only asides. -/
lemma passesAsides_approach (fuel : Nat) (r : Reader) : r.PassesAsides (approach fuel r).2 := by
  induction fuel generalizing r with
  | zero => exact ⟨[], rfl, by simp⟩
  | succ fuel ih =>
    rw [approach]
    split
    · exact ⟨[], rfl, by simp⟩
    have hblanks : r.PassesAsides r.blanks := ⟨[], rfl, by simp⟩
    dsimp only
    split
    · next s hs => exact (hblanks.trans (passesAsides_aside hs)).trans (ih s)
    · exact hblanks

lemma passesAsides_of_next_eq {r t : Reader} {b : Option Break} (h : r.next = (b, t)) :
    r.PassesAsides t := by
  have hnext := passesAsides_approach (r.size + 1) r
  rwa [← next, h] at hnext

/-! ## Making a node -/

/-- Making a node of a frame: it begins with the first node of the frame that is no aside, and the
asides before that stay outside. -/
lemma exists_of_wrap {k : Kind} {r s : Reader} (h : r.wrap k = some s) :
    ∃ asides first others stop, r.nodes.reverse = asides ++ first :: others ∧
      (∀ n ∈ asides, n.extra = true) ∧ first.extra = false ∧
      s = { r with nodes :=
        ⟨k, ⟨first.span.start, stop⟩, none, false, first :: others⟩ :: asides.reverse } := by
  rw [wrap, List.span_eq_takeWhile_dropWhile] at h
  split at h
  · simp at h
  · next asides first others hspan =>
    obtain ⟨htake, hdrop⟩ := Prod.mk.inj hspan
    cases h
    refine ⟨asides, first, others, _, ?_, ?_, ?_, rfl⟩
    · rw [← htake, ← hdrop, List.takeWhile_append_dropWhile]
    · rw [← htake]
      exact fun n hn => List.mem_takeWhile_imp hn
    · have hhead := List.head?_dropWhile_not Node.extra r.nodes.reverse
      rw [hdrop] at hhead
      simpa using hhead

/-- Making a node of a frame: asides at its beginning stay outside. -/
lemma wrap_eq_some {k : Kind} {r s : Reader} (h : r.wrap k = some s) :
    ∃ asides children span, r.nodes.reverse = asides ++ children ∧
      (∀ n ∈ asides, n.extra = true) ∧
        s.nodes = ⟨k, span, none, false, children⟩ :: asides.reverse := by
  obtain ⟨asides, first, others, stop, hnodes, hasides, -, rfl⟩ := exists_of_wrap h
  exact ⟨asides, first :: others, _, hnodes, hasides, rfl⟩

/-- There is no node to be made of nothing but asides. -/
lemma extra_of_wrap_eq_none {k : Kind} {r : Reader} (h : r.wrap k = none) :
    ∀ n ∈ r.nodes, n.extra = true := by
  intro n hn
  rw [wrap, List.span_eq_takeWhile_dropWhile] at h
  split at h
  · next hspan =>
    have hdrop := (Prod.mk.inj hspan).2
    rw [List.dropWhile_eq_nil_iff] at hdrop
    exact hdrop n (List.mem_reverse.2 hn)
  · simp at h

/-! ## Tokens and layout -/

variable {r s : Reader}

/-- The step takes a token: the asides before it, and then a leaf of the given kind. -/
def Takes (k : Kind) (r s : Reader) : Prop :=
  ∃ t span, r.PassesAsides t ∧ s.nodes = Node.leaf k span :: t.nodes

lemma PassesAsides.refl (r : Reader) : r.PassesAsides r := ⟨[], rfl, by simp⟩

lemma takes_token {k : Kind} {l : Lexeme} (h : r.token k l = some s) : Takes k r s := by
  rw [token] at h
  split at h
  · simp at h
  · next t heq =>
    split at h
    · cases h
      exact ⟨t, _, passesAsides_of_next_eq heq, rfl⟩
    · simp at h

lemma takes_fragment {k : Kind} {l : Lexeme} (h : r.fragment k l = some s) : Takes k r s := by
  rw [fragment] at h
  split at h
  · cases h
    exact ⟨r, _, .refl r, rfl⟩
  · simp at h

lemma takes_openString (h : r.openString = some s) : Takes .stringStart r s := by
  rw [openString] at h
  split at h
  · simp at h
  · next t heq =>
    split at h
    · split at h
      · simp at h
      · cases h
        exact ⟨t, _, passesAsides_of_next_eq heq, rfl⟩
    · simp at h

lemma takes_stringText (h : r.stringText = some s) :
    Takes .escapeInterpolation r s ∨ Takes .stringContent r s := by
  rw [stringText] at h
  split at h
  · simp at h
  · split at h
    · cases h
      exact .inl ⟨r, _, .refl r, rfl⟩
    · split at h
      · cases h
        exact .inr ⟨r, _, .refl r, rfl⟩
      · simp at h

lemma takes_closeString (h : r.closeString = some s) : Takes .stringEnd r s := by
  rw [closeString] at h
  split at h
  · simp at h
  · split at h
    · cases h
      exact ⟨r, _, .refl r, rfl⟩
    · simp at h

lemma passesAsides_newline (h : r.newline = some s) : r.PassesAsides s := by
  rw [newline] at h
  split at h
  · next t heq =>
    have hnext := passesAsides_of_next_eq heq
    cases h
    exact hnext
  · simp at h

lemma passesAsides_indent (h : r.indent = some s) : r.PassesAsides s := by
  rw [indent] at h
  split at h
  · next t heq =>
    have hnext := passesAsides_of_next_eq heq
    cases h
    exact hnext
  · simp at h

lemma passesAsides_dedent (h : r.dedent = some s) : r.PassesAsides s := by
  rw [dedent] at h
  split at h
  · next t heq =>
    have hnext := passesAsides_of_next_eq heq
    cases h
    exact hnext
  · simp at h

lemma passesAsides_finish (h : r.finish = some s) : r.PassesAsides s := by
  rw [finish] at h
  split at h
  · next t heq =>
    split at h
    · cases h
      exact passesAsides_of_next_eq heq
    · simp at h
  · simp at h

lemma nodes_begin (r : Reader) : r.begin.nodes = r.nodes := by
  rw [begin]
  split
  · split <;> rfl
  · rfl

end Reader

end PermissionLint.Syntax
