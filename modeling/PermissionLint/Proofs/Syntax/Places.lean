/-
Where the nodes of a tree begin, and with what.

A node begins with its first child, at the same byte, and that is one at which a character begins.
The first child is no block.  Of some kinds of nodes more is known: an expression statement begins
with a phrase and not with a mark, an assignment begins with its target, and parentheses begin with
an opening one.  `Node.Opens` says this of a node.  A step of reading takes tokens and asides from
where the text goes on (`Reader.Leads`, `Reader.Approaches`), so that each of them begins where a
character does.
-/
import PermissionLint.Proofs.Source.Position
import PermissionLint.Proofs.Syntax.Steps

namespace PermissionLint.Syntax

open PermissionLint.Source

/-! ## The first child -/

/-- A file and a block may cover nothing. -/
def Kind.isHollow (k : Kind) : Bool := k == root || k == block

lemma Kind.isHollow_eq_false {k : Kind} (h : k.isOutline = false) : k.isHollow = false := by
  simp only [isOutline, Bool.or_eq_false_iff] at h
  rw [isHollow, h.1.1.1.1.1, h.1.1.1.1.2]
  rfl

/-- Statements are no blocks, and neither are definitions below decorators. -/
lemma Place.isHollow_of_admits {place : Place} {k : Kind} (h : place.admits k = true)
    (hplace : place = .statement ∨ place = .definition) : k.isHollow = false := by
  rcases hplace with rfl | rfl <;> cases k <;> first | rfl | cases h

/-- Something to be known of the first child of a node. -/
inductive Trait where
  /-- It is no block. -/
  | solid
  /-- It is named. -/
  | named
  /-- It is the target of an assignment. -/
  | target
  /-- It begins with an opening parenthesis. -/
  | parenthesis
  deriving DecidableEq

/-- The node is as the trait says. -/
def Trait.Holds (text : List Char) (n : Node) : Trait → Prop
  | solid => n.kind.isHollow = false
  | named => n.kind.isNamed = true
  | target => n.role = some .left
  | parenthesis => StandsAt text ['('] n.span.start

/-- What is known of the first child of a node, by the kind of the node. -/
def Kind.opening : Kind → List Trait
  | expressionStatement => [.solid, .named]
  | assignment => [.solid, .target]
  | tuplePattern | parenthesizedExpression => [.solid, .parenthesis]
  | _ => [.solid]

lemma Kind.solid_mem_opening (k : Kind) : .solid ∈ k.opening := by
  unfold opening
  split <;> exact List.mem_cons_self

/-- The node begins where a character does.  If it has children, it begins with the first one, which
is no aside and as the kind of the node says. -/
structure Node.Opens (text : List Char) (n : Node) : Prop where
  stands : StandsAt text [] n.span.start
  first : ∀ c ∈ n.children.head?, c.extra = false ∧ c.span.start = n.span.start ∧
    ∀ t ∈ n.kind.opening, t.Holds text c

/-- The node and all nodes below it begin like that. -/
def Node.OpensAll (text : List Char) (n : Node) : Prop := ∀ m ∈ n.nodes, m.Opens text

namespace Node

variable {text : List Char} {m n : Node}

lemma opensAll_of_children_nil (hchildren : n.children = [])
    (h : StandsAt text [] n.span.start) : n.OpensAll text := by
  intro m hm
  rw [mem_nodes_iff, hchildren] at hm
  rcases hm with rfl | ⟨c, hc, -⟩
  · refine ⟨h, fun c hc => ?_⟩
    rw [hchildren] at hc
    cases hc
  · exact absurd hc List.not_mem_nil

lemma OpensAll.self (h : n.OpensAll text) : n.Opens text := h n (self_mem_nodes n)

lemma extra_withRole (role : Role) (n : Node) : (n.withRole role).extra = n.extra := by
  rw [withRole]
  split <;> rfl

/-- A role makes no difference to where a node begins. -/
lemma OpensAll.withRole (h : n.OpensAll text) (role : Role) : (n.withRole role).OpensAll text := by
  rw [Node.withRole]
  split
  · exact h
  · intro m hm
    rcases mem_nodes_iff.1 hm with rfl | ⟨c, hc, hm⟩
    · exact ⟨h.self.stands, h.self.first⟩
    · exact h m (mem_nodes_iff.2 (.inr ⟨c, hc, hm⟩))

/-- A node that is made of others begins with the first of them. -/
lemma opensAll_mk {k : Kind} {first : Node} {others : List Node} {stop : Nat}
    (hchildren : ∀ c ∈ first :: others, c.OpensAll text) (hextra : first.extra = false)
    (htraits : ∀ t ∈ k.opening, t.Holds text first) :
    OpensAll text ⟨k, ⟨first.span.start, stop⟩, none, false, first :: others⟩ := by
  intro m hm
  rcases mem_nodes_iff.1 hm with rfl | ⟨c, hc, hm⟩
  · refine ⟨(hchildren first List.mem_cons_self).self.stands, fun c hc => ?_⟩
    cases hc
    exact ⟨hextra, rfl, htraits⟩
  · exact hchildren c hc m hm

lemma OpensAll.of_mem (h : n.OpensAll text) (hm : m ∈ n.nodes) : m.OpensAll text :=
  fun l hl => h l (mem_nodes_trans hl hm)

/-- A node that has children begins with the first one. -/
lemma OpensAll.exists_first (h : n.OpensAll text) (hm : m ∈ n.children) :
    ∃ c cs, n.children = c :: cs ∧ c.extra = false ∧ c.span.start = n.span.start ∧
      ∀ t ∈ n.kind.opening, t.Holds text c := by
  cases hchildren : n.children with
  | nil =>
    rw [hchildren] at hm
    cases hm
  | cons c cs => exact ⟨c, cs, rfl, h.self.first c (by rw [hchildren]; rfl)⟩

/-- The only phrase of an expression statement stands at its beginning. -/
lemma OpensAll.start_phrase (h : n.OpensAll text) (hkind : n.kind = .expressionStatement)
    (hlength : n.phrases.length = 1) (hm : m ∈ n.phrases) : m.span.start = n.span.start := by
  obtain ⟨c, cs, hchildren, hextra, hstart, htraits⟩ := h.exists_first (List.mem_of_mem_filter hm)
  rw [hkind] at htraits
  have hnamed : c.kind.isNamed = true := htraits .named (by simp [Kind.opening])
  have hphrases : n.phrases = c :: cs.filter isPhrase := by
    rw [phrases, hchildren, List.filter_cons_of_pos (by simp [isPhrase, hnamed, hextra])]
  rw [hphrases, List.length_cons, Nat.add_eq_right, List.length_eq_zero_iff] at hlength
  rw [hphrases, hlength, List.mem_singleton] at hm
  rw [hm, hstart]

/-- The target of an assignment stands at its beginning. -/
lemma OpensAll.start_target (h : n.OpensAll text) (hkind : n.kind = .assignment)
    (hm : n.child? .left = some m) : m.span.start = n.span.start := by
  obtain ⟨c, cs, hchildren, -, hstart, htraits⟩ := h.exists_first (List.mem_of_find?_eq_some hm)
  rw [hkind] at htraits
  have hrole : c.role = some .left := htraits .target (by simp [Kind.opening])
  rw [child?, hchildren, List.find?_cons_of_pos (by simp [hrole])] at hm
  cases hm
  exact hstart

end Node

/-! ## Steps of reading -/

/-- The lexeme is an opening parenthesis. -/
def Lexeme.isParenthesis (l : Lexeme) : Bool := l == .op "(" || l == .punct "("

lemma Lexeme.front_of_isParenthesis {l : Lexeme} (h : l.isParenthesis = true) {cs : List Char}
    {n : Nat} (hlength : l.length? cs = some n) : ['('] <+: cs := by
  rw [isParenthesis, Bool.or_eq_true, beq_iff_eq, beq_iff_eq] at h
  rcases h with rfl | rfl
  · rw [length?] at hlength
    split at hlength
    · next hoperator =>
      have hfront : "(".toList.isPrefixOf cs = true := by
        rw [beq_iff_eq, operator?] at hoperator
        simpa only using List.find?_some hoperator
      exact List.isPrefixOf_iff_prefix.1 hfront
    · cases hlength
  · rw [length?] at hlength
    split at hlength
    · next hfront => exact List.isPrefixOf_iff_prefix.1 hfront
    · cases hlength

namespace Reader

variable {text : List Char} {r s t : Reader}

/-- The state is one of reading the text: what is left is its end, and the number of bytes before
that is right. -/
def IsAt (text : List Char) (r : Reader) : Prop :=
  ∃ before, text = before ++ r.rest ∧ byteLength before = r.offset

lemma IsAt.standsAt (h : r.IsAt text) {word : List Char} (hword : word <+: r.rest) :
    StandsAt text word r.offset := by
  obtain ⟨before, htext, hoffset⟩ := h
  obtain ⟨behind, hrest⟩ := hword
  exact ⟨before, behind, by rw [hrest, htext], hoffset⟩

/-- Going on by some characters. -/
lemma IsAt.drop (h : r.IsAt text) {n : Nat} (hrest : s.rest = r.rest.drop n)
    (hoffset : s.offset = r.offset + byteLength (r.rest.take n)) : s.IsAt text := by
  obtain ⟨before, htext, hbefore⟩ := h
  refine ⟨before ++ r.rest.take n, ?_, ?_⟩
  · rw [hrest, List.append_assoc, List.take_append_drop, htext]
  · rw [byteLength_append, hbefore, hoffset]

/-- The second state is further on in the text, and it has only asides more. -/
structure Approaches (text : List Char) (r s : Reader) : Prop where
  isAt : s.IsAt text
  nodes : ∃ asides, s.nodes = asides ++ r.nodes ∧
    ∀ n ∈ asides, n.extra = true ∧ n.OpensAll text

lemma IsAt.approaches (h : r.IsAt text) : r.Approaches text r := ⟨h, [], rfl, by simp⟩

lemma Approaches.trans (h : r.Approaches text s) (h' : s.Approaches text t) :
    r.Approaches text t := by
  obtain ⟨-, asides, hs, hasides⟩ := h
  obtain ⟨hat, asides', ht, hasides'⟩ := h'
  refine ⟨hat, asides' ++ asides, by rw [ht, hs, List.append_assoc], ?_⟩
  exact List.forall_mem_append.2 ⟨hasides', hasides⟩

lemma approaches_blanks (h : r.IsAt text) : r.Approaches text r.blanks :=
  ⟨h.drop rfl rfl, [], rfl, by simp⟩

lemma approaches_aside (h : r.IsAt text) (hs : r.aside = some s) : r.Approaches text s := by
  obtain ⟨⟨k, n⟩, -, rfl⟩ := Option.map_eq_some_iff.1 hs
  refine ⟨h.drop rfl rfl, [_], rfl, fun m hm => ?_⟩
  obtain rfl := List.mem_singleton.1 hm
  exact ⟨rfl, Node.opensAll_of_children_nil rfl (h.standsAt List.nil_prefix)⟩

lemma approaches_approach (fuel : Nat) (h : r.IsAt text) :
    r.Approaches text (approach fuel r).2 := by
  induction fuel generalizing r with
  | zero => exact h.approaches
  | succ fuel ih =>
    rw [approach]
    split
    · exact h.approaches
    have hblanks := approaches_blanks h
    dsimp only
    split
    · next s hs =>
      have haside := approaches_aside hblanks.isAt hs
      exact (hblanks.trans haside).trans (ih haside.isAt)
    · exact hblanks

lemma approaches_of_next {b : Option Break} (h : r.IsAt text) (hnext : r.next = (b, t)) :
    r.Approaches text t := by
  have happroach := approaches_approach (r.size + 1) h
  rwa [← next, hnext] at happroach

/-- The step takes a token at a place of the text, with the asides before it. -/
def Leads (text : List Char) (k : Kind) (isParenthesis : Bool) (r s : Reader) : Prop :=
  s.IsAt text ∧ ∃ t span, r.Approaches text t ∧ s.nodes = Node.leaf k span :: t.nodes ∧
    StandsAt text [] span.start ∧ (isParenthesis = true → StandsAt text ['('] span.start)

/-- A token is taken from where the last approach led to. -/
lemma Approaches.leads (h : r.Approaches text t) {k : Kind} {n stop : Nat} {isParenthesis : Bool}
    (hfront : isParenthesis = true → ['('] <+: t.rest) (hrest : s.rest = t.rest.drop n)
    (hoffset : s.offset = t.offset + byteLength (t.rest.take n))
    (hnodes : s.nodes = Node.leaf k ⟨t.offset, stop⟩ :: t.nodes) : Leads text k isParenthesis r s :=
  ⟨h.isAt.drop hrest hoffset, t, ⟨t.offset, stop⟩, h, hnodes, h.isAt.standsAt List.nil_prefix,
    fun hparenthesis => h.isAt.standsAt (hfront hparenthesis)⟩

lemma leads_token {k : Kind} {l : Lexeme} (h : r.IsAt text) (hs : r.token k l = some s) :
    Leads text k l.isParenthesis r s := by
  rw [token] at hs
  split at hs
  · cases hs
  · next t hnext =>
    split at hs
    · next n hlength =>
      cases hs
      exact (approaches_of_next h hnext).leads
        (fun hl => Lexeme.front_of_isParenthesis hl hlength) rfl rfl rfl
    · cases hs

lemma leads_fragment {k : Kind} {l : Lexeme} (h : r.IsAt text) (hs : r.fragment k l = some s) :
    Leads text k l.isParenthesis r s := by
  rw [fragment] at hs
  split at hs
  · next n hlength =>
    cases hs
    exact h.approaches.leads (fun hl => Lexeme.front_of_isParenthesis hl hlength) rfl rfl rfl
  · cases hs

lemma leads_openString (h : r.IsAt text) (hs : r.openString = some s) :
    Leads text .stringStart false r s := by
  rw [openString] at hs
  split at hs
  · cases hs
  · next t hnext =>
    split at hs
    · split at hs
      · cases hs
      · cases hs
        exact (approaches_of_next h hnext).leads (absurd · Bool.false_ne_true) rfl rfl rfl
    · cases hs

lemma leads_stringText (h : r.IsAt text) (hs : r.stringText = some s) :
    ∃ k : Kind, k.isNamed = true ∧ k.isHollow = false ∧ Leads text k false r s := by
  rw [stringText] at hs
  split at hs
  · cases hs
  · split at hs
    · cases hs
      exact ⟨.escapeInterpolation, rfl, rfl,
        h.approaches.leads (absurd · Bool.false_ne_true) rfl rfl rfl⟩
    · split at hs
      · cases hs
        exact ⟨.stringContent, rfl, rfl,
          h.approaches.leads (absurd · Bool.false_ne_true) rfl rfl rfl⟩
      · cases hs

lemma leads_closeString (h : r.IsAt text) (hs : r.closeString = some s) :
    Leads text .stringEnd false r s := by
  rw [closeString] at hs
  split at hs
  · cases hs
  · split at hs
    · cases hs
      exact h.approaches.leads (absurd · Bool.false_ne_true) rfl rfl rfl
    · cases hs

lemma approaches_newline (h : r.IsAt text) (hs : r.newline = some s) : r.Approaches text s := by
  rw [newline] at hs
  split at hs
  · next t hnext =>
    obtain ⟨hat, hnodes⟩ := approaches_of_next h hnext
    cases hs
    exact ⟨hat, hnodes⟩
  · cases hs

lemma approaches_indent (h : r.IsAt text) (hs : r.indent = some s) : r.Approaches text s := by
  rw [indent] at hs
  split at hs
  · next t hnext =>
    obtain ⟨hat, hnodes⟩ := approaches_of_next h hnext
    cases hs
    exact ⟨hat, hnodes⟩
  · cases hs

lemma approaches_dedent (h : r.IsAt text) (hs : r.dedent = some s) : r.Approaches text s := by
  rw [dedent] at hs
  split at hs
  · next t hnext =>
    obtain ⟨hat, hnodes⟩ := approaches_of_next h hnext
    cases hs
    exact ⟨hat, hnodes⟩
  · cases hs

lemma approaches_finish (h : r.IsAt text) (hs : r.finish = some s) : r.Approaches text s := by
  rw [finish] at hs
  split at hs
  · next t hnext =>
    split at hs
    · cases hs
      exact approaches_of_next h hnext
    · cases hs
  · cases hs

lemma approaches_begin (h : r.IsAt text) : r.Approaches text r.begin := by
  have hself : r.Approaches text r := h.approaches
  rw [begin]
  split
  · split
    · exact hself
    · exact ⟨h, hself.nodes⟩
  · exact hself

end Reader

end PermissionLint.Syntax
