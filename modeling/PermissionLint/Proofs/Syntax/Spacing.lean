/-
The spans of the nodes of a tree.

The children of a node stand one behind the other inside of it, and a node without children covers
something, unless it is a file or a block.  `Node.Spaced` says this of a node, and it is so for
every node of the tree of a text (`spacedAll_ofText`): a step of reading takes what it takes from
where the text goes on, so that the nodes of a frame always stand one behind the other
(`Reader.Lined`).

In a tree like that a node comes before another one in one of two ways only: it is around the other
one, or it ends before that begins (`Node.SpacedAll.nodes_pairwise`).  And every node but a file and
a block covers something (`Node.SpacedAll.start_lt_stop`).
-/
import PermissionLint.Proofs.Syntax.Openings

namespace PermissionLint.Syntax

open PermissionLint.Source

/-! ## Spaced trees -/

/-- The children of the node stand one behind the other inside of it.  Without children it covers
something, unless it is a file or a block. -/
structure Node.Spaced (n : Node) : Prop where
  ordered : n.children.Pairwise fun c d => c.span.stop ≤ d.span.start
  within : ∀ c ∈ n.children, n.span.start ≤ c.span.start ∧ c.span.stop ≤ n.span.stop
  forward : n.span.start ≤ n.span.stop
  covers : n.children = [] → n.kind.isHollow = false → n.span.start < n.span.stop

/-- The node and all nodes below it are spaced. -/
def Node.SpacedAll (n : Node) : Prop := ∀ m ∈ n.nodes, m.Spaced

namespace Node

variable {m n c d : Node}

lemma SpacedAll.self (h : n.SpacedAll) : n.Spaced := h n (self_mem_nodes n)

lemma SpacedAll.of_mem (h : n.SpacedAll) (hm : m ∈ n.nodes) : m.SpacedAll :=
  fun l hl => h l (mem_nodes_trans hl hm)

lemma SpacedAll.child (h : n.SpacedAll) (hc : c ∈ n.children) : c.SpacedAll :=
  h.of_mem (mem_nodes_of_mem_children hc)

lemma spacedAll_of_children (h : n.Spaced) (hchildren : ∀ c ∈ n.children, c.SpacedAll) :
    n.SpacedAll := by
  intro m hm
  rcases mem_nodes_iff.1 hm with rfl | ⟨c, hc, hm⟩
  · exact h
  · exact hchildren c hc m hm

/-- A single node. -/
lemma spacedAll_of_children_nil (hchildren : n.children = [])
    (hforward : n.span.start ≤ n.span.stop)
    (hcovers : n.kind.isHollow = false → n.span.start < n.span.stop) : n.SpacedAll := by
  refine spacedAll_of_children ⟨?_, ?_, hforward, fun _ => hcovers⟩ ?_
  · rw [hchildren]
    exact .nil
  · simp [hchildren]
  · simp [hchildren]

lemma span_withRole (role : Role) (n : Node) : (n.withRole role).span = n.span := by
  rw [withRole]
  split <;> rfl

/-- A role makes no difference to the spans. -/
lemma SpacedAll.withRole (h : n.SpacedAll) (role : Role) : (n.withRole role).SpacedAll := by
  rw [Node.withRole]
  split
  · exact h
  · have hself := h.self
    exact spacedAll_of_children ⟨hself.ordered, hself.within, hself.forward, hself.covers⟩
      fun c hc => h.child hc

/-- The nodes below a node stand inside of it. -/
lemma SpacedAll.within (h : n.SpacedAll) (hm : m ∈ n.nodes) :
    n.span.start ≤ m.span.start ∧ m.span.stop ≤ n.span.stop := by
  induction n using childInduction with
  | step n ih =>
    rcases mem_nodes_iff.1 hm with rfl | ⟨c, hc, hm⟩
    · exact ⟨Nat.le_refl _, Nat.le_refl _⟩
    · have hchild := h.self.within c hc
      have hbelow := ih c hc (h.child hc) hm
      omega

/-- Two children of a node are the same, or one of them ends before the other one begins. -/
lemma Spaced.eq_or_apart (h : n.Spaced) (hc : c ∈ n.children) (hd : d ∈ n.children) :
    c = d ∨ c.span.stop ≤ d.span.start ∨ d.span.stop ≤ c.span.start := by
  have hbefore : n.children.Pairwise fun c d =>
      c = d ∨ c.span.stop ≤ d.span.start ∨ d.span.stop ≤ c.span.start :=
    h.ordered.imp fun hcd => .inr (.inl hcd)
  have hbehind : n.children.Pairwise (flip fun c d =>
      c = d ∨ c.span.stop ≤ d.span.start ∨ d.span.stop ≤ c.span.start) :=
    h.ordered.imp fun hcd => .inr (.inr hcd)
  exact hbefore.forall_of_forall_of_flip (fun _ _ => .inl rfl) hbehind hc hd

/-- **A node that comes before another one is around it, or ends before the other one begins.** -/
theorem SpacedAll.nodes_pairwise (h : n.SpacedAll) :
    n.nodes.Pairwise fun x y => (∃ c ∈ x.children, y ∈ c.nodes) ∨ x.span.stop ≤ y.span.start := by
  induction n using childInduction with
  | step n ih =>
    rw [nodes_eq_cons, List.pairwise_cons, List.pairwise_flatMap]
    refine ⟨fun y hy => ?_, fun c hc => ih c hc (h.child hc), ?_⟩
    · exact .inl (List.mem_flatMap.1 hy)
    · refine h.self.ordered.imp_of_mem fun {c d} hc hd hcd x hx y hy => .inr ?_
      have hstop := ((h.child hc).within hx).2
      have hstart := ((h.child hd).within hy).1
      omega

/-- What stands below a phrase is a phrase. -/
lemma fits_phrase_of_mem_children {place : Place} (hfits : n.fits place = true)
    (hkind : n.kind.isOutline = false) (hc : c ∈ n.children) :
    c.fits .phrase = true ∧ c.kind.isOutline = false := by
  have hbelow := (fits_iff.1 hfits).children c hc
  rw [Place.below_eq_phrase hkind] at hbelow
  exact ⟨hbelow, by simpa [Place.admits] using (fits_iff.1 hbelow).admits⟩

/-- Nothing of the outline stands inside of a phrase. -/
lemma isOutline_of_mem_nodes {place : Place} (hfits : n.fits place = true)
    (hkind : n.kind.isOutline = false) (hm : m ∈ n.nodes) : m.kind.isOutline = false := by
  induction n using childInduction generalizing place with
  | step n ih =>
    rcases mem_nodes_iff.1 hm with rfl | ⟨c, hc, hm⟩
    · exact hkind
    · obtain ⟨hbelow, hphrase⟩ := fits_phrase_of_mem_children hfits hkind hc
      exact ih c hc hbelow hphrase hm

/-- A node that is no block covers something, for its first child does. -/
lemma SpacedAll.start_lt_stop {text : List Char} (h : n.SpacedAll) (hopens : n.OpensAll text)
    (hkind : n.kind.isHollow = false) : n.span.start < n.span.stop := by
  induction n using childInduction with
  | step n ih =>
    cases hchildren : n.children with
    | nil => exact h.self.covers hchildren hkind
    | cons c cs =>
      have hc : c ∈ n.children := by rw [hchildren]; exact List.mem_cons_self
      obtain ⟨-, -, htraits⟩ := hopens.self.first c (by rw [hchildren]; rfl)
      have hsolid : c.kind.isHollow = false := htraits .solid n.kind.solid_mem_opening
      have hlt := ih c hc (h.child hc) (hopens.of_mem (mem_nodes_of_mem_children hc)) hsolid
      have hwithin := h.self.within c hc
      omega

end Node

/-! ## What tokens cover -/

lemma byteLength_take_pos {cs : List Char} {n : Nat} (hcs : cs ≠ []) (hn : 0 < n) :
    0 < byteLength (cs.take n) := by
  cases cs with
  | nil => exact absurd rfl hcs
  | cons c cs =>
    cases n with
    | zero => exact absurd hn (Nat.lt_irrefl 0)
    | succ n =>
      have hsize : 0 < c.utf8Size := c.utf8Size_pos
      rw [List.take_succ_cons, byteLength_cons]
      omega

/-- There is no token at the end of the text. -/
lemma Lexeme.ne_nil_of_length? {l : Lexeme} {cs : List Char} {n : Nat}
    (h : l.length? cs = some (n + 1)) : cs ≠ [] := by
  rintro rfl
  cases l with
  | op spelling =>
    have hnone : operator? [] = none := by decide +kernel
    simp [length?, hnone] at h
  | punct spelling =>
    rw [length?] at h
    split at h
    · next hfront =>
      have hnil : spelling.toList = [] := List.prefix_nil.1 (List.isPrefixOf_iff_prefix.1 hfront)
      have hlength : spelling.length = 0 := by rw [← String.length_toList, hnil]; rfl
      simp [hlength] at h
    · cases h
  | _ => cases h

lemma Quote.lt_of_openAux {q q' : Quote} {n m : Nat} {cs : List Char}
    (h : openAux q n cs = some (q', m)) : n < m := by
  fun_induction openAux q n cs with
  | case1 => cases h
  | case2 q n c cs _ ih => exact Nat.lt_of_succ_lt (ih h)
  | case3 q n c cs _ _ ih => exact Nat.lt_of_succ_lt (ih h)
  | case4 q n c cs _ _ _ ih => exact Nat.lt_of_succ_lt (ih h)
  | case5 q n c cs _ _ _ _ ih => exact Nat.lt_of_succ_lt (ih h)
  | case6 => grind
  | case7 => grind
  | case8 => grind
  | case9 => cases h

/-- A closing delimiter covers something. -/
lemma Quote.lt_of_piece_close {q : Quote} {fuel n m : Nat} {content : Bool} {cs : List Char}
    (h : q.piece fuel content n cs = some (.close m)) : n < m := by
  fun_induction piece q fuel content n cs <;> grind

lemma Quote.ne_nil_of_piece {q : Quote} {fuel n : Nat} {content : Bool} {cs : List Char}
    {p : Piece} (h : q.piece fuel content n cs = some p) : cs ≠ [] := by
  rintro rfl
  cases fuel <;> cases h

/-! ## Steps of reading -/

namespace Reader

variable {base : Nat} {r s : Reader}

/-- The nodes of the frame stand one behind the other, between a byte and the one where the text
goes on.  They are kept newest first. -/
structure Lined (base : Nat) (r : Reader) : Prop where
  ordered : r.nodes.Pairwise fun c d => d.span.stop ≤ c.span.start
  within : ∀ n ∈ r.nodes, base ≤ n.span.start ∧ n.span.stop ≤ r.offset
  spaced : ∀ n ∈ r.nodes, n.SpacedAll
  base_le : base ≤ r.offset

/-- Going on without a new node. -/
lemma Lined.goOn (h : r.Lined base) (hnodes : s.nodes = r.nodes) (hoffset : r.offset ≤ s.offset) :
    s.Lined base := by
  refine ⟨?_, fun n hn => ?_, ?_, Nat.le_trans h.base_le hoffset⟩
  · rw [hnodes]
    exact h.ordered
  · rw [hnodes] at hn
    exact ⟨(h.within n hn).1, Nat.le_trans (h.within n hn).2 hoffset⟩
  · rw [hnodes]
    exact h.spaced

/-- A node that begins where the text goes on. -/
lemma Lined.push {n : Node} (h : r.Lined base) (hn : n.SpacedAll) (hnodes : s.nodes = n :: r.nodes)
    (hstart : r.offset ≤ n.span.start) (hstop : n.span.stop ≤ s.offset) : s.Lined base := by
  have hbase := h.base_le
  have hforward := hn.self.forward
  refine ⟨?_, ?_, ?_, by omega⟩
  · rw [hnodes, List.pairwise_cons]
    exact ⟨fun m hm => Nat.le_trans (h.within m hm).2 hstart, h.ordered⟩
  · rw [hnodes, List.forall_mem_cons]
    refine ⟨by omega, fun m hm => ?_⟩
    have hm := h.within m hm
    omega
  · rw [hnodes, List.forall_mem_cons]
    exact ⟨hn, h.spaced⟩

/-- A token, which takes some characters. -/
lemma Lined.token {k : Kind} {n : Nat} (h : r.Lined base) (hrest : r.rest ≠ []) (hn : 0 < n)
    (hoffset : s.offset = r.offset + byteLength (r.rest.take n))
    (hnodes : s.nodes = Node.leaf k ⟨r.offset, s.offset⟩ :: r.nodes) : s.Lined base := by
  have hpos := byteLength_take_pos hrest hn
  have hspan : r.offset < s.offset := by omega
  exact h.push (Node.spacedAll_of_children_nil rfl (Nat.le_of_lt hspan) fun _ => hspan) hnodes
    (Nat.le_refl _) (Nat.le_refl _)

lemma lined_blanks (h : r.Lined base) : r.blanks.Lined base := h.goOn rfl (Nat.le_add_right _ _)

lemma pos_of_aside? {cs : List Char} {k : Kind} {n : Nat} (h : aside? cs = some (k, n)) :
    cs ≠ [] ∧ 0 < n := by
  unfold aside? at h
  split at h
  · cases h
    exact ⟨List.cons_ne_nil _ _, Nat.lt_of_lt_of_le Nat.zero_lt_one (Nat.le_add_right _ _)⟩
  · cases h
    exact ⟨List.cons_ne_nil _ _, Nat.zero_lt_two⟩
  · cases h
    exact ⟨List.cons_ne_nil _ _, Nat.zero_lt_succ 2⟩
  · cases h
    exact ⟨List.cons_ne_nil _ _, Nat.zero_lt_one⟩
  · cases h

lemma lined_aside (h : r.Lined base) (hs : r.aside = some s) : s.Lined base := by
  obtain ⟨⟨k, n⟩, haside, rfl⟩ := Option.map_eq_some_iff.1 hs
  obtain ⟨hrest, hn⟩ := pos_of_aside? haside
  have hpos := byteLength_take_pos hrest hn
  have hspan : r.offset < r.offset + byteLength (r.rest.take n) := by omega
  exact h.push (Node.spacedAll_of_children_nil rfl (Nat.le_of_lt hspan) fun _ => hspan) rfl
    (Nat.le_refl _) (Nat.le_refl _)

lemma lined_approach (fuel : Nat) (h : r.Lined base) : (approach fuel r).2.Lined base := by
  induction fuel generalizing r with
  | zero => exact h
  | succ fuel ih =>
    rw [approach]
    split
    · exact h
    dsimp only
    split
    · next s hs => exact ih (lined_aside (lined_blanks h) hs)
    · exact lined_blanks h

lemma lined_of_next {b : Option Break} (h : r.Lined base) (hnext : r.next = (b, s)) :
    s.Lined base := by
  have happroach := lined_approach (r.size + 1) h
  rwa [← next, hnext] at happroach

lemma lined_token {k : Kind} {l : Lexeme} (h : r.Lined base) (hs : r.token k l = some s) :
    s.Lined base := by
  rw [token] at hs
  split at hs
  · cases hs
  · next t hnext =>
    split at hs
    · next n hlength =>
      cases hs
      exact (lined_of_next h hnext).token (Lexeme.ne_nil_of_length? hlength) n.succ_pos rfl rfl
    · cases hs

lemma lined_fragment {k : Kind} {l : Lexeme} (h : r.Lined base) (hs : r.fragment k l = some s) :
    s.Lined base := by
  rw [fragment] at hs
  split at hs
  · next n hlength =>
    cases hs
    exact h.token (Lexeme.ne_nil_of_length? hlength) n.succ_pos rfl rfl
  · cases hs

lemma lined_openString (h : r.Lined base) (hs : r.openString = some s) : s.Lined base := by
  rw [openString] at hs
  split at hs
  · cases hs
  · next t hnext =>
    split at hs
    · next q n hopen =>
      split at hs
      · cases hs
      · cases hs
        refine (lined_of_next h hnext).token ?_ (Quote.lt_of_openAux hopen) rfl rfl
        intro hnil
        rw [hnil] at hopen
        cases hopen
    · cases hs

lemma lined_stringText (h : r.Lined base) (hs : r.stringText = some s) : s.Lined base := by
  rw [stringText] at hs
  split at hs
  · cases hs
  · next q _ _ =>
    split at hs
    · next n hbrace =>
      cases hs
      have hcovers : r.rest ≠ [] ∧ 0 < n := by
        unfold Quote.doubledBrace? at hbrace
        split at hbrace <;> simp_all <;> omega
      exact h.token hcovers.1 hcovers.2 rfl rfl
    · split at hs
      · next n hpiece =>
        cases hs
        exact h.token (Quote.ne_nil_of_piece hpiece) n.succ_pos rfl rfl
      · cases hs

lemma lined_closeString (h : r.Lined base) (hs : r.closeString = some s) : s.Lined base := by
  rw [closeString] at hs
  split at hs
  · cases hs
  · split at hs
    · next n hpiece =>
      cases hs
      exact h.token (Quote.ne_nil_of_piece hpiece) (Quote.lt_of_piece_close hpiece) rfl rfl
    · cases hs

lemma lined_newline (h : r.Lined base) (hs : r.newline = some s) : s.Lined base := by
  rw [newline] at hs
  split at hs
  · next t hnext =>
    cases hs
    exact (lined_of_next h hnext).goOn rfl (Nat.le_refl _)
  · cases hs

lemma lined_indent (h : r.Lined base) (hs : r.indent = some s) : s.Lined base := by
  rw [indent] at hs
  split at hs
  · next t hnext =>
    cases hs
    exact (lined_of_next h hnext).goOn rfl (Nat.le_refl _)
  · cases hs

lemma lined_dedent (h : r.Lined base) (hs : r.dedent = some s) : s.Lined base := by
  rw [dedent] at hs
  split at hs
  · next t hnext =>
    cases hs
    exact (lined_of_next h hnext).goOn rfl (Nat.le_refl _)
  · cases hs

lemma lined_finish (h : r.Lined base) (hs : r.finish = some s) : s.Lined base := by
  rw [finish] at hs
  split at hs
  · next t hnext =>
    split at hs
    · cases hs
      exact lined_of_next h hnext
    · cases hs
  · cases hs

lemma lined_begin (h : r.Lined base) : r.begin.Lined base := by
  refine h.goOn (nodes_begin r) ?_
  rw [begin]
  split
  · split <;> exact Nat.le_refl _
  · exact Nat.le_refl _

/-- A frame without nodes. -/
lemma lined_start (h : r.nodes = []) : r.Lined r.offset := by
  refine ⟨?_, ?_, ?_, Nat.le_refl _⟩ <;> simp [h]

/-- A node that covers nothing stands where the text goes on. -/
lemma lined_blank (h : r.Lined base) : (r.blank .block).Lined base := by
  refine h.push (Node.spacedAll_of_children_nil rfl (Nat.le_refl _) fun hkind => ?_) rfl
    (Nat.le_refl _) (Nat.le_refl _)
  cases hkind

lemma lined_map_withRole (h : r.Lined base) (role : Role) :
    Lined base { r with nodes := r.nodes.map (Node.withRole role) } := by
  refine ⟨?_, ?_, ?_, h.base_le⟩
  · rw [List.pairwise_map]
    exact h.ordered.imp fun hcd => by rwa [Node.span_withRole, Node.span_withRole]
  · rw [List.forall_mem_map]
    intro n hn
    rw [Node.span_withRole]
    exact h.within n hn
  · rw [List.forall_mem_map]
    exact fun n hn => (h.spaced n hn).withRole role

/-- The nodes of a frame come behind those that were there before. -/
lemma Lined.framed {old : List Node} (h : Lined base { r with nodes := old })
    (hs : s.Lined r.offset) : Lined base { s with nodes := s.nodes ++ old } := by
  refine ⟨?_, ?_, ?_, Nat.le_trans h.base_le hs.base_le⟩
  · rw [List.pairwise_append]
    refine ⟨hs.ordered, h.ordered, fun n hn m hm => ?_⟩
    exact Nat.le_trans (h.within m hm).2 (hs.within n hn).1
  · rw [List.forall_mem_append]
    refine ⟨fun n hn => ?_, fun m hm => ?_⟩
    · exact ⟨Nat.le_trans h.base_le (hs.within n hn).1, (hs.within n hn).2⟩
    · exact ⟨(h.within m hm).1, Nat.le_trans (h.within m hm).2 hs.base_le⟩
  · rw [List.forall_mem_append]
    exact ⟨hs.spaced, h.spaced⟩

/-- A node that is made of a frame ends where the last node of the frame does. -/
lemma stop_of_wrap {k : Kind} (hs : r.wrap k = some s) :
    s.nodes.head?.map (·.span.stop) = r.nodes.head?.map (·.span.stop) := by
  rw [wrap, List.span_eq_takeWhile_dropWhile] at hs
  split at hs
  · cases hs
  · next first others hspan =>
    cases hs
    cases hnodes : r.nodes with
    | nil =>
      rw [hnodes] at hspan
      cases hspan
    | cons last ns => rfl

/-- The last node of a frame ends behind all others. -/
lemma Lined.stop_le {n : Node} {stop : Nat} (h : r.Lined base)
    (hstop : r.nodes.head?.map (·.span.stop) = some stop) (hn : n ∈ r.nodes) :
    n.span.stop ≤ stop ∧ stop ≤ r.offset := by
  obtain ⟨last, hlast, rfl⟩ := Option.map_eq_some_iff.1 hstop
  obtain ⟨ns, hnodes⟩ := List.head?_eq_some_iff.1 hlast
  have hmem : last ∈ r.nodes := List.mem_of_head? hlast
  have hforward := (h.spaced last hmem).self.forward
  have hordered := h.ordered
  rw [hnodes, List.pairwise_cons] at hordered
  rw [hnodes, List.mem_cons] at hn
  refine ⟨?_, (h.within last hmem).2⟩
  rcases hn with rfl | hn
  · exact Nat.le_refl _
  · exact Nat.le_trans (hordered.1 n hn) hforward

lemma lined_wrap {k : Kind} (h : r.Lined base) (hs : r.wrap k = some s) : s.Lined base := by
  have hstop := stop_of_wrap hs
  obtain ⟨asides, first, others, stop, hframe, -, -, rfl⟩ := exists_of_wrap hs
  have hmem : ∀ n ∈ asides ++ first :: others, n ∈ r.nodes := by
    intro n hn
    rwa [← hframe, List.mem_reverse] at hn
  -- the nodes of the frame in the order of the source
  have hordered : (asides ++ first :: others).Pairwise fun c d => c.span.stop ≤ d.span.start := by
    rw [← hframe, List.pairwise_reverse]
    exact h.ordered
  obtain ⟨hasides, hchildren, hapart⟩ := List.pairwise_append.1 hordered
  have hchild : ∀ c ∈ first :: others, c ∈ r.nodes := fun c hc =>
    hmem c (List.mem_append_right asides hc)
  have haside : ∀ n ∈ asides.reverse, n ∈ r.nodes := fun n hn =>
    hmem n (List.mem_append_left _ (List.mem_reverse.1 hn))
  have hfirst : ∀ c ∈ first :: others, first.span.start ≤ c.span.start := by
    have hforward := (h.spaced first (hchild first List.mem_cons_self)).self.forward
    refine List.forall_mem_cons.2 ⟨Nat.le_refl _, fun c hc => ?_⟩
    exact Nat.le_trans hforward ((List.pairwise_cons.1 hchildren).1 c hc)
  have hlast : ∀ c ∈ first :: others, c.span.stop ≤ stop ∧ stop ≤ r.offset := fun c hc =>
    h.stop_le hstop.symm (hchild c hc)
  have hforward : first.span.start ≤ stop :=
    Nat.le_trans (h.spaced first (hchild first List.mem_cons_self)).self.forward
      (hlast first List.mem_cons_self).1
  refine ⟨?_, ?_, ?_, h.base_le⟩
  · refine List.pairwise_cons.2 ⟨fun n hn => ?_, List.pairwise_reverse.2 hasides⟩
    exact hapart n (List.mem_reverse.1 hn) first List.mem_cons_self
  · refine List.forall_mem_cons.2 ⟨⟨?_, ?_⟩, fun n hn => h.within n (haside n hn)⟩
    · exact (h.within first (hchild first List.mem_cons_self)).1
    · exact (hlast first List.mem_cons_self).2
  · refine List.forall_mem_cons.2 ⟨?_, fun n hn => h.spaced n (haside n hn)⟩
    refine Node.spacedAll_of_children ⟨hchildren, fun c hc => ?_, hforward, nofun⟩ fun c hc => ?_
    · exact ⟨hfirst c hc, (hlast c hc).1⟩
    · exact h.spaced c (hchild c hc)

end Reader

/-! ## Reading by a grammar -/

namespace Pattern

open Reader

variable {ρ : Type} {grammar : ρ → Pattern ρ} {n : Nat}

/-- A node that covers nothing is a block. -/
def blanksAreBlocks : Pattern ρ → Bool
  | blank k => k == .block
  | seq p q | alt p q => p.blanksAreBlocks && q.blanksAreBlocks
  | many p | framed p | part _ p | ending _ p => p.blanksAreBlocks
  | _ => true

/-- **Whatever is read, the nodes of the frame stand one behind the other**, if this is so for the
rules. -/
theorem ensures_lined
    (hrules : ∀ name base, Ensures grammar n (Lined base) (rule name) (Lined base))
    {p : Pattern ρ} (hp : p.blanksAreBlocks = true) (base : Nat) :
    Ensures grammar n (Lined base) p (Lined base) := by
  induction p generalizing base with
  | skip | settled | expect =>
    exact ensures_update (fun _ _ _ => rfl) fun _ _ h => h.goOn rfl (Nat.le_refl _)
  | textStops | textEnd | lastIs | starEnclosed => exact ensures_test fun _ _ _ => rfl
  | ahead fits p => exact ensures_ahead fits
  | blanks => exact ensures_update (fun _ _ _ => rfl) fun _ _ h => lined_blanks h
  | begin => exact ensures_update (fun _ _ _ => rfl) fun _ _ h => lined_begin h
  | aside => exact ensures_step (fun _ _ _ => rfl) fun _ _ h hs => lined_aside h hs
  | newline => exact ensures_step (fun _ _ _ => rfl) fun _ _ h hs => lined_newline h hs
  | indent => exact ensures_step (fun _ _ _ => rfl) fun _ _ h hs => lined_indent h hs
  | dedent => exact ensures_step (fun _ _ _ => rfl) fun _ _ h hs => lined_dedent h hs
  | finish => exact ensures_step (fun _ _ _ => rfl) fun _ _ h hs => lined_finish h hs
  | token k l => exact ensures_step (fun _ _ _ => rfl) fun _ _ h hs => lined_token h hs
  | fragment k l => exact ensures_step (fun _ _ _ => rfl) fun _ _ h hs => lined_fragment h hs
  | openString => exact ensures_step (fun _ _ _ => rfl) fun _ _ h hs => lined_openString h hs
  | stringText => exact ensures_step (fun _ _ _ => rfl) fun _ _ h hs => lined_stringText h hs
  | closeString => exact ensures_step (fun _ _ _ => rfl) fun _ _ h hs => lined_closeString h hs
  | blank k =>
    obtain rfl : k = .block := beq_iff_eq.1 hp
    exact ensures_update (fun _ _ _ => rfl) fun _ _ h => lined_blank h
  | wrap k => exact ensures_step (fun _ _ _ => rfl) fun _ _ h hs => lined_wrap h hs
  | label role => exact ensures_update (fun _ _ _ => rfl) fun _ _ h => lined_map_withRole h role
  | seq p q ihp ihq =>
    obtain ⟨hp, hq⟩ := Bool.and_eq_true_iff.1 hp
    exact (ihp hp base).seq (ihq hq base)
  | alt p q ihp ihq =>
    obtain ⟨hp, hq⟩ := Bool.and_eq_true_iff.1 hp
    exact (ihp hp base).alt (ihq hq base) fun _ _ h => h.goOn rfl (Nat.le_refl _)
  | many p ih => exact (ih hp base).many fun _ _ h => h.goOn rfl (Nat.le_refl _)
  | framed p ih =>
    refine ensures_inner id (fun _ _ _ => rfl) fun old fuel hfuel e r s hr hread => ?_
    obtain ⟨hnil, hr⟩ := hr
    exact hr.framed (ih hp r.offset fuel hfuel e r s (lined_start hnil) hread)
  | part role p ih =>
    refine ensures_inner (List.map (Node.withRole role)) (fun _ _ _ => rfl)
      fun old fuel hfuel e r s hr hread => ?_
    obtain ⟨hnil, hr⟩ := hr
    have hs := ih hp r.offset fuel hfuel e r s (lined_start hnil) hread
    exact hr.framed (lined_map_withRole hs role)
  | ending e p ih => exact (ih hp base).ending e
  | rule name => exact hrules name base

end Pattern

/-! ## The grammar -/

lemma Grammar.blanksAreBlocks_rules (r : Production) : (rules r).blanksAreBlocks = true := by
  cases r <;> decide +kernel

/-- Reading does not lead past the end of the text. -/
lemma offset_le_of_read {text : List Char} {fuel : Nat} {r : Reader}
    (hread : Pattern.read Grammar.rules fuel .construct Grammar.file { rest := text } = .ok r) :
    r.offset ≤ byteLength text := by
  obtain ⟨g, hopening⟩ : ∃ g, Grammar.file.opening? Grammar.opening true .empty = some g :=
    Option.isSome_iff_exists.1 (by decide +kernel)
  have hstart : Opening.empty.Met text [] { rest := text } := Opening.met_empty ⟨[], rfl, rfl⟩
  obtain ⟨⟨before, htext, hoffset⟩, -⟩ := Pattern.ensures_opening
    (Pattern.ensures_rule_opening Grammar.rules_opening fuel) hopening (fun _ => rfl) fuel
    (Nat.le_refl _) _ _ _ hstart hread
  rw [htext, byteLength_append, hoffset]
  exact Nat.le_add_right _ _

/-- **The tree of a text is spaced**: every node holds its children, one behind the other. -/
theorem spacedAll_ofText {text : List Char} {t : Node} (h : Node.ofText text = .ok t) :
    t.SpacedAll := by
  rw [Node.ofText] at h
  split at h
  · cases h
  split at h
  · next r hread =>
    cases h
    have hrules := @Pattern.ensures_rules _ Grammar.rules Nat (fun _ => Reader.Lined)
      (fun _ => Reader.Lined) fun n ih name base =>
        Pattern.ensures_lined ih (Grammar.blanksAreBlocks_rules name) base
    have hstart : Reader.Lined 0 { rest := text } := @Reader.lined_start { rest := text } rfl
    have hlined : r.Lined 0 := Pattern.ensures_lined (hrules (depthBound text))
      (by decide +kernel) 0 _ (Nat.le_refl _) _ _ _ hstart hread
    have hoffset := offset_le_of_read hread
    have hchild : ∀ c ∈ r.nodes.reverse, c ∈ r.nodes := fun c hc => List.mem_reverse.1 hc
    refine Node.spacedAll_of_children ⟨?_, fun c hc => ?_, Nat.zero_le _, fun _ hkind => ?_⟩
      fun c hc => ?_
    · exact List.pairwise_reverse.2 hlined.ordered
    · exact ⟨Nat.zero_le _, Nat.le_trans (hlined.within c (hchild c hc)).2 hoffset⟩
    · cases hkind
    · exact hlined.spaced c (hchild c hc)
  · cases h

end PermissionLint.Syntax
