/-
Every tree that is read is regular.

What the nodes of a frame can be is worked out from the pattern alone: `Frame` bounds what a frame
holds, and `Pattern.frame?` follows a pattern and says what its frame holds in the end, given what
the rules add.  If what it says about the rules of a grammar is consistent, it is true of whatever
is read by that grammar (`on_of_read`, one induction on the depth of the reading).  For the grammar
at hand the rules are consistent by computation, so the tree of a text is regular
(`isRegular_ofText`).
-/
import Mathlib.Data.List.Lattice
import PermissionLint.Syntax.Tree
import PermissionLint.Proofs.Syntax.Steps

namespace PermissionLint.Syntax

/-! ## What a frame holds -/

/-- Nodes with a role, or without one, that may stand at any of some places. -/
structure Entry where
  role : Option Role
  places : List Place
  deriving DecidableEq

/-- A bound on what a frame holds besides asides.  As a number, two stands for any number. -/
structure Frame where
  /-- Every node is one of these. -/
  entries : List Entry
  /-- The number of nodes. -/
  size : Nat
  /-- The number of nodes in a role. -/
  count : Role → Nat

/-- The number is within the bound. -/
def IsWithin (n bound : Nat) : Prop := n ≤ bound ∨ 2 ≤ bound

instance : DecidableRel IsWithin := fun n bound =>
  inferInstanceAs (Decidable (n ≤ bound ∨ 2 ≤ bound))

lemma IsWithin.trans {n a b : Nat} (h : IsWithin n a) (h' : IsWithin a b) : IsWithin n b := by
  simp only [IsWithin] at *
  omega

lemma IsWithin.add {n m a b : Nat} (h : IsWithin n a) (h' : IsWithin m b) :
    IsWithin (m + n) (a + b) := by
  simp only [IsWithin] at *
  omega

namespace Frame

/-- The roles that a node may give only once. -/
def unique : List Role := [.body, .definition]

/-- All places. -/
def places : List Place := [.statement, .definition, .body, .part, .matchPart, .phrase]

/-- The nodes are as the frame says. -/
structure Holds (f : Frame) (ns : List Node) : Prop where
  asides : ∀ n ∈ ns, n.extra = true → n.role = none ∧ n.fits .phrase = true
  entries : ∀ n ∈ ns, n.extra = false →
    ∃ e ∈ f.entries, n.role = e.role ∧ ∀ place ∈ e.places, n.fits place = true
  size : IsWithin (ns.countP (!·.extra)) f.size
  count : ∀ role ∈ unique, IsWithin (ns.countP (·.role == some role)) (f.count role)

/-- Nothing but asides. -/
def empty : Frame := ⟨[], 0, fun _ => 0⟩

/-- A single node without children. -/
def leaf (k : Kind) : Frame := ⟨[⟨none, places.filter (·.admits k)⟩], 1, fun _ => 0⟩

/-- What is in both frames together. -/
def add (f g : Frame) : Frame :=
  ⟨f.entries ∪ g.entries, f.size + g.size, fun role => f.count role + g.count role⟩

/-- What is in one of the frames. -/
def join (f g : Frame) : Frame :=
  ⟨f.entries ∪ g.entries, max f.size g.size, fun role => max (f.count role) (g.count role)⟩

/-- The same nodes, any number of them. -/
def widen (f : Frame) : Frame := { f with size := 2 }

/-- The nodes of the frame in a role. -/
def label (role : Role) (f : Frame) : Frame where
  entries := f.entries.map fun e => { e with role := some role }
  size := f.size
  count := fun r => if r = role then f.size else 0

/-- The frame made one node, if no role is given twice. -/
def wrap? (k : Kind) (f : Frame) : Option Frame :=
  let fit (place : Place) : Bool :=
    place.admits k && f.entries.all fun e => e.places.contains (place.below k e.role)
  if unique.all fun role => f.count role ≤ 1 then
    some ⟨[⟨none, places.filter fit⟩], 1, fun _ => 0⟩
  else none

/-- The second frame bounds more than the first one. -/
def Le (f g : Frame) : Prop :=
  (∀ e ∈ f.entries, ∃ e' ∈ g.entries,
      e.role = e'.role ∧ ∀ place ∈ e'.places, place ∈ e.places) ∧
    IsWithin f.size g.size ∧ ∀ role ∈ unique, IsWithin (f.count role) (g.count role)

instance : DecidableRel Le := fun f g =>
  inferInstanceAs (Decidable ((∀ e ∈ f.entries, ∃ e' ∈ g.entries,
      e.role = e'.role ∧ ∀ place ∈ e'.places, place ∈ e.places) ∧
    IsWithin f.size g.size ∧ ∀ role ∈ unique, IsWithin (f.count role) (g.count role)))

end Frame

namespace Pattern

variable {ρ : Type} (added : ρ → Frame)

/-- What the frame holds if reading by the pattern fails.  No node can be made only of asides. -/
def frameAfterFailure (f : Frame) : Pattern ρ → Frame
  | wrap _ => .empty
  | _ => f

/-- What the frame holds after reading by a pattern.  Only in a frame of its own (`own`) a pattern
may use the nodes that are there already. -/
def frame? (own : Bool) (f : Frame) : Pattern ρ → Option Frame
  | skip | textStops | blanks | aside | newline | indent | dedent | finish | textEnd | begin
  | ahead _ _ | lastIs _ _ | starEnclosed _ | settled _ | expect _ => some f
  | token k _ | fragment k _ | blank k => some (f.add (.leaf k))
  | openString => some (f.add (.leaf .stringStart))
  | stringText => some (f.add ((Frame.leaf .escapeInterpolation).join (.leaf .stringContent)))
  | closeString => some (f.add (.leaf .stringEnd))
  | seq p q => (frame? own f p).bind fun g => frame? own g q
  | alt p q =>
    (frame? own f p).bind fun g => (frame? own (p.frameAfterFailure f) q).map g.join
  | many p =>
    (frame? own f.widen p).bind fun g =>
      let loop := f.widen.join g
      (frame? own loop p).bind fun h => if h.Le loop then some loop else none
  | framed p => (frame? true .empty p).map f.add
  | part role p => (frame? true .empty p).map fun g => f.add (g.label role)
  | wrap k => if own then f.wrap? k else none
  | label role => if own then some (f.label role) else none
  | ending _ p => frame? own f p
  | rule r => some (f.add (added r))

end Pattern

/-! ## The operations on frames -/

namespace Frame

variable {f g : Frame} {ns ms : List Node}

lemma Holds.mono (hf : f.Holds ns) (hle : f.Le g) : g.Holds ns := by
  obtain ⟨hentries, hsize, hcount⟩ := hle
  refine ⟨hf.asides, fun n hn hextra => ?_, hf.size.trans hsize, fun role hrole => ?_⟩
  · obtain ⟨e, he, hrole, hfits⟩ := hf.entries n hn hextra
    obtain ⟨e', he', hsame, hplaces⟩ := hentries e he
    exact ⟨e', he', hrole.trans hsame, fun place hplace => hfits place (hplaces place hplace)⟩
  · exact (hf.count role hrole).trans (hcount role hrole)

lemma le_join_left (f g : Frame) : f.Le (f.join g) :=
  ⟨fun e he => ⟨e, List.mem_union_left he _, rfl, fun _ h => h⟩, .inl (Nat.le_max_left _ _),
    fun _ _ => .inl (Nat.le_max_left _ _)⟩

lemma le_join_right (f g : Frame) : g.Le (f.join g) :=
  ⟨fun e he => ⟨e, List.mem_union_right _ he, rfl, fun _ h => h⟩, .inl (Nat.le_max_right _ _),
    fun _ _ => .inl (Nat.le_max_right _ _)⟩

lemma le_widen (f : Frame) : f.Le f.widen :=
  ⟨fun e he => ⟨e, he, rfl, fun _ h => h⟩, .inr (Nat.le_refl _), fun _ _ => .inl (Nat.le_refl _)⟩

lemma Holds.add (hf : f.Holds ns) (hg : g.Holds ms) : (f.add g).Holds (ms ++ ns) where
  asides n hn hextra := by
    rcases List.mem_append.1 hn with hn | hn
    · exact hg.asides n hn hextra
    · exact hf.asides n hn hextra
  entries n hn hextra := by
    rcases List.mem_append.1 hn with hn | hn
    · obtain ⟨e, he, hfits⟩ := hg.entries n hn hextra
      exact ⟨e, List.mem_union_right _ he, hfits⟩
    · obtain ⟨e, he, hfits⟩ := hf.entries n hn hextra
      exact ⟨e, List.mem_union_left he _, hfits⟩
  size := by
    rw [List.countP_append]
    exact hf.size.add hg.size
  count role hrole := by
    rw [List.countP_append]
    exact (hf.count role hrole).add (hg.count role hrole)

lemma holds_empty (h : ∀ n ∈ ns, n.IsAside) : empty.Holds ns where
  asides n hn _ := (h n hn).2
  entries n hn hextra := by simp [(h n hn).1] at hextra
  size := by
    refine .inl (Nat.le_of_eq (List.countP_eq_zero.2 fun n hn => ?_))
    simp [(h n hn).1]
  count role _ := by
    refine .inl (Nat.le_of_eq (List.countP_eq_zero.2 fun n hn => ?_))
    simp [(h n hn).2.1]

lemma Holds.isAside {n : Node} (hf : f.Holds ns) (hn : n ∈ ns) (h : n.extra = true) : n.IsAside :=
  ⟨h, hf.asides n hn h⟩

/-- Asides have no role to begin with, and none is given to them. -/
lemma Holds.label (hf : f.Holds ns) (role : Role) :
    (f.label role).Holds (ns.map (Node.withRole role)) := by
  have hextra : ∀ n : Node, (n.withRole role).extra = n.extra := by
    intro n
    rw [Node.withRole]
    split <;> rfl
  refine ⟨?_, ?_, ?_, fun r hr => ?_⟩
  · rintro m hm hm'
    obtain ⟨n, hn, rfl⟩ := List.mem_map.1 hm
    rw [hextra] at hm'
    rw [Node.withRole, if_pos hm']
    exact hf.asides n hn hm'
  · rintro m hm hm'
    obtain ⟨n, hn, rfl⟩ := List.mem_map.1 hm
    rw [hextra] at hm'
    obtain ⟨e, he, -, hfits⟩ := hf.entries n hn hm'
    refine ⟨_, List.mem_map_of_mem he, ?_, fun place hplace => ?_⟩
    · simp [Node.withRole, hm']
    · rw [Node.fits_withRole]
      exact hfits place hplace
  · rw [List.countP_map]
    simpa only [Function.comp_def, hextra, Frame.label] using hf.size
  · -- what is no aside has the new role, and no other one
    have hcount : (ns.map (Node.withRole role)).countP (·.role == some r)
        = if r = role then ns.countP (!·.extra) else 0 := by
      rw [List.countP_map]
      have hrole : ∀ n ∈ ns, ((n.withRole role).role == some r) = (!n.extra && r == role) := by
        intro n hn
        cases hn' : n.extra with
        | true => simp [Node.withRole, hn', hf.asides n hn hn']
        | false => simp [Node.withRole, hn', BEq.comm]
      rw [List.countP_congr fun n hn => by rw [Function.comp_apply, hrole n hn]]
      split <;> simp [*]
    rw [hcount]
    simp only [Frame.label]
    split
    · exact hf.size
    · exact .inl (Nat.le_refl _)

/-- Asides count for nothing. -/
lemma Holds.asides_append (hf : f.Holds ns) (hms : ∀ n ∈ ms, n.IsAside) : f.Holds (ms ++ ns) := by
  refine (hf.add (holds_empty hms)).mono ⟨fun e he => ⟨e, ?_, rfl, fun _ h => h⟩, ?_, ?_⟩
  · simpa [Frame.add, empty] using he
  · exact .inl (Nat.le_refl _)
  · exact fun _ _ => .inl (Nat.le_refl _)

lemma Holds.append_asides (hf : f.Holds ns) (hms : ∀ n ∈ ms, n.IsAside) : f.Holds (ns ++ ms) := by
  refine ((holds_empty hms).add hf).mono ⟨fun e he => ⟨e, ?_, rfl, fun _ h => h⟩, ?_, ?_⟩
  · simpa [Frame.add, empty] using he
  · exact .inl (by simp [Frame.add, empty])
  · exact fun _ _ => .inl (by simp [Frame.add, empty])

/-- A single node without a role. -/
lemma holds_singleton {n : Node} {places : List Place} (hextra : n.extra = false)
    (hrole : n.role = none) (hfits : ∀ place ∈ places, n.fits place = true) :
    Holds ⟨[⟨none, places⟩], 1, fun _ => 0⟩ [n] where
  asides m hm hm' := by
    obtain rfl := List.mem_singleton.1 hm
    simp [hextra] at hm'
  entries m hm _ := by
    obtain rfl := List.mem_singleton.1 hm
    exact ⟨_, List.mem_singleton_self _, hrole, hfits⟩
  size := .inl (by simp [hextra])
  count _ _ := .inl (by simp [hrole])

lemma holds_leaf (k : Kind) (span : Span) : (leaf k).Holds [Node.leaf k span] := by
  refine holds_singleton rfl rfl fun place hplace => ?_
  rw [Node.fits_leaf]
  exact (List.mem_filter.1 hplace).2

/-- Of nodes of the frame, no two have a role that may be given only once. -/
lemma Holds.countP_le_one {role : Role} {children : List Node} (hf : f.Holds ns)
    (hchildren : children.Sublist ns.reverse) (hunique : unique.all (f.count · ≤ 1) = true)
    (hrole : role ∈ unique) : children.countP (·.role == some role) ≤ 1 := by
  have hcount := hf.count role hrole
  have hle : f.count role ≤ 1 := by simpa using List.all_eq_true.1 hunique role hrole
  calc children.countP (·.role == some role)
      ≤ ns.reverse.countP (·.role == some role) := hchildren.countP_le
    _ = ns.countP (·.role == some role) := List.countP_reverse
    _ ≤ 1 := by
        simp only [IsWithin] at hcount
        omega

/-- A node made of nodes of the frame may stand where `wrap?` says. -/
lemma Holds.fits_wrap {k : Kind} {span : Span} {place : Place} {children : List Node}
    (hf : f.Holds ns) (hchildren : children.Sublist ns.reverse)
    (hunique : unique.all (f.count · ≤ 1) = true) (hadmits : place.admits k = true)
    (hbelow : f.entries.all (fun e => e.places.contains (place.below k e.role)) = true) :
    Node.fits place ⟨k, span, none, false, children⟩ = true := by
  have hone : ∀ role ∈ unique, Node.hasOne ⟨k, span, none, false, children⟩ role = true :=
    fun role hrole => decide_eq_true (hf.countP_le_one hchildren hunique hrole)
  refine Node.fits_iff.2
    ⟨hadmits, fun _ => rfl, hone _ (by simp [unique]), hone _ (by simp [unique]),
    fun c hc => ?_⟩
  have hc : c ∈ ns := List.mem_reverse.1 (hchildren.subset hc)
  cases hextra : c.extra with
  | true =>
    obtain ⟨hrole, hfits⟩ := hf.asides c hc hextra
    rw [hrole]
    exact Node.fits_below_none hfits place k
  | false =>
    obtain ⟨e, he, hrole, hfits⟩ := hf.entries c hc hextra
    rw [hrole]
    exact hfits _ (by simpa using List.all_eq_true.1 hbelow e he)

lemma Holds.wrap {k : Kind} {r s : Reader} (hf : f.Holds r.nodes) (hwrap : f.wrap? k = some g)
    (hs : r.wrap k = some s) : g.Holds s.nodes := by
  obtain ⟨asides, children, span, hnodes, hasides, hs⟩ := Reader.wrap_eq_some hs
  rw [wrap?] at hwrap
  split at hwrap
  case isFalse => simp at hwrap
  case isTrue hunique =>
    cases hwrap
    rw [hs, ← List.singleton_append]
    refine (holds_singleton rfl rfl fun place hplace => ?_).append_asides fun n hn => ?_
    · obtain ⟨hadmits, hbelow⟩ := Bool.and_eq_true_iff.1 (List.mem_filter.1 hplace).2
      refine hf.fits_wrap ?_ hunique hadmits hbelow
      rw [hnodes]
      exact List.sublist_append_right asides children
    · have hn := List.mem_reverse.1 hn
      refine hf.isAside (List.mem_reverse.1 ?_) (hasides n hn)
      rw [hnodes]
      exact List.mem_append_left children hn

end Frame

namespace Frame

variable {f g : Frame} {old ns ms : List Node}

/-- Above the old nodes stand nodes as the frame says. -/
def On (old : List Node) (f : Frame) (ns : List Node) : Prop := ∃ new, ns = new ++ old ∧ f.Holds new

lemma On.mono (hf : f.On old ns) (hle : f.Le g) : g.On old ns := by
  obtain ⟨new, rfl, hnew⟩ := hf
  exact ⟨new, rfl, hnew.mono hle⟩

lemma On.add (hf : f.On old ns) (hg : g.Holds ms) : (f.add g).On old (ms ++ ns) := by
  obtain ⟨new, rfl, hnew⟩ := hf
  exact ⟨ms ++ new, by rw [List.append_assoc], hnew.add hg⟩

lemma On.passesAsides {r s : Reader} (hf : f.On old r.nodes) (h : r.PassesAsides s) :
    f.On old s.nodes := by
  obtain ⟨new, hr, hnew⟩ := hf
  obtain ⟨asides, hs, hasides⟩ := h
  exact ⟨asides ++ new, by rw [hs, hr, List.append_assoc],
    hnew.asides_append fun n hn => (hasides n hn).isAside⟩

lemma On.takes {r s : Reader} {k : Kind} (hf : f.On old r.nodes) (h : Reader.Takes k r s) :
    (f.add (leaf k)).On old s.nodes := by
  obtain ⟨t, span, ht, hs⟩ := h
  rw [hs]
  exact (hf.passesAsides ht).add (holds_leaf k span)

lemma on_nil : f.On [] ns ↔ f.Holds ns := by simp [On]

lemma on_empty (old : List Node) : empty.On old old :=
  ⟨[], rfl, holds_empty (by simp)⟩

end Frame

/-! ## Reading by a grammar -/

namespace Pattern

open PermissionLint.Syntax.Frame

variable {ρ : Type} {grammar : ρ → Pattern ρ} {added : ρ → Frame} {own : Bool} {f g : Frame}
  {old : List Node} {e : Ending} {r s : Reader}

lemma Outcome.ofOption_eq_ok {o : Option Reader} (h : Outcome.ofOption r o = .ok s) :
    o = some s := by
  cases o with
  | none => cases h
  | some t => cases h; rfl

/-- What the frame holds where reading by the first alternative has failed. -/
lemma on_frameAfterFailure {fuel n : Nat} {p : Pattern ρ} (hframe : p.frame? added own f = some g)
    (hold : own = true → old = []) (hf : f.On old r.nodes)
    (hread : read grammar (fuel + 1) e p r = .error n) :
    (p.frameAfterFailure f).On old r.nodes := by
  cases p with
  | wrap k =>
    cases own with
    | false => simp [frame?] at hframe
    | true =>
      obtain rfl := hold rfl
      have hnone : r.wrap k = none := by
        simp only [read] at hread
        cases hwrap : r.wrap k with
        | none => rfl
        | some t => simp [hwrap, Outcome.ofOption] at hread
      rw [on_nil] at hf ⊢
      exact holds_empty fun n hn => hf.isAside hn (Reader.extra_of_wrap_eq_none hnone n hn)
  | _ => exact hf

/-- A pattern that keeps the frame keeps it however often it is read. -/
lemma on_many {n : Nat} {p : Pattern ρ}
    (hp : ∀ m < n, ∀ r s, f.On old r.nodes → read grammar m e p r = .ok s → f.On old s.nodes) :
    ∀ m ≤ n, ∀ r s, f.On old r.nodes → read grammar m e (many p) r = .ok s → f.On old s.nodes := by
  intro m
  induction m with
  | zero =>
    intro _ r s _ hread
    simp [read] at hread
  | succ m ih =>
    intro hm r s hf hread
    simp only [read] at hread
    split at hread
    · next t ht => exact ih (by omega) t s (hp m (by omega) r t hf ht) hread
    · cases hread
      exact hf

/-- **Whatever is read by consistent rules, the frame holds what the pattern says.** -/
theorem on_of_read (hrules : ∀ r, ∃ g ∈ (grammar r).frame? added false .empty, g.Le (added r))
    {fuel : Nat} {p : Pattern ρ} (hframe : p.frame? added own f = some g)
    (hold : own = true → old = []) (hf : f.On old r.nodes)
    (hread : read grammar fuel e p r = .ok s) : g.On old s.nodes := by
  induction fuel using Nat.strong_induction_on generalizing p own f g old e r s with
  | _ fuel ih =>
  cases fuel with
  | zero => simp [read] at hread
  | succ fuel =>
  have ih := fun m (hm : m ≤ fuel) => @ih m (Nat.lt_succ_of_le hm)
  cases p with
  | skip | settled | expect =>
    cases hframe
    cases hread
    exact hf
  | textStops | textEnd | lastIs | starEnclosed =>
    cases hframe
    simp only [read] at hread
    split at hread <;> cases hread
    exact hf
  | blanks =>
    cases hframe
    cases hread
    exact hf
  | begin =>
    cases hframe
    cases hread
    rw [Reader.nodes_begin]
    exact hf
  | aside =>
    cases hframe
    exact hf.passesAsides (Reader.passesAsides_aside (Outcome.ofOption_eq_ok hread))
  | newline =>
    cases hframe
    exact hf.passesAsides (Reader.passesAsides_newline (Outcome.ofOption_eq_ok hread))
  | indent =>
    cases hframe
    exact hf.passesAsides (Reader.passesAsides_indent (Outcome.ofOption_eq_ok hread))
  | dedent =>
    cases hframe
    exact hf.passesAsides (Reader.passesAsides_dedent (Outcome.ofOption_eq_ok hread))
  | finish =>
    cases hframe
    exact hf.passesAsides (Reader.passesAsides_finish (Outcome.ofOption_eq_ok hread))
  | token k l =>
    cases hframe
    exact hf.takes (Reader.takes_token (Outcome.ofOption_eq_ok hread))
  | fragment k l =>
    cases hframe
    exact hf.takes (Reader.takes_fragment (Outcome.ofOption_eq_ok hread))
  | openString =>
    cases hframe
    exact hf.takes (Reader.takes_openString (Outcome.ofOption_eq_ok hread))
  | closeString =>
    cases hframe
    exact hf.takes (Reader.takes_closeString (Outcome.ofOption_eq_ok hread))
  | stringText =>
    cases hframe
    rcases Reader.takes_stringText (Outcome.ofOption_eq_ok hread) with h | h
    · obtain ⟨t, span, ht, hs⟩ := h
      rw [hs]
      exact (hf.passesAsides ht).add ((holds_leaf _ span).mono (le_join_left _ _))
    · obtain ⟨t, span, ht, hs⟩ := h
      rw [hs]
      exact (hf.passesAsides ht).add ((holds_leaf _ span).mono (le_join_right _ _))
  | blank k =>
    cases hframe
    cases hread
    exact hf.add (holds_leaf k _)
  | seq p q =>
    obtain ⟨g', hp, hq⟩ := Option.bind_eq_some_iff.1 hframe
    simp only [read] at hread
    split at hread
    · next t ht => exact ih fuel (le_refl _) hq hold (ih fuel (le_refl _) hp hold hf ht) hread
    · cases hread
  | alt p q =>
    obtain ⟨g', hp, hmap⟩ := Option.bind_eq_some_iff.1 hframe
    obtain ⟨h, hq, rfl⟩ := Option.map_eq_some_iff.1 hmap
    simp only [read] at hread
    split at hread
    · next t ht =>
      cases hread
      exact (ih fuel (le_refl _) hp hold hf ht).mono (le_join_left g' h)
    · next n hn =>
      cases fuel with
      | zero => simp [read] at hread
      | succ fuel =>
        have hf' : (p.frameAfterFailure f).On old r.nodes := on_frameAfterFailure hp hold hf hn
        generalize hr : { r with reached := max r.reached n } = r' at hread
        have hf' : (p.frameAfterFailure f).On old r'.nodes := by rw [← hr]; exact hf'
        exact (ih (fuel + 1) (le_refl _) hq hold hf' hread).mono (le_join_right g' h)
  | many p =>
    obtain ⟨g', hp, hloop⟩ := Option.bind_eq_some_iff.1 hframe
    obtain ⟨h, hp', hle⟩ := Option.bind_eq_some_iff.1 hloop
    split at hle
    case isFalse => cases hle
    case isTrue hstable =>
      cases hle
      have hstart := (hf.mono (le_widen f)).mono (le_join_left f.widen g')
      exact on_many (fun m hm r s hr hread =>
        (ih m (by omega) hp' hold hr hread).mono hstable) (fuel + 1) (le_refl _) r s hstart hread
  | ahead fits p =>
    cases hframe
    simp only [read] at hread
    split at hread <;> split at hread <;> cases hread <;> exact hf
  | framed p =>
    obtain ⟨g', hp, rfl⟩ := Option.map_eq_some_iff.1 hframe
    simp only [read] at hread
    split at hread
    · next t ht =>
      cases hread
      exact hf.add (on_nil.1 (ih fuel (le_refl _) hp (fun _ => rfl) (on_empty []) ht))
    · cases hread
  | part role p =>
    obtain ⟨g', hp, rfl⟩ := Option.map_eq_some_iff.1 hframe
    simp only [read] at hread
    split at hread
    · next t ht =>
      cases hread
      have ht := on_nil.1 (ih fuel (le_refl _) hp (fun _ => rfl) (on_empty []) ht)
      exact hf.add (ht.label role)
    · cases hread
  | wrap k =>
    cases own with
    | false => cases hframe
    | true =>
      obtain rfl := hold rfl
      exact on_nil.2 ((on_nil.1 hf).wrap hframe (Outcome.ofOption_eq_ok hread))
  | label role =>
    cases own with
    | false => cases hframe
    | true =>
      obtain rfl := hold rfl
      cases hframe
      cases hread
      exact on_nil.2 ((on_nil.1 hf).label role)
  | ending e' p =>
    have hframe : p.frame? added own f = some g := hframe
    simp only [read] at hread
    exact ih fuel (le_refl _) hframe hold hf hread
  | rule name =>
    cases hframe
    simp only [read] at hread
    obtain ⟨g', hg', hle⟩ := hrules name
    -- the rule only adds to what is there, so all of it counts as old for its pattern
    obtain ⟨new, hs, hnew⟩ := ih fuel (le_refl _) hg' nofun (on_empty r.nodes) hread
    rw [hs]
    exact hf.add (hnew.mono hle)

end Pattern

/-- What the rules of the grammar add: statements, and phrases everywhere else. -/
def Grammar.added : Production → Frame
  | .statement => ⟨[⟨none, [.statement]⟩], 2, fun _ => 0⟩
  | _ => ⟨[⟨none, [.statement, .part, .matchPart, .phrase]⟩], 2, fun _ => 0⟩

set_option maxRecDepth 100000 in
lemma Grammar.rules_le_added (r : Production) :
    ∃ g ∈ (rules r).frame? added false .empty, g.Le (added r) := by
  cases r <;> decide +kernel

/-- **The tree of a text is regular.** -/
theorem isRegular_ofText {text : List Char} {t : Node} (h : Node.ofText text = .ok t) :
    t.IsRegular := by
  rw [Node.ofText] at h
  split at h
  · cases h
  split at h
  · next r hread =>
    cases h
    obtain ⟨g, hframe, hle⟩ : ∃ g ∈ Grammar.file.frame? Grammar.added true .empty,
        g.Le (Grammar.added .statement) := by decide
    have hholds : (Grammar.added .statement).Holds r.nodes :=
      (Frame.on_nil.1 (Pattern.on_of_read Grammar.rules_le_added hframe (fun _ => rfl)
        (Frame.on_empty []) hread)).mono hle
    refine ⟨rfl, fun c hc => ?_⟩
    have hc : c ∈ r.nodes := List.mem_reverse.1 hc
    cases hextra : c.extra with
    | true => exact Node.fits_below_none (hholds.asides c hc hextra).2 .phrase .root
    | false =>
      obtain ⟨e, he, -, hfits⟩ := hholds.entries c hc hextra
      obtain rfl := List.mem_singleton.1 he
      exact hfits .statement (List.mem_singleton_self _)
  · cases h

end PermissionLint.Syntax
