/-
What the nodes of a tree begin with, worked out from the patterns.

`Opening` says what the first node of a frame can be, and `Pattern.opening?` follows a pattern and
says what the first node of its frame can be in the end, given what the rules begin with.  It is
true of whatever is read (`ensures_opening`, an induction on patterns).  For the grammar at hand it
can be computed, so in the tree of a text all nodes begin as they should (`opens_ofText`).
-/
import PermissionLint.Proofs.Syntax.Places
import PermissionLint.Proofs.Syntax.Reading

namespace PermissionLint.Syntax

open PermissionLint.Source

/-! ## The first node of a frame -/

/-- What the first node of a frame can be, asides left out. -/
structure Opening where
  /-- There may be no node at all. -/
  mayBeEmpty : Bool
  /-- What is known of the node, if there is one. -/
  traits : List Trait

namespace Opening

/-- The first one of nodes that are kept newest first, asides left out. -/
def first? (ns : List Node) : Option Node := (ns.filter (!·.extra)).getLast?

/-- The nodes are as the opening says. -/
structure Holds (text : List Char) (f : Opening) (ns : List Node) : Prop where
  opens : ∀ n ∈ ns, n.OpensAll text
  traits : ∀ n ∈ first? ns, ∀ t ∈ f.traits, t.Holds text n
  nonempty : first? ns = none → f.mayBeEmpty = true

/-- No node at all. -/
def empty : Opening := ⟨true, [.solid, .named, .target, .parenthesis]⟩

/-- A single node of the given kind, which may be an opening parenthesis. -/
def single (k : Kind) (isParenthesis : Bool) : Opening :=
  ⟨false, (if k.isHollow then [] else [.solid]) ++ ((if k.isNamed then [.named] else [])
    ++ if isParenthesis then [.parenthesis] else [])⟩

/-- What can be first in one of the frames. -/
def join (f g : Opening) : Opening :=
  ⟨f.mayBeEmpty || g.mayBeEmpty, f.traits.filter (· ∈ g.traits)⟩

/-- What can be first if the nodes of the second frame come behind those of the first one. -/
def add (f g : Opening) : Opening :=
  if f.mayBeEmpty then ⟨g.mayBeEmpty, f.traits.filter (· ∈ g.traits)⟩ else f

/-- What can be first if all nodes get a role. -/
def label (role : Role) (f : Opening) : Opening :=
  ⟨f.mayBeEmpty, f.traits.filter (· ≠ .target) ++ if role = .left then [.target] else []⟩

/-- The frame made one node, if it begins as it should. -/
def wrap? (k : Kind) (f : Opening) : Option Opening :=
  if k.opening.all (· ∈ f.traits) then some (single k false) else none

/-- The second opening says less than the first one. -/
def Le (f g : Opening) : Prop :=
  (f.mayBeEmpty = true → g.mayBeEmpty = true) ∧ ∀ t ∈ g.traits, t ∈ f.traits

instance : DecidableRel Le := fun f g =>
  inferInstanceAs (Decidable ((f.mayBeEmpty = true → g.mayBeEmpty = true) ∧
    ∀ t ∈ g.traits, t ∈ f.traits))

end Opening

/-- What the first node of the frame can be after reading by a pattern.  Only in a frame of its own
(`own`) a pattern may use the nodes that are there already. -/
def Pattern.opening? {ρ : Type} (added : ρ → Opening) (own : Bool) (f : Opening) :
    Pattern ρ → Option Opening
  | skip | textStops | blanks | aside | newline | indent | dedent | finish | textEnd | begin
  | ahead _ _ | lastIs _ _ | starEnclosed _ | settled _ | expect _ => some f
  | token k l | fragment k l => some (f.add (.single k l.isParenthesis))
  | blank k => some (f.add (.single k false))
  | openString => some (f.add (.single .stringStart false))
  | stringText => some (f.add (.single .stringContent false))
  | closeString => some (f.add (.single .stringEnd false))
  | seq p q => (opening? added own f p).bind fun g => opening? added own g q
  | alt p q => (opening? added own f p).bind fun g => (opening? added own f q).map g.join
  | many p =>
    (opening? added own f p).bind fun g =>
      let loop := f.join g
      (opening? added own loop p).bind fun h => if h.Le loop then some loop else none
  | framed p => (opening? added true .empty p).map f.add
  | part role p => (opening? added true .empty p).map fun g => f.add (g.label role)
  | wrap k => if own then f.wrap? k else none
  | label role => if own then some (f.label role) else none
  | ending _ p => opening? added own f p
  | rule r => some (f.add (added r))

/-! ## The operations on openings -/

namespace Opening

variable {text : List Char} {f g : Opening} {ns ms : List Node} {n : Node}

lemma first?_append (ms ns : List Node) : first? (ms ++ ns) = (first? ns).or (first? ms) := by
  rw [first?, List.filter_append, List.getLast?_append]
  rfl

lemma first?_of_extra (h : ∀ n ∈ ns, n.extra = true) : first? ns = none := by
  have hfilter : ns.filter (!·.extra) = [] := by
    refine List.filter_eq_nil_iff.2 fun n hn => ?_
    simp [h n hn]
  rw [first?, hfilter]
  rfl

lemma first?_cons_of_extra (h : ∀ n ∈ ns, n.extra = true) (hn : n.extra = false) :
    first? (n :: ns) = some n := by
  rw [← List.singleton_append, first?_append, first?_of_extra h]
  simp [first?, hn]

lemma extra_of_mem_first? (h : n ∈ first? ns) : n.extra = false := by
  simpa using (List.mem_filter.1 (List.mem_of_getLast? h)).2

lemma first?_map_withRole (role : Role) (ns : List Node) :
    first? (ns.map (Node.withRole role)) = (first? ns).map (Node.withRole role) := by
  have hfilter : (ns.map (Node.withRole role)).filter (!·.extra)
      = (ns.filter (!·.extra)).map (Node.withRole role) := by
    rw [List.filter_map]
    refine congrArg _ (List.filter_congr fun n _ => ?_)
    rw [Function.comp_apply, Node.extra_withRole]
  rw [first?, hfilter, List.getLast?_map]
  rfl

lemma Holds.mono (hf : f.Holds text ns) (hle : f.Le g) : g.Holds text ns :=
  ⟨hf.opens, fun n hn t ht => hf.traits n hn t (hle.2 t ht), fun h => hle.1 (hf.nonempty h)⟩

lemma le_join_left (f g : Opening) : f.Le (f.join g) :=
  ⟨fun h => by simp [join, h], fun _ ht => (List.mem_filter.1 ht).1⟩

lemma le_join_right (f g : Opening) : g.Le (f.join g) :=
  ⟨fun h => by simp [join, h], fun _ ht => by simpa using (List.mem_filter.1 ht).2⟩

lemma holds_empty (h : ∀ n ∈ ns, n.extra = true) (hopens : ∀ n ∈ ns, n.OpensAll text) :
    empty.Holds text ns := by
  refine ⟨hopens, fun n hn => ?_, fun _ => rfl⟩
  rw [first?_of_extra h] at hn
  cases hn

lemma Holds.add (hf : f.Holds text ns) (hg : g.Holds text ms) :
    (f.add g).Holds text (ms ++ ns) := by
  have hopens : ∀ n ∈ ms ++ ns, n.OpensAll text :=
    List.forall_mem_append.2 ⟨hg.opens, hf.opens⟩
  rw [Opening.add]
  cases hempty : f.mayBeEmpty with
  | false =>
    -- there is a first node already
    obtain ⟨m, hm⟩ : ∃ m, first? ns = some m := by
      cases hfirst : first? ns with
      | none => simp [hf.nonempty hfirst] at hempty
      | some m => exact ⟨m, rfl⟩
    rw [if_neg (by simp)]
    refine ⟨hopens, fun n hn => ?_, fun hnone => ?_⟩
    · rw [first?_append, hm] at hn
      cases hn
      exact hf.traits m hm
    · rw [first?_append, hm] at hnone
      cases hnone
  | true =>
    rw [if_pos rfl]
    refine ⟨hopens, fun n hn t ht => ?_, fun hnone => ?_⟩
    · obtain ⟨htf, htg⟩ := List.mem_filter.1 ht
      rw [first?_append, Option.mem_def, Option.or_eq_some_iff] at hn
      rcases hn with hn | ⟨-, hn⟩
      · exact hf.traits n hn t htf
      · exact hg.traits n hn t (by simpa using htg)
    · rw [first?_append, Option.or_eq_none_iff] at hnone
      exact hg.nonempty hnone.2

lemma Holds.asides_append (hf : f.Holds text ns) (h : ∀ n ∈ ms, n.extra = true)
    (hopens : ∀ n ∈ ms, n.OpensAll text) : f.Holds text (ms ++ ns) := by
  have hfirst : first? (ms ++ ns) = first? ns := by
    rw [first?_append, first?_of_extra h, Option.or_none]
  refine ⟨List.forall_mem_append.2 ⟨hopens, hf.opens⟩, ?_, ?_⟩
  · rw [hfirst]
    exact hf.traits
  · rw [hfirst]
    exact hf.nonempty

lemma Holds.label (hf : f.Holds text ns) (role : Role) :
    (f.label role).Holds text (ns.map (Node.withRole role)) := by
  refine ⟨fun m hm => ?_, fun m hm t ht => ?_, fun hnone => ?_⟩
  · obtain ⟨n, hn, rfl⟩ := List.mem_map.1 hm
    exact (hf.opens n hn).withRole role
  · rw [first?_map_withRole] at hm
    obtain ⟨n, hn, rfl⟩ := Option.map_eq_some_iff.1 hm
    rw [Node.withRole, if_neg (by simp [extra_of_mem_first? hn])]
    rcases List.mem_append.1 ht with ht | ht
    · obtain ⟨htf, htarget⟩ := List.mem_filter.1 ht
      have hholds := hf.traits n hn t htf
      cases t with
      | solid | named | parenthesis => exact hholds
      | target => simp at htarget
    · split at ht
      · next hrole =>
        obtain rfl := List.mem_singleton.1 ht
        exact congrArg some hrole
      · cases ht
  · rw [first?_map_withRole, Option.map_eq_none_iff] at hnone
    exact hf.nonempty hnone

/-- A single node, above asides. -/
lemma holds_single {k : Kind} {isParenthesis : Bool} (hn : n.kind = k) (hextra : n.extra = false)
    (hopens : n.OpensAll text) (h : isParenthesis = true → StandsAt text ['('] n.span.start)
    (hns : ∀ m ∈ ns, m.extra = true ∧ m.OpensAll text) :
    (single k isParenthesis).Holds text (n :: ns) := by
  have hfirst : first? (n :: ns) = some n := first?_cons_of_extra (fun m hm => (hns m hm).1) hextra
  refine ⟨List.forall_mem_cons.2 ⟨hopens, fun m hm => (hns m hm).2⟩, fun m hm t ht => ?_,
    fun hnone => ?_⟩
  · rw [hfirst] at hm
    cases hm
    rcases List.mem_append.1 ht with ht | ht
    · split at ht
      · cases ht
      · next hsolid =>
        obtain rfl := List.mem_singleton.1 ht
        rw [← hn] at hsolid
        exact Bool.eq_false_iff.2 hsolid
    rcases List.mem_append.1 ht with ht | ht
    · split at ht
      · next hnamed =>
        obtain rfl := List.mem_singleton.1 ht
        rw [← hn] at hnamed
        exact hnamed
      · cases ht
    · split at ht
      · next hparenthesis =>
        obtain rfl := List.mem_singleton.1 ht
        exact h hparenthesis
      · cases ht
  · rw [hfirst] at hnone
    cases hnone

end Opening

/-! ## Reading by a grammar -/

namespace Opening

variable {text : List Char} {f g : Opening} {old : List Node} {k : Kind} {r s : Reader}

/-- The state is one of reading the text, and above the old nodes it has nodes as the opening
says. -/
def Met (text : List Char) (old : List Node) (f : Opening) (r : Reader) : Prop :=
  r.IsAt text ∧ ∃ new, r.nodes = new ++ old ∧ f.Holds text new

lemma met_empty (h : r.IsAt text) : empty.Met text r.nodes r :=
  ⟨h, [], rfl, holds_empty (by simp) (by simp)⟩

lemma Met.mono (h : f.Met text old r) (hle : f.Le g) : g.Met text old r := by
  obtain ⟨hat, new, hnodes, hnew⟩ := h
  exact ⟨hat, new, hnodes, hnew.mono hle⟩

lemma Met.approaches (h : f.Met text old r) (hs : r.Approaches text s) : f.Met text old s := by
  obtain ⟨-, new, hnodes, hnew⟩ := h
  obtain ⟨hat, asides, hs, hasides⟩ := hs
  refine ⟨hat, asides ++ new, by rw [hs, hnodes, List.append_assoc], ?_⟩
  exact hnew.asides_append (fun n hn => (hasides n hn).1) fun n hn => (hasides n hn).2

lemma Met.leads {isParenthesis : Bool} (h : f.Met text old r)
    (hs : Reader.Leads text k isParenthesis r s) :
    (f.add (single k isParenthesis)).Met text old s := by
  obtain ⟨hat, t, span, ht, hnodes, hstands, hparenthesis⟩ := hs
  obtain ⟨-, new, ht, hnew⟩ := h.approaches ht
  have hleaf : (single k isParenthesis).Holds text [Node.leaf k span] :=
    holds_single rfl rfl (Node.opensAll_of_children_nil rfl hstands) hparenthesis (by simp)
  exact ⟨hat, Node.leaf k span :: new, by rw [hnodes, ht, List.cons_append], hnew.add hleaf⟩

lemma Met.blank (h : f.Met text old r) (k : Kind) :
    (f.add (single k false)).Met text old (r.blank k) := by
  obtain ⟨hat, new, hnodes, hnew⟩ := h
  have hstands : StandsAt text [] r.offset := hat.standsAt List.nil_prefix
  have hleaf : (single k false).Holds text [Node.leaf k ⟨r.offset, r.offset⟩] :=
    holds_single rfl rfl (Node.opensAll_of_children_nil rfl hstands) nofun (by simp)
  exact ⟨hat, _ :: new, congrArg (List.cons _) hnodes, hnew.add hleaf⟩

/-- What is on top of the frame is put on top of the old nodes again. -/
lemma Met.framed {ns : List Node} (h : f.Met text old { r with nodes := ns })
    (hs : g.Met text [] s) : (f.add g).Met text old { s with nodes := s.nodes ++ ns } := by
  obtain ⟨-, new, rfl, hnew⟩ := h
  obtain ⟨hat, new', hs, hnew'⟩ := hs
  rw [List.append_nil] at hs
  exact ⟨hat, new' ++ new, by rw [hs, List.append_assoc], hnew.add hnew'⟩

lemma Met.label (h : f.Met text [] r) (role : Role) :
    (f.label role).Met text [] (r.label role) := by
  obtain ⟨hat, new, hnodes, hnew⟩ := h
  rw [List.append_nil] at hnodes
  refine ⟨hat, new.map (Node.withRole role), ?_, hnew.label role⟩
  rw [List.append_nil, ← hnodes]
  rfl

lemma Met.wrap (h : f.Met text [] r) (hwrap : f.wrap? k = some g) (hs : r.wrap k = some s) :
    g.Met text [] s := by
  obtain ⟨hat, new, hnodes, hnew⟩ := h
  rw [List.append_nil] at hnodes
  obtain ⟨asides, first, others, stop, hframe, hasides, hextra, rfl⟩ := Reader.exists_of_wrap hs
  rw [hnodes] at hframe
  -- the frame is kept newest first, so its first node is the last one of the list
  have hnodes' : new = (first :: others).reverse ++ asides.reverse := by
    rw [← List.reverse_append, ← hframe, List.reverse_reverse]
  have hfirst : first? new = some first := by
    have hothers : first? (first :: others).reverse = some first := by
      rw [List.reverse_cons, first?_append]
      simp [first?, hextra]
    rw [hnodes', first?_append, hothers,
      first?_of_extra fun n hn => hasides n (List.mem_reverse.1 hn)]
    rfl
  rw [wrap?] at hwrap
  split at hwrap
  · next htraits =>
    cases hwrap
    refine ⟨hat, _, (List.append_nil _).symm, holds_single rfl rfl ?_ nofun fun n hn => ?_⟩
    · refine Node.opensAll_mk (fun c hc => hnew.opens c ?_) hextra fun t ht => ?_
      · rw [hnodes']
        exact List.mem_append_left _ (List.mem_reverse.2 hc)
      · have hmem : t ∈ f.traits := by simpa using List.all_eq_true.1 htraits t ht
        exact hnew.traits first hfirst t hmem
    · refine ⟨hasides n (List.mem_reverse.1 hn), hnew.opens n ?_⟩
      rw [hnodes']
      exact List.mem_append_right _ hn
  · cases hwrap

end Opening

namespace Pattern

open PermissionLint.Syntax.Opening

variable {ρ : Type} {grammar : ρ → Pattern ρ} {added : ρ → Opening} {own : Bool} {f g : Opening}
  {text : List Char} {old : List Node} {n : Nat} {p : Pattern ρ}

/-- **Whatever is read, the frame begins as the pattern says**, if this is so for the rules. -/
theorem ensures_opening
    (hrules : ∀ name old, Ensures grammar n (fun r => r.IsAt text ∧ r.nodes = old) (rule name)
      ((added name).Met text old))
    (hopening : p.opening? added own f = some g) (hold : own = true → old = []) :
    Ensures grammar n (f.Met text old) p (g.Met text old) := by
  induction p generalizing own f g old with
  | skip | settled | expect =>
    cases hopening
    exact ensures_update (fun _ _ _ => rfl) fun _ _ h => h
  | textStops | textEnd | lastIs | starEnclosed =>
    cases hopening
    exact ensures_test fun _ _ _ => rfl
  | ahead fits p =>
    cases hopening
    exact ensures_ahead fits
  | blanks =>
    cases hopening
    exact ensures_update (fun _ _ _ => rfl) fun _ _ h => h.approaches (Reader.approaches_blanks h.1)
  | begin =>
    cases hopening
    exact ensures_update (fun _ _ _ => rfl) fun _ _ h => h.approaches (Reader.approaches_begin h.1)
  | aside =>
    cases hopening
    exact ensures_step (fun _ _ _ => rfl) fun _ _ h hs =>
      h.approaches (Reader.approaches_aside h.1 hs)
  | newline =>
    cases hopening
    exact ensures_step (fun _ _ _ => rfl) fun _ _ h hs =>
      h.approaches (Reader.approaches_newline h.1 hs)
  | indent =>
    cases hopening
    exact ensures_step (fun _ _ _ => rfl) fun _ _ h hs =>
      h.approaches (Reader.approaches_indent h.1 hs)
  | dedent =>
    cases hopening
    exact ensures_step (fun _ _ _ => rfl) fun _ _ h hs =>
      h.approaches (Reader.approaches_dedent h.1 hs)
  | finish =>
    cases hopening
    exact ensures_step (fun _ _ _ => rfl) fun _ _ h hs =>
      h.approaches (Reader.approaches_finish h.1 hs)
  | token k l =>
    cases hopening
    exact ensures_step (fun _ _ _ => rfl) fun _ _ h hs => h.leads (Reader.leads_token h.1 hs)
  | fragment k l =>
    cases hopening
    exact ensures_step (fun _ _ _ => rfl) fun _ _ h hs => h.leads (Reader.leads_fragment h.1 hs)
  | openString =>
    cases hopening
    exact ensures_step (fun _ _ _ => rfl) fun _ _ h hs => h.leads (Reader.leads_openString h.1 hs)
  | closeString =>
    cases hopening
    exact ensures_step (fun _ _ _ => rfl) fun _ _ h hs => h.leads (Reader.leads_closeString h.1 hs)
  | stringText =>
    cases hopening
    refine ensures_step (fun _ _ _ => rfl) fun r s h hs => ?_
    obtain ⟨k, hnamed, hsolid, hs⟩ := Reader.leads_stringText h.1 hs
    have hsingle : single k false = single .stringContent false := by
      rw [single, single, hnamed, hsolid]
      rfl
    rw [← hsingle]
    exact h.leads hs
  | blank k =>
    cases hopening
    exact ensures_update (fun _ _ _ => rfl) fun _ _ h => h.blank k
  | seq p q ihp ihq =>
    obtain ⟨g', hp, hq⟩ := Option.bind_eq_some_iff.1 hopening
    exact (ihp hp hold).seq (ihq hq hold)
  | alt p q ihp ihq =>
    obtain ⟨g', hp, hmap⟩ := Option.bind_eq_some_iff.1 hopening
    obtain ⟨h, hq, rfl⟩ := Option.map_eq_some_iff.1 hmap
    refine Ensures.alt ((ihp hp hold).mono fun s hs => ?_) ((ihq hq hold).mono fun s hs => ?_)
      fun _ _ h => h
    · exact hs.mono (le_join_left g' h)
    · exact hs.mono (le_join_right g' h)
  | many p ih =>
    obtain ⟨g', hp, hloop⟩ := Option.bind_eq_some_iff.1 hopening
    obtain ⟨h, hp', hle⟩ := Option.bind_eq_some_iff.1 hloop
    split at hle
    case isFalse => cases hle
    case isTrue hstable =>
      cases hle
      have hround := Ensures.many ((ih hp' hold).mono fun s hs => hs.mono hstable) fun _ _ h => h
      exact fun fuel hfuel e r s hr hread =>
        hround fuel hfuel e r s (hr.mono (le_join_left f g')) hread
  | framed p ih =>
    obtain ⟨g', hp, rfl⟩ := Option.map_eq_some_iff.1 hopening
    refine ensures_inner id (fun _ _ _ => rfl) fun ns fuel hfuel e r s hr hread => ?_
    obtain ⟨hnil, hr⟩ := hr
    have hempty : empty.Met text [] r := hnil ▸ met_empty hr.1
    exact hr.framed (ih hp (fun _ => rfl) fuel hfuel e r s hempty hread)
  | part role p ih =>
    obtain ⟨g', hp, rfl⟩ := Option.map_eq_some_iff.1 hopening
    refine ensures_inner (List.map (Node.withRole role)) (fun _ _ _ => rfl)
      fun ns fuel hfuel e r s hr hread => ?_
    obtain ⟨hnil, hr⟩ := hr
    have hempty : empty.Met text [] r := hnil ▸ met_empty hr.1
    have hs := (ih hp (fun _ => rfl) fuel hfuel e r s hempty hread).label role
    exact hr.framed hs
  | wrap k =>
    cases own with
    | false => cases hopening
    | true =>
      obtain rfl := hold rfl
      exact ensures_step (fun _ _ _ => rfl) fun _ _ h hs => h.wrap hopening hs
  | label role =>
    cases own with
    | false => cases hopening
    | true =>
      obtain rfl := hold rfl
      cases hopening
      exact ensures_update (fun _ _ _ => rfl) fun _ _ h => h.label role
  | ending e p ih =>
    have hopening : p.opening? added own f = some g := hopening
    exact (ih hopening hold).ending e
  | rule name =>
    cases hopening
    intro fuel hfuel e r s hr hread
    obtain ⟨hat, new, hnodes, hnew⟩ := hr
    -- for the rule all nodes that are there count as old, and what it adds comes behind them
    obtain ⟨hat', new', hs, hnew'⟩ := hrules name r.nodes fuel hfuel e r s ⟨hat, rfl⟩ hread
    exact ⟨hat', new' ++ new, by rw [hs, hnodes, List.append_assoc], hnew.add hnew'⟩

/-- The rules begin as they should if the patterns of the rules do. -/
lemma ensures_rule_opening
    (h : ∀ name, ∃ g ∈ (grammar name).opening? added false .empty, g.Le (added name))
    (n : Nat) (name : ρ) (old : List Node) :
    Ensures grammar n (fun r => r.IsAt text ∧ r.nodes = old) (rule name)
      ((added name).Met text old) := by
  refine @ensures_rules _ _ _ (fun _ old r => r.IsAt text ∧ r.nodes = old)
    (fun name old => (added name).Met text old) ?_ n name old
  intro n ih name old fuel hfuel e r s hr hread
  obtain ⟨g, hg, hle⟩ := h name
  obtain ⟨hat, rfl⟩ := hr
  exact (ensures_opening ih hg nofun fuel hfuel e r s (met_empty hat) hread).mono hle

end Pattern

/-! ## The grammar -/

/-- What the rules of the grammar begin with. -/
def Grammar.opening : Production → Opening
  | .simplePattern => ⟨false, [.solid]⟩
  | .enclosedExpression => ⟨false, [.solid, .parenthesis]⟩
  | _ => ⟨false, [.solid, .named]⟩

lemma Grammar.rules_opening (r : Production) :
    ∃ g ∈ (rules r).opening? opening false .empty, g.Le (opening r) := by
  cases r <;> decide +kernel

/-- **In the tree of a text every node begins where a character does, with its first child, which is
as the kind of the node says.** -/
theorem opens_ofText {text : List Char} {t : Node} (h : Node.ofText text = .ok t) :
    ∀ c ∈ t.children, c.OpensAll text := by
  rw [Node.ofText] at h
  split at h
  · cases h
  split at h
  · next r hread =>
    cases h
    obtain ⟨g, hopening⟩ : ∃ g, Grammar.file.opening? Grammar.opening true .empty = some g :=
      Option.isSome_iff_exists.1 (by decide +kernel)
    have hstart : Opening.empty.Met text [] { rest := text } :=
      Opening.met_empty ⟨[], rfl, rfl⟩
    obtain ⟨-, new, hnodes, hnew⟩ := Pattern.ensures_opening
      (Pattern.ensures_rule_opening Grammar.rules_opening _) hopening (fun _ => rfl)
      _ (Nat.le_refl _) _ _ _ hstart hread
    intro c hc
    refine hnew.opens c ?_
    rwa [List.mem_reverse, hnodes, List.append_nil] at hc
  · cases h

end PermissionLint.Syntax
