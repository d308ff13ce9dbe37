/-
The findings of the check are at different places.

What is reported are statements directly in the bodies of classes.  Two of them in one class do not
overlap, for they are children of one block.  Of two classes, one may be inside of the other one,
but then it is inside of another child of that block, for a statement that is reported holds no
class.  So no two of these statements begin at the same byte (`reportedNodes_pairwise_classes`), and
as a line and a column lead back to one byte, no two findings have the same position
(`positions_nodup`).
-/
import Mathlib.Data.List.Nodup
import PermissionLint.Proofs.Permission.Spans
import PermissionLint.Proofs.Syntax.Spacing

namespace PermissionLint.Permission

open PermissionLint.Source PermissionLint.Syntax PermissionLint.Model

variable {text : List Char} {c c' s s' t : Node}

/-! ## Classes and their statements -/

variable (text) in
/-- What is known of a class in the tree of a text. -/
structure IsReadClass (c : Node) : Prop where
  kind : c.kind = .classDefinition
  fits : ∃ place, c.fits place = true
  spaced : c.SpacedAll
  opens : c.OpensAll text

lemma isReadClass_of_mem (ht : Node.ofText text = .ok t)
    (hc : c ∈ t.nodes.filter (·.kind = .classDefinition)) : IsReadClass text c := by
  obtain ⟨hmem, hkind⟩ := List.mem_filter.1 hc
  have hkind : c.kind = .classDefinition := by simpa using hkind
  have hregular := isRegular_ofText ht
  rcases Node.mem_nodes_iff.1 hmem with rfl | ⟨child, hchild, hbelow⟩
  · rw [hregular.1] at hkind
    cases hkind
  · exact ⟨hkind, Node.exists_fits_of_mem_nodes (hregular.2 child hchild) hbelow,
      (spacedAll_ofText ht).of_mem hmem, (opens_ofText ht child hchild).of_mem hbelow⟩

variable (text) in
/-- The statements of a class that are reported. -/
def reportedNodes (c : Node) : List Node := (bodyNodes c).filter (OmitsPermission text)

/-- A statement that is reported stands in the block of its class, and nothing in it is of the
outline. -/
lemma exists_block (hc : IsReadClass text c) (hs : s ∈ reportedNodes text c) :
    ∃ b ∈ c.children, b.kind = .block ∧ s ∈ b.children ∧ s.fits .statement = true ∧
      s.kind.isOutline = false := by
  obtain ⟨hs, homits⟩ : s ∈ bodyNodes c ∧ OmitsPermission text s := by
    simpa using List.mem_filter.1 hs
  obtain ⟨place, hfits⟩ := hc.fits
  rw [bodyNodes] at hs
  cases hb : c.child? .body with
  | none => simp [hb] at hs
  | some b =>
    rw [hb] at hs
    have hs : s ∈ b.children := List.mem_of_mem_filter hs
    have hmem : b ∈ c.children := List.mem_of_find?_eq_some hb
    have hrole : b.role = some .body := by simpa using List.find?_some hb
    have hbody := (Node.fits_iff.1 hfits).children b hmem
    rw [hc.kind, hrole, Place.below, if_pos rfl] at hbody
    refine ⟨b, hmem, by simpa [Place.admits] using (Node.fits_iff.1 hbody).admits, hs,
      fits_of_mem_body hfits hc.kind hb hs, ?_⟩
    rw [homits.1]
    rfl

lemma mem_nodes_of_mem_reportedNodes (hc : IsReadClass text c) (hs : s ∈ reportedNodes text c) :
    s ∈ c.nodes := by
  obtain ⟨b, hb, -, hs, -⟩ := exists_block hc hs
  exact Node.mem_nodes_trans (Node.mem_nodes_of_mem_children hs) (Node.mem_nodes_of_mem_children hb)

/-- A statement that is reported covers some bytes of its class. -/
lemma span_of_mem_reportedNodes (hc : IsReadClass text c) (hs : s ∈ reportedNodes text c) :
    c.span.start ≤ s.span.start ∧ s.span.start < s.span.stop ∧ s.span.stop ≤ c.span.stop := by
  have hmem := mem_nodes_of_mem_reportedNodes hc hs
  obtain ⟨-, -, -, -, -, hphrase⟩ := exists_block hc hs
  obtain ⟨hstart, hstop⟩ := hc.spaced.within hmem
  have hsolid : s.kind.isHollow = false := Kind.isHollow_eq_false hphrase
  exact ⟨hstart, (hc.spaced.of_mem hmem).start_lt_stop (hc.opens.of_mem hmem) hsolid, hstop⟩

/-! ## Statements that do not overlap -/

/-- The statements of one class that are reported do not begin at the same byte. -/
lemma reportedNodes_pairwise (hc : IsReadClass text c) :
    (reportedNodes text c).Pairwise fun s s' => s.span.start ≠ s'.span.start := by
  have hordered : (bodyNodes c).Pairwise fun s s' => s.span.stop ≤ s'.span.start := by
    rw [bodyNodes]
    cases hb : c.child? .body with
    | none => exact .nil
    | some b => exact (hc.spaced.child (List.mem_of_find?_eq_some hb)).self.ordered.filter _
  refine (hordered.filter _).imp_of_mem fun {s s'} hs _ hapart => ?_
  have hspan := span_of_mem_reportedNodes hc hs
  omega

/-- A statement of a class that is reported does not overlap a class inside of that class. -/
lemma apart_of_below (hc : IsReadClass text c) (hs : s ∈ reportedNodes text c)
    (hc' : IsReadClass text c') (hbelow : ∃ d ∈ c.children, c' ∈ d.nodes) :
    s.span.stop ≤ c'.span.start ∨ c'.span.stop ≤ s.span.start := by
  obtain ⟨b, hb, hblock, hs, hfits, hphrase⟩ := exists_block hc hs
  obtain ⟨d, hd, hbelow⟩ := hbelow
  have hwithin := (hc.spaced.child hb).self.within s hs
  have hwithin' := (hc.spaced.child hd).within hbelow
  rcases hc.spaced.self.eq_or_apart hb hd with rfl | hapart | hapart
  · -- both are in the block of the class
    rcases Node.mem_nodes_iff.1 hbelow with rfl | ⟨e, he, hbelow⟩
    · rw [hc'.kind] at hblock
      cases hblock
    have hwithin' := ((hc.spaced.child hb).child he).within hbelow
    rcases (hc.spaced.child hb).self.eq_or_apart hs he with rfl | hapart | hapart
    · have hclass := Node.isOutline_of_mem_nodes hfits hphrase hbelow
      rw [hc'.kind] at hclass
      cases hclass
    · left
      omega
    · right
      omega
  · left
    omega
  · right
    omega

/-- **No two statements that are reported begin at the same byte.** -/
theorem reportedNodes_pairwise_classes (ht : Node.ofText text = .ok t) :
    ((t.nodes.filter (·.kind = .classDefinition)).flatMap (reportedNodes text)).Pairwise
      fun s s' => s.span.start ≠ s'.span.start := by
  rw [List.pairwise_flatMap]
  refine ⟨fun c hc => reportedNodes_pairwise (isReadClass_of_mem ht hc), ?_⟩
  refine ((spacedAll_ofText ht).nodes_pairwise.filter _).imp_of_mem
    fun {c c'} hc hc' hbefore s hs s' hs' => ?_
  have hc := isReadClass_of_mem ht hc
  have hc' := isReadClass_of_mem ht hc'
  have hspan := span_of_mem_reportedNodes hc hs
  have hspan' := span_of_mem_reportedNodes hc' hs'
  rcases hbefore with hbelow | hbehind
  · have hapart := apart_of_below hc hs hc' hbelow
    omega
  · omega

/-! ## Positions -/

lemma exists_tree {source : String} {m : Module} (hm : Module.parse source = .ok m) :
    ∃ t, Node.ofText source.toList = .ok t ∧ m = Module.ofTree source.toList t := by
  rw [Module.parse] at hm
  cases ht : Node.ofText source.toList with
  | error e => simp [ht] at hm
  | ok t => exact ⟨t, rfl, by simpa [ht] using hm.symm⟩

/-- **No two findings in a module have the same position.** -/
theorem positions_nodup {source : String} {m : Module} (hm : Module.parse source = .ok m) :
    ((checkModule m).map (·.position)).Nodup := by
  obtain ⟨t, ht, rfl⟩ := exists_tree hm
  have hpositions : (checkModule (Module.ofTree source.toList t)).map (·.position)
      = ((t.nodes.filter (·.kind = .classDefinition)).flatMap
          (reportedNodes source.toList)).map (positionOf source.toList) := by
    rw [positions_checkModule (isRegular_ofText ht), List.map_flatMap]
    rfl
  have hstands : ∀ s ∈ (t.nodes.filter (·.kind = .classDefinition)).flatMap
      (reportedNodes source.toList), StandsAt source.toList [] s.span.start := by
    intro s hs
    obtain ⟨c, hc, hs⟩ := List.mem_flatMap.1 hs
    have hc := isReadClass_of_mem ht hc
    exact (hc.opens s (mem_nodes_of_mem_reportedNodes hc hs)).stands
  rw [hpositions, List.Nodup, List.pairwise_map]
  refine (reportedNodes_pairwise_classes ht).imp_of_mem fun {s s'} hs hs' hne heq => hne ?_
  -- the position leads back to the byte
  have hplace : Position.ofOffset source.toList s.span.start
      = Position.ofOffset source.toList s'.span.start := heq
  rw [← offsetFor_ofOffset (hstands s hs), hplace, offsetFor_ofOffset (hstands s' hs')]

/-- No two violations of the rule are at the same line and column. -/
lemma places_nodup {source : String} {m : Module} (hm : Module.parse source = .ok m) (o : Options)
    (file : FileContext) :
    ((check o file m).violations.map fun v => (v.location.line, v.location.column)).Nodup := by
  cases h : o.allowInTests && file.isTest with
  | true =>
    rw [check, h, if_pos rfl]
    exact List.nodup_nil
  | false =>
    have hactive : (((checkModule m).filter fun d => !isSuppressed file.text d).map
        (·.position)).Nodup := (positions_nodup hm).sublist (List.filter_sublist.map _)
    have hplaces : Function.Injective fun p : Position => (p.line, p.column + 1) := by
      rintro ⟨line, column⟩ ⟨line', column'⟩ heq
      simpa using heq
    have hnodup := List.Nodup.map hplaces hactive
    rw [List.map_map] at hnodup
    rw [violations_check h, List.map_map]
    exact hnodup

end PermissionLint.Permission
