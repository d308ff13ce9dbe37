/-
The bytes that a violation of the rule for permissions marks.

A statement is reported by the line and the column where it begins, and the violation marks as many
bytes from there as the name of the attribute has.  The statement begins with its target
(`exists_target`).  So the bytes that are marked spell the attribute if the target is written
without parentheses, and otherwise they begin with an opening parenthesis
(`bytesAt_of_mem_violations`).
-/
import PermissionLint.Proofs.Permission.Trees
import PermissionLint.Proofs.Permission.Violations
import PermissionLint.Proofs.Syntax.Openings

namespace PermissionLint.Permission

open PermissionLint.Source PermissionLint.Syntax PermissionLint.Model PermissionLint.Text

variable {text : List Char}

/-! ## The target of a statement -/

/-- Parentheses begin with an opening one. -/
lemma standsAt_of_isWrapper {n : Node} (h : n.OpensAll text) (hwrapper : n.isWrapper = true) :
    StandsAt text ['('] n.span.start := by
  obtain ⟨m, ms, hphrases⟩ := Node.exists_phrase_of_isWrapper hwrapper
  have hm : m ∈ n.phrases := by simp [hphrases]
  obtain ⟨c, cs, -, -, hstart, htraits⟩ := h.exists_first (List.mem_of_mem_filter hm)
  have hopening : Trait.parenthesis ∈ n.kind.opening := by
    rw [Node.isWrapper] at hwrapper
    split at hwrapper
    · next hkind => simp [hkind, Kind.opening]
    · next hkind => simp [hkind, Kind.opening]
    · cases hwrapper
  have hstands : StandsAt text ['('] c.span.start := htraits .parenthesis hopening
  rwa [hstart] at hstands

/-- The target of a statement that assigns. -/
def targetOf? (s : Node) : Option Node := s.phrases.head?.bind (·.child? .left)

/-- A statement that omits the permission begins with its target. -/
lemma exists_target {s : Node} (homits : OmitsPermission text s) (h : s.OpensAll text) :
    ∃ target, targetOf? s = some target ∧ target.span.start = s.span.start ∧
      target.OpensAll text ∧ target.isNamed text "permission_classes" = true := by
  obtain ⟨hkind, hlength, a, ha, hassignment, -, left, hleft, -, -, -, hnamed, -⟩ := homits
  have hphrases : s.phrases = [a] := by
    obtain ⟨b, hb⟩ := List.length_eq_one_iff.1 hlength
    rw [hb, List.mem_singleton] at ha
    rw [hb, ha]
  have hopens : a.OpensAll text :=
    h.of_mem (Node.mem_nodes_of_mem_children (List.mem_of_mem_filter ha))
  refine ⟨left, ?_, ?_, ?_, hnamed⟩
  · rw [targetOf?, hphrases]
    exact hleft
  · rw [hopens.start_target hassignment hleft, h.start_phrase hkind hlength ha]
  · exact hopens.of_mem (Node.mem_nodes_of_mem_children (List.mem_of_find?_eq_some hleft))

/-- A name, in parentheses or not, as it is written. -/
lemma standsAt_of_isNamed {n : Node} {id : String} (h : n.OpensAll text)
    (hnamed : n.isNamed text id = true) :
    (n.kind = .identifier ∧ StandsAt text id.toList n.span.start) ∨
      (n.kind ≠ .identifier ∧ StandsAt text ['('] n.span.start) := by
  rw [Node.isNamed, Bool.and_eq_true, beq_iff_eq, beq_iff_eq] at hnamed
  cases hwrapper : n.isWrapper with
  | false =>
    left
    rw [Node.core_of_not_isWrapper hwrapper] at hnamed
    obtain ⟨hkind, hspelling⟩ := hnamed
    have hslice := h.self.stands.slice n.span.stop
    rw [← hspelling, spelling, String.toList_ofList]
    exact ⟨hkind, hslice⟩
  | true =>
    right
    refine ⟨fun hkind => ?_, standsAt_of_isWrapper h hwrapper⟩
    simp [Node.isWrapper, hkind] at hwrapper

/-! ## What is reported -/

/-- What is reported is the position of a statement in the body of a class. -/
lemma exists_statement {t : Node} (ht : Node.ofText text = .ok t) {d : Diagnostic}
    (hd : d ∈ checkModule (Module.ofTree text t)) :
    ∃ c ∈ t.nodes, c.kind = .classDefinition ∧ ∃ s ∈ bodyNodes c, OmitsPermission text s ∧
      s.OpensAll text ∧ d.position = positionOf text s := by
  have hposition : d.position ∈ (checkModule (Module.ofTree text t)).map (·.position) :=
    List.mem_map_of_mem hd
  rw [positions_checkModule (isRegular_ofText ht)] at hposition
  obtain ⟨c, hc, hposition⟩ := List.mem_flatMap.1 hposition
  obtain ⟨s, hs, hposition⟩ := List.mem_map.1 hposition
  obtain ⟨hmem, hkind⟩ := List.mem_filter.1 hc
  obtain ⟨hs, homits⟩ := List.mem_filter.1 hs
  have hkind : c.kind = .classDefinition := by simpa using hkind
  refine ⟨c, hmem, hkind, s, hs, by simpa using homits, ?_, hposition.symm⟩
  have hbelow : s ∈ c.nodes := by
    rw [bodyNodes] at hs
    cases hbody : c.child? .body with
    | none => simp [hbody] at hs
    | some b =>
      rw [hbody] at hs
      have hb : b ∈ c.nodes := Node.mem_nodes_of_mem_children (List.mem_of_find?_eq_some hbody)
      exact Node.mem_nodes_trans (Node.mem_nodes_of_mem_children (List.mem_of_mem_filter hs)) hb
  rcases Node.mem_nodes_iff.1 hmem with rfl | ⟨child, hchild, hmem⟩
  · rw [(isRegular_ofText ht).1] at hkind
    cases hkind
  · exact (opens_ofText ht child hchild).of_mem (Node.mem_nodes_trans hbelow hmem)

/-- The bytes that spell a name do not begin with a parenthesis. -/
lemma bytesAt_ne_of_parenthesis {offset : Nat} (h : StandsAt text ['('] offset) :
    bytesAt text offset attributeName.utf8ByteSize ≠ Utf8.encode attributeName.toList := by
  intro hbytes
  have htake : bytesAt text offset 1
      = (bytesAt text offset attributeName.utf8ByteSize).take 1 := by
    rw [bytesAt, bytesAt, List.take_take]
    rfl
  have hfirst : bytesAt text offset 1 = Utf8.encode ['('] := h.bytes_eq
  rw [hbytes, hfirst] at htake
  revert htake
  decide

/-- **The bytes that a violation marks spell the attribute if and only if the target is written
without parentheses.**  They begin where the statement and its target do; if the target is in
parentheses, the first of them is the opening parenthesis. -/
theorem bytesAt_of_mem_violations {source : String} {m : Module}
    (hm : Module.parse source = .ok m) {o : Options} {file : FileContext}
    (hfile : file.text = source.toList) {v : Violation} (hv : v ∈ (check o file m).violations) :
    ∃ t, Node.ofText source.toList = .ok t ∧ m = Module.ofTree source.toList t ∧
      ∃ c ∈ t.nodes, c.kind = .classDefinition ∧
      ∃ s ∈ bodyNodes c, OmitsPermission source.toList s ∧ ∃ target ∈ targetOf? s,
        v.location.offset = target.span.start ∧
        (bytesAt source.toList v.location.offset v.location.length
            = Utf8.encode "permission_classes".toList ↔ target.kind = .identifier) ∧
        (target.kind ≠ .identifier →
          bytesAt source.toList v.location.offset 1 = Utf8.encode ['(']) := by
  obtain ⟨t, ht, rfl⟩ : ∃ t, Node.ofText source.toList = .ok t ∧
      m = Module.ofTree source.toList t := by
    rw [Module.parse] at hm
    cases ht : Node.ofText source.toList with
    | error e => simp [ht] at hm
    | ok t => exact ⟨t, rfl, by simpa [ht] using hm.symm⟩
  obtain ⟨d, hd, rfl⟩ := exists_of_mem_violations hv
  obtain ⟨c, hc, hkind, s, hs, homits, hopens, hposition⟩ := exists_statement ht hd
  obtain ⟨target, htarget, hstart, hopens', hnamed⟩ := exists_target homits hopens
  have hoffset : (violationOf o.severity file d).location.offset = target.span.start := by
    change offsetFor file.text d.position.line d.position.column = _
    rw [hfile, hposition, positionOf, offsetFor_ofOffset hopens.self.stands, hstart]
  refine ⟨t, ht, rfl, c, hc, hkind, s, hs, homits, target, htarget, hoffset, ?_⟩
  rw [hoffset]
  rcases standsAt_of_isNamed hopens' hnamed with ⟨hname, hstands⟩ | ⟨hname, hstands⟩
  · exact ⟨iff_of_true hstands.bytes_eq hname, fun h => absurd hname h⟩
  · exact ⟨iff_of_false (bytesAt_ne_of_parenthesis hstands) hname, fun _ => hstands.bytes_eq⟩

set_option maxRecDepth 100000 in
/-- Two statements behind a letter of two bytes, the second one with its target in parentheses. -/
theorem bytesAt_of_mem_violations_two :
    let source := "# é\r\nclass A:\n\tpermission_classes = []\n\t(permission_classes) = ()\n"
    let file := FileContext.of "views.py".toList source.toList []
    ∃ m v w, Module.parse source = .ok m ∧ (check {} file m).violations = [v, w] ∧
      (∃ target : Node, target.kind = .identifier ∧ target.span.start = v.location.offset ∧
        bytesAt source.toList v.location.offset v.location.length
          = Utf8.encode "permission_classes".toList) ∧
      ∃ target : Node, target.kind ≠ .identifier ∧ target.span.start = w.location.offset ∧
        bytesAt source.toList w.location.offset 1 = Utf8.encode ['('] := by
  intro source file
  have hsome : (Module.parse source).toOption.any (fun m =>
      (check {} file m).violations.map (fun v => (v.location.offset, v.location.length))
        = [(16, 18), (41, 18)]) = true := by
    decide +kernel
  have hbytes : bytesAt source.toList 16 18 = Utf8.encode "permission_classes".toList := by
    decide +kernel
  have hbytes' : bytesAt source.toList 41 18 ≠ Utf8.encode "permission_classes".toList := by
    decide +kernel
  cases hm : Module.parse source with
  | error e =>
    rw [hm] at hsome
    cases hsome
  | ok m =>
    rw [hm] at hsome
    have hplaces := of_decide_eq_true hsome
    obtain ⟨v, vs, hviolations, hv, hvs⟩ := List.map_eq_cons_iff.1 hplaces
    obtain ⟨w, ws, rfl, hw, hws⟩ := List.map_eq_cons_iff.1 hvs
    obtain rfl := List.map_eq_nil_iff.1 hws
    obtain ⟨hvo, hvl⟩ := Prod.mk.inj hv
    obtain ⟨hwo, hwl⟩ := Prod.mk.inj hw
    obtain ⟨-, -, -, -, -, -, -, -, -, target, -, hstart, hiff, -⟩ :=
      @bytesAt_of_mem_violations source m hm {} file rfl v (by simp [hviolations])
    obtain ⟨-, -, -, -, -, -, -, -, -, target', -, hstart', hiff', hfirst⟩ :=
      @bytesAt_of_mem_violations source m hm {} file rfl w (by simp [hviolations])
    rw [hvo, hvl] at hiff
    rw [hwo, hwl] at hiff'
    refine ⟨m, v, w, rfl, hviolations, ⟨target, hiff.1 hbytes, hstart.symm, ?_⟩,
      target', fun h => hbytes' (hiff'.2 h), hstart'.symm, hfirst fun h => hbytes' (hiff'.2 h)⟩
    rw [hvo, hvl, hbytes]

set_option maxRecDepth 100000 in
/-- If the target is in parentheses, the bytes that are marked do not spell the attribute. -/
theorem bytesAt_of_parentheses :
    let source := "class V:\n    (permission_classes) = [AllowAny]\n"
    let file := FileContext.of "views.py".toList source.toList []
    ∃ m v, Module.parse source = .ok m ∧ (check {} file m).violations = [v] ∧
      bytesAt source.toList v.location.offset v.location.length
        = Utf8.encode "(permission_classe".toList ∧
      bytesAt source.toList v.location.offset v.location.length
        ≠ Utf8.encode "permission_classes".toList := by
  intro source file
  have hsome : (Module.parse source).toOption.any (fun m =>
      (check {} file m).violations.map (fun v => (v.location.offset, v.location.length))
        = [(13, 18)]) = true := by
    decide +kernel
  have hbytes : bytesAt source.toList 13 18 = Utf8.encode "(permission_classe".toList ∧
      bytesAt source.toList 13 18 ≠ Utf8.encode "permission_classes".toList := by
    decide +kernel
  cases hm : Module.parse source with
  | error e =>
    rw [hm] at hsome
    cases hsome
  | ok m =>
    rw [hm] at hsome
    obtain ⟨v, vs, hviolations, hv, hvs⟩ := List.map_eq_cons_iff.1 (of_decide_eq_true hsome)
    obtain rfl := List.map_eq_nil_iff.1 hvs
    obtain ⟨hoffset, hlength⟩ := Prod.mk.inj hv
    refine ⟨m, v, rfl, hviolations, ?_⟩
    rw [hoffset, hlength]
    exact hbytes

end PermissionLint.Permission
