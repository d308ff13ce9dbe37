/-
Lines that end in a backslash.

Whether such a line goes on depends on its characters alone: it does if it has no hash
(`decide_of_goesOn`), and with a hash it stands for itself (`decide_of_not_goesOn`), also where the
hash is in a string and begins no comment.  `isSuppressed_iff_of_backslash` says what this means for
a comment on the line below: it counts if and only if the line above has no hash.
-/
import PermissionLint.Model.OfTree
import PermissionLint.Permission.Rule
import PermissionLint.Proofs.Suppression.Chain
import PermissionLint.Proofs.Suppression.Directive
import PermissionLint.Proofs.Syntax.Outline

namespace PermissionLint.Suppression

open PermissionLint.Model PermissionLint.Permission PermissionLint.Source PermissionLint.Syntax
  PermissionLint.Text

/-! ## Lines that silence a code -/

/-- The leftmost directive of the line is about all codes, or lists a beginning of this one. -/
def Silences (line code : List Char) : Prop :=
  ∃ after, LeftmostDirective line after ∧ ∀ cs, ListsCodes after cs → ∃ c ∈ cs, c <+: upperCase code

lemma isSuppressed_decide_iff {code : List Char} {d : Directive} :
    (d.decide code).isSuppressed = true ↔ ∀ cs, d = .codes cs → ∃ c ∈ cs, c <+: upperCase code := by
  cases d with
  | all => exact iff_of_true rfl fun cs h => Directive.noConfusion h
  | codes cs =>
    rw [Directive.decide]
    split
    · next hany =>
      obtain ⟨c, hc, hprefix⟩ := List.any_eq_true.1 hany
      refine iff_of_true rfl ?_
      rintro cs' ⟨⟩
      exact ⟨c, hc, List.isPrefixOf_iff_prefix.1 hprefix⟩
    · next hany =>
      refine iff_of_false Bool.false_ne_true fun h => hany ?_
      obtain ⟨c, hc, hprefix⟩ := h cs rfl
      exact List.any_eq_true.2 ⟨c, hc, List.isPrefixOf_iff_prefix.2 hprefix⟩

/-- A directive suppresses the codes that its line silences. -/
lemma isSuppressed_decisionOf_iff {line code : List Char} :
    (decisionOf code (parseDirective line)).isSuppressed = true ↔ Silences line code := by
  cases hline : parseDirective line with
  | none =>
    refine iff_of_false Bool.false_ne_true ?_
    rintro ⟨after, hafter, -⟩
    have hsome := parseDirective_eq_some_iff.2 ⟨after, hafter, rfl⟩
    rw [hline] at hsome
    cases hsome
  | some d =>
    obtain ⟨after, hafter, rfl⟩ := parseDirective_eq_some_iff.1 hline
    rw [decisionOf, isSuppressed_decide_iff]
    simp only [parseCodes_eq_codes_iff]
    constructor
    · exact fun h => ⟨after, hafter, h⟩
    · rintro ⟨after', hafter', h⟩
      have hsome := parseDirective_eq_some_iff.2 ⟨after', hafter', rfl⟩
      rw [hline, Option.some.injEq] at hsome
      intro cs hcs
      refine h cs ?_
      rwa [← parseCodes_eq_codes_iff, ← hsome, parseCodes_eq_codes_iff]

lemma mem_of_silences {line code : List Char} (h : Silences line code) : '#' ∈ line := by
  obtain ⟨-, ⟨front, ⟨comment, rfl, -⟩, -⟩, -⟩ := h
  exact List.mem_append_right _ List.mem_cons_self

/-! ## A line and the next one -/

section

variable {text line : List Char} {n : Nat}

lemma drop_eq_cons (hline : (lines text)[n]? = some line) :
    (lines text).drop n = line :: (lines text).drop (n + 1) := by
  obtain ⟨hn, rfl⟩ := List.getElem?_eq_some_iff.1 hline
  exact List.drop_eq_getElem_cons hn

/-- A line that goes on leaves the decision to the next one. -/
lemma decide_of_goesOn (hline : (lines text)[n]? = some line) (h : GoesOn line)
    (code : List Char) : decide text (n + 1) code = decide text (n + 2) code := by
  rw [decide_succ, decide_succ, drop_eq_cons hline, chain, if_pos (continues_iff.2 h),
    List.findSome?_cons, parseDirective_of_not_mem h.1]

/-- A line that does not go on decides alone. -/
lemma decide_of_not_goesOn (hline : (lines text)[n]? = some line) (h : ¬ GoesOn line)
    (code : List Char) : decide text (n + 1) code = decisionOf code (parseDirective line) := by
  rw [decide_succ, drop_eq_cons hline, chain, if_neg (mt continues_iff.1 h),
    List.findSome?_singleton]

end

/-- A backslash is the last character of the line that is not white space. -/
def EndsInBackslash (line : List Char) : Prop :=
  ∃ front blanks, line = front ++ '\\' :: blanks ∧ ∀ c ∈ blanks, isBlank c = true

/-- **A hash on a line that ends in a backslash keeps the next line from it.**  If there is none,
the line is decided as the next one is; otherwise nothing but its own directive counts.  So where a
comment is on the next line, a code is suppressed if and only if the line has a directive about it,
or has no hash and the next line has a directive about the code. -/
theorem isSuppressed_iff_of_backslash {text line next : List Char} {n : Nat}
    (hline : (lines text)[n]? = some line) (hback : EndsInBackslash line)
    (hnext : (lines text)[n + 1]? = some next) (code : List Char) :
    ('#' ∉ line → decide text (n + 1) code = decide text (n + 2) code) ∧
      ('#' ∈ line → decide text (n + 1) code = decisionOf code (parseDirective line)) ∧
      ('#' ∈ next → ((decide text (n + 1) code).isSuppressed = true ↔
        Silences line code ∨ '#' ∉ line ∧ Silences next code)) := by
  have hgoes : '#' ∉ line → decide text (n + 1) code = decide text (n + 2) code :=
    fun hhash => decide_of_goesOn hline ⟨hhash, hback⟩ code
  have hstays : '#' ∈ line → decide text (n + 1) code = decisionOf code (parseDirective line) :=
    fun hhash => decide_of_not_goesOn hline (fun h => h.1 hhash) code
  refine ⟨hgoes, hstays, fun hhash => ?_⟩
  by_cases hline' : '#' ∈ line
  · rw [hstays hline', isSuppressed_decisionOf_iff]
    simp only [hline', not_true_eq_false, false_and, or_false]
  · rw [hgoes hline', decide_of_not_goesOn hnext (fun h => h.1 hhash),
      isSuppressed_decisionOf_iff]
    simp only [hline', not_false_eq_true, true_and, mt mem_of_silences hline', false_or]

/-- With a comment on the second line, a first line without a hash is suppressed, and one with a
hash in a string is not. -/
theorem isSuppressed_iff_of_backslash_two :
    let plain := "x = [f(), \\ \n    y]  # noqa: PDR001\n".toList
    let quoted := "x = [f('#'), \\ \n    y]  # noqa: PDR001\n".toList
    (EndsInBackslash "x = [f(), \\ ".toList ∧
      Silences "    y]  # noqa: PDR001".toList "PDR001".toList ∧
      (decide plain 1 "PDR001".toList).isSuppressed = true) ∧
    (EndsInBackslash "x = [f('#'), \\ ".toList ∧
      ¬ Silences "x = [f('#'), \\ ".toList "PDR001".toList ∧
      ¬ (decide quoted 1 "PDR001".toList).isSuppressed = true) := by
  intro plain quoted
  have hplain : EndsInBackslash "x = [f(), \\ ".toList :=
    ⟨"x = [f(), ".toList, [' '], rfl, List.forall_mem_singleton.2 rfl⟩
  have hquoted : EndsInBackslash "x = [f('#'), \\ ".toList :=
    ⟨"x = [f('#'), ".toList, [' '], rfl, List.forall_mem_singleton.2 rfl⟩
  have hnext : Silences "    y]  # noqa: PDR001".toList "PDR001".toList := by
    rw [← isSuppressed_decisionOf_iff]
    decide
  have hline : ¬ Silences "x = [f('#'), \\ ".toList "PDR001".toList := by
    rw [← isSuppressed_decisionOf_iff]
    decide
  obtain ⟨-, -, hsuppressed⟩ := @isSuppressed_iff_of_backslash plain _
    "    y]  # noqa: PDR001".toList 0 (by decide) hplain (by decide) "PDR001".toList
  obtain ⟨-, -, hactive⟩ := @isSuppressed_iff_of_backslash quoted _
    "    y]  # noqa: PDR001".toList 0 (by decide) hquoted (by decide) "PDR001".toList
  refine ⟨⟨hplain, hnext, (hsuppressed (by decide)).2 (.inr ⟨by decide, hnext⟩)⟩,
    hquoted, hline, fun h => ?_⟩
  rcases (hactive (by decide)).1 h with h | ⟨h, -⟩
  · exact hline h
  · exact h (by decide)

/-! ## Hashes in strings -/

/-- Each hash on the line, numbered from one, is part of a string of the tree. -/
def HashesInStrings (text : List Char) (n : Nat) (t : Node) : Prop :=
  ∀ k < text.length, text[k]? = some '#' → (text.take k).count '\n' + 1 = n →
    ∃ s ∈ t.nodes, s.kind = .string ∧ s.span.start ≤ byteLength (text.take k) ∧
      byteLength (text.take k) < s.span.stop

instance (text : List Char) (n : Nat) (t : Node) : Decidable (HashesInStrings text n t) :=
  inferInstanceAs (Decidable (∀ k < text.length, _ → _ → _))

lemma parse_of_ofText {source : String} {t : Node} (h : Node.ofText source.toList = .ok t) :
    Module.parse source = .ok (Module.ofTree source.toList t) := by
  simp only [Module.parse, h]

set_option maxRecDepth 100000 in
/-- The only hash of the line is in a string, the backslash is in no comment and the next line has a
bare directive, but the statement is reported. -/
theorem decide_of_quoted_hash :
    let source := "class V:\n permission_classes = [f('#'), \\\n  A]  # noqa\n"
    let text := source.toList
    let file := FileContext.of "views.py".toList text []
    ∃ t m v line next, Node.ofText text = .ok t ∧ HashesInStrings text 2 t ∧
      (lines text)[1]? = some line ∧ EndsInBackslash line ∧ parseDirective line = none ∧
      (lines text)[2]? = some next ∧ parseDirective next = some .all ∧
      Module.parse source = .ok m ∧ (check {} file m).violations = [v] ∧ v.location.line = 2 ∧
      decide text 2 "PDR001".toList = .active := by
  intro source text file
  have hread : (Node.ofText text).toOption.any (fun t => HashesInStrings text 2 t ∧
      (check {} file (Module.ofTree text t)).violations.map (fun v => v.location.line) = [2])
        = true := by
    decide +kernel
  cases ht : Node.ofText text with
  | error e =>
    rw [ht] at hread
    cases hread
  | ok t =>
    rw [ht] at hread
    obtain ⟨hhashes, hchecked⟩ := of_decide_eq_true hread
    obtain ⟨v, vs, hviolations, hv, hvs⟩ := List.map_eq_cons_iff.1 hchecked
    obtain rfl := List.map_eq_nil_iff.1 hvs
    have hm : Module.parse source = .ok (Module.ofTree text t) := parse_of_ofText ht
    have hback : EndsInBackslash " permission_classes = [f('#'), \\".toList :=
      ⟨" permission_classes = [f('#'), ".toList, [], rfl, by simp⟩
    exact ⟨t, _, v, _, "  A]  # noqa".toList, rfl, hhashes, by decide +kernel, hback,
      by decide, by decide +kernel, by decide, hm, hviolations, hv, by decide +kernel⟩

end PermissionLint.Suppression
