/-
Reports survive being written as JSON.

A report that is written and read again is the same report, as long as its numbers are machine
words.  Members that a report does not have are passed over (`ofJson?_obj`), so the same holds for
the printed form with its summary (`ofJson?_of_written`).
-/
import PermissionLint.Proofs.Json.Reading
import PermissionLint.Report.Format

namespace PermissionLint

lemma Json.word?_nat {n : Nat} (h : n < Nat.pow 2 64) : (Json.nat n).word? = some n := by
  rw [word?, nat?_nat]
  exact if_pos h

/-! ## Records as values -/

namespace Location

/-- The numbers are machine words. -/
structure FitsWords (l : Location) : Prop where
  line : l.line < Nat.pow 2 64
  column : l.column < Nat.pow 2 64
  offset : l.offset < Nat.pow 2 64
  length : l.length < Nat.pow 2 64

lemma ofJson?_toJson {l : Location} (h : l.FitsWords) : ofJson? l.toJson = some l := by
  have hrecord : l.toJson.record? ["file", "line", "column", "offset", "length"] 5
      = some [some (.str l.file), some (.nat l.line), some (.nat l.column), some (.nat l.offset),
        some (.nat l.length)] := rfl
  rw [ofJson?, hrecord]
  simp only [Json.str?, Json.word?_nat h.line, Json.word?_nat h.column, Json.word?_nat h.offset,
    Json.word?_nat h.length]
  rfl

end Location

namespace Violation

/-- A suggestion that is not there is left out, and is found to be absent. -/
lemma ofJson?_toJson {v : Violation} (h : v.location.FitsWords) : ofJson? v.toJson = some v := by
  obtain ⟨code, rule, severity, location, message, suggestion⟩ := v
  have hrecord : (toJson ⟨code, rule, severity, location, message, suggestion⟩).record?
      ["code", "rule", "severity", "location", "message", "suggestion"] 5
      = some [some (.str code), some (.str rule), some severity.toJson, some location.toJson,
        some (.str message), suggestion.map suggestionToJson] := by
    cases suggestion <;> rfl
  have hseverity : Severity.ofJson? severity.toJson = some severity :=
    Severity.ofName?_name severity
  rw [ofJson?, hrecord]
  simp only [hseverity, Location.ofJson?_toJson h]
  cases suggestion <;> rfl

lemma mapM_ofJson? {vs : List Violation} (h : ∀ v ∈ vs, v.location.FitsWords) :
    (vs.map toJson).mapM ofJson? = some vs := by
  induction vs with
  | nil => rfl
  | cons v vs ih =>
    obtain ⟨hv, hvs⟩ := List.forall_mem_cons.1 h
    rw [List.map_cons, List.mapM_cons, ofJson?_toJson hv, ih hvs]
    rfl

lemma isExact_toJson (v : Violation) : v.toJson.isExact = true := by
  obtain ⟨code, rule, severity, location, message, suggestion⟩ := v
  cases suggestion <;> rfl

end Violation

namespace Report

/-- The numbers are machine words. -/
structure FitsWords (r : Report) : Prop where
  filesChecked : r.filesChecked < Nat.pow 2 64
  violations : ∀ v ∈ r.violations, v.location.FitsWords

/-- The report as it is printed, with the numbers of violations. -/
def withSummary (r : Report) : Json := .obj (r.members ++ [("summary", countsJson r.counts)])

/-- Other members are passed over. -/
lemma ofJson?_obj {r : Report} (h : r.FitsWords) {others : List (String × Json)}
    (hothers : ∀ m ∈ others, m.1 ≠ "violations" ∧ m.1 ≠ "files_checked") :
    ofJson? (.obj (r.members ++ others)) = some r := by
  have hget : ∀ key, (key = "violations" ∨ key = "files_checked") →
      (Json.obj (r.members ++ others)).get? key = r.toJson.get? key := by
    intro key hkey
    have hnone : others.reverse.find? (fun m => m.1 == key) = none := by
      refine List.find?_eq_none.2 fun m hm => ?_
      obtain ⟨hviolations, hfiles⟩ := hothers m (List.mem_reverse.1 hm)
      rcases hkey with rfl | rfl
      · simpa using hviolations
      · simpa using hfiles
    rw [toJson, Json.get?, Json.get?, List.reverse_append, List.find?_append, hnone,
      Option.none_or]
  have hrecord : (Json.obj (r.members ++ others)).record? ["violations", "files_checked"] 2
      = some [some (.arr (r.violations.map Violation.toJson)), some (.nat r.filesChecked)] := by
    rw [Json.record?, List.map_cons, List.map_singleton, hget _ (.inl rfl), hget _ (.inr rfl)]
    rfl
  rw [ofJson?, hrecord]
  simp [Json.items?, Violation.mapM_ofJson? h.violations, Json.word?_nat h.filesChecked]

lemma areExact_violations (vs : List Violation) :
    Json.areExact (vs.map Violation.toJson) = true := by
  induction vs with
  | nil => rfl
  | cons v vs ih =>
    rw [List.map_cons, Json.areExact, Violation.isExact_toJson, ih]
    rfl

lemma isExact_toJson (r : Report) : r.toJson.isExact = true := by
  simp [toJson, members, Json.isExact, Json.haveExactValues, areExact_violations, Json.nat]

lemma isExact_withSummary (r : Report) : r.withSummary.isExact = true := by
  simp [withSummary, members, countsJson, Json.isExact, Json.haveExactValues, areExact_violations,
    Json.nat]

/-- **A report that is written as JSON and read again is the same report.**  The same holds for what
is printed in the format `json`, which has a summary besides: the numbers of violations by
severity. -/
theorem ofJson?_of_written {r : Report} (h : r.FitsWords) :
    (Json.parse? r.toJson.render).bind ofJson? = some r ∧
      ∃ printed, Json.parse? r.renderJson = some printed ∧ ofJson? printed = some r ∧
        printed.get? "summary" = some (.obj [("errors", .nat r.counts.errors),
          ("warnings", .nat r.counts.warnings), ("infos", .nat r.counts.infos)]) := by
  have hplain : ofJson? r.toJson = some r := by
    have hobj := @ofJson?_obj r h [] (by simp)
    rwa [List.append_nil] at hobj
  have hsummary : ofJson? r.withSummary = some r := by
    refine ofJson?_obj h fun m hm => ?_
    obtain rfl := List.mem_singleton.1 hm
    simp
  refine ⟨?_, r.withSummary, ?_, hsummary, rfl⟩
  · rw [Json.parse?_render r.isExact_toJson]
    exact hplain
  · exact Json.parse?_pretty r.isExact_withSummary

/-- A report with the largest word, texts that have to be escaped, and a violation with and one
without a suggestion. -/
def ofTwoKinds : Report where
  violations := [
    { code := "PDR001", rule := "", severity := .warning
      message := "a \"quoted\" back\\slash\n\u0001"
      location := { file := "café/views.py", line := Nat.pow 2 64 - 1, column := 0 }
      suggestion := some "use 🐍\t" },
    { code := "E\u007f", rule := "r", severity := .info, message := ""
      location := { file := "", line := 3, column := 5, offset := 7, length := 9 } }]
  filesChecked := Nat.pow 2 64 - 1

theorem ofJson?_of_written_ofTwoKinds : ofTwoKinds.FitsWords ∧
    (Json.parse? ofTwoKinds.toJson.render).bind ofJson? = some ofTwoKinds ∧
      ∃ printed, Json.parse? ofTwoKinds.renderJson = some printed ∧
        ofJson? printed = some ofTwoKinds ∧
        printed.get? "summary" = some (.obj [("errors", .nat 0), ("warnings", .nat 1),
          ("infos", .nat 1)]) := by
  have hfits : ofTwoKinds.FitsWords := by
    refine ⟨by decide, fun v hv => ?_⟩
    obtain rfl | rfl : v = _ ∨ v = _ := by simpa [ofTwoKinds] using hv
    all_goals exact ⟨by decide, by decide, by decide, by decide⟩
  exact ⟨hfits, ofJson?_of_written hfits⟩

end Report

end PermissionLint
