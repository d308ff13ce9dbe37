/-
The numbers of violations by severity.

A report counts its violations in one pass over three counters (`Report.counts`), and looks for a
violation that is serious enough in another pass of its own (`Report.hasAtLeast`).  Whatever is read
off the counters goes up with the violations that it counts (`apply_counts`).  So each counter holds
the number of violations of its severity, the three together that of all violations, and those from
a threshold upwards are empty exactly if the other pass finds nothing (`hasAtLeast_iff`).
-/
import Mathlib.Algebra.GroupWithZero.Nat
import PermissionLint.Proofs.Report.RoundTrip

namespace PermissionLint

lemma Severity.atLeast_trans {s t threshold : Severity} (hs : s.atLeast t = true)
    (ht : t.atLeast threshold = true) : s.atLeast threshold = true := by
  simp only [atLeast, decide_eq_true_eq] at *
  exact Nat.le_trans ht hs

namespace Counts

/-- The number of violations of one severity. -/
def ofSeverity (c : Counts) : Severity → Nat
  | .error => c.errors
  | .warning => c.warnings
  | .info => c.infos

/-- The number of violations that are at least as serious as the threshold. -/
def atLeast (c : Counts) (threshold : Severity) : Nat :=
  ((Severity.all.filter fun s => s.atLeast threshold).map c.ofSeverity).sum

variable (c : Counts) (s : Severity)

lemma ofSeverity_add (t : Severity) :
    (c.add s).ofSeverity t = c.ofSeverity t + if s == t then 1 else 0 := by
  cases s <;> cases t <;> rfl

lemma total_add : (c.add s).errors + (c.add s).warnings + (c.add s).infos
    = c.errors + c.warnings + c.infos + 1 := by
  cases s <;> simp only [add] <;> omega

lemma atLeast_add (threshold : Severity) :
    (c.add s).atLeast threshold = c.atLeast threshold + if s.atLeast threshold then 1 else 0 := by
  cases threshold <;> cases s <;>
    simp [atLeast, Severity.all, Severity.atLeast, Severity.rank, ofSeverity, add] <;> omega

end Counts

namespace Report

/-! ## What the counters hold -/

/-- A number that is read off the counters and goes up by one with each violation of some kind is
the number of these violations. -/
lemma apply_counts (number : Counts → Nat) (kind : Severity → Bool) (hzero : number {} = 0)
    (hadd : ∀ c s, number (c.add s) = number c + if kind s then 1 else 0) (r : Report) :
    number r.counts = r.violations.countP fun v => kind v.severity := by
  have hpass : ∀ (vs : List Violation) (c : Counts),
      number (vs.foldl (fun c v => c.add v.severity) c)
        = number c + vs.countP fun v => kind v.severity := by
    intro vs
    induction vs with
    | nil => intro c; rfl
    | cons v vs ih =>
      intro c
      rw [List.foldl_cons, ih, hadd, List.countP_cons]
      omega
  rw [counts, hpass, hzero, Nat.zero_add]

/-- Each counter holds the number of violations of its severity. -/
theorem ofSeverity_counts (r : Report) (s : Severity) :
    r.counts.ofSeverity s = r.violations.countP fun v => v.severity == s :=
  apply_counts (fun c => c.ofSeverity s) (fun t => t == s) (by cases s <;> rfl)
    (fun c t => c.ofSeverity_add t s) r

/-- The counters add up to the number of violations. -/
theorem total_counts (r : Report) :
    r.counts.errors + r.counts.warnings + r.counts.infos = r.violations.length := by
  have htotal := apply_counts (fun c => c.errors + c.warnings + c.infos) (fun _ => true) rfl
    Counts.total_add r
  rwa [List.countP_true] at htotal

/-- **There is a violation that is serious enough exactly if the counters from the threshold upwards
hold anything.** -/
theorem hasAtLeast_iff (r : Report) (threshold : Severity) :
    r.hasAtLeast threshold = true ↔ 0 < r.counts.atLeast threshold := by
  have hnumber := apply_counts (fun c => c.atLeast threshold) (fun s => s.atLeast threshold)
    (by cases threshold <;> rfl) (fun c s => c.atLeast_add s threshold) r
  rw [hnumber, List.countP_pos_iff, hasAtLeast, List.any_eq_true]

/-! ## More serious reports -/

/-- The other report has the same number of violations, and each of them is at least as serious. -/
def IsRaised (r r' : Report) : Prop :=
  List.Forall₂ (fun v v' => v'.severity.atLeast v.severity = true) r.violations r'.violations

/-- What is serious enough stays so if violations are raised or the threshold is lowered. -/
theorem hasAtLeast_of_isRaised {r r' : Report} {threshold threshold' : Severity}
    (hraised : r.IsRaised r') (hlowered : threshold.atLeast threshold' = true)
    (h : r.hasAtLeast threshold = true) : r'.hasAtLeast threshold' = true := by
  rw [IsRaised] at hraised
  rw [hasAtLeast] at h ⊢
  generalize r.violations = vs, r'.violations = vs' at hraised h ⊢
  induction hraised with
  | nil => cases h
  | cons hv _ ih =>
    rw [List.any_cons, Bool.or_eq_true] at h ⊢
    exact h.imp (fun hserious =>
      Severity.atLeast_trans (Severity.atLeast_trans hv hserious) hlowered) ih

/-! ## Printed numbers -/

/-- A printed report shows the numbers: in the formats `text` and `pretty` on its last line, in the
format `json` as a member.  The other formats show none. -/
def Shows (output : String) (c : Counts) : Format → Prop
  | .text | .pretty => ∃ (front : String) (colour : Colour) (files : Nat),
      output = front ++ colour.paint
        (s!"Found {c.errors} error(s), {c.warnings} warning(s), {c.infos} info(s) in "
          ++ s!"{files} file(s)") ++ "\n"
  | .json => ∃ printed, Json.parse? output = some printed ∧
      printed.get? "summary" = some (.obj [("errors", .nat c.errors),
        ("warnings", .nat c.warnings), ("infos", .nat c.infos)])
  | .compact | .flake8 => True

/-- The numbers that are shown are the counters. -/
theorem shows_render (r : Report) (source : String → Option (List Char)) (format : Format) :
    Shows (r.render source format) r.counts format := by
  cases format with
  | text | pretty =>
    exact ⟨_, summaryColour r.counts, r.filesChecked, (String.append_assoc ..).symm⟩
  | json => exact ⟨r.withSummary, Json.parse?_pretty r.isExact_withSummary, rfl⟩
  | compact | flake8 => trivial

end Report

end PermissionLint
