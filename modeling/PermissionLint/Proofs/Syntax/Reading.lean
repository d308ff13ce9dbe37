/-
Reasoning about reading, pattern by pattern.

`Ensures n P p Q` says that reading by `p`, at most `n` deep, leads from states with `P` to states
with `Q`, if it leads anywhere.  There is one lemma for each way to build patterns.  Rules may be
recursive, and what they ensure is shown from what they ensure one step less deep
(`ensures_rules`).  So a fact about reading is an induction on patterns, and depths do not show.
-/
import PermissionLint.Proofs.Syntax.Frames

namespace PermissionLint.Syntax.Pattern

variable {ρ : Type} (grammar : ρ → Pattern ρ)

/-- Reading by the pattern, at most `n` deep, leads from the one property to the other. -/
def Ensures (n : Nat) (P : Reader → Prop) (p : Pattern ρ) (Q : Reader → Prop) : Prop :=
  ∀ fuel ≤ n, ∀ e r s, P r → read grammar fuel e p r = .ok s → Q s

variable {grammar} {n : Nat} {P Q Q' : Reader → Prop} {p q : Pattern ρ}

/-- Only reading that is at least one deep leads anywhere. -/
lemma ensures_of_succ
    (h : ∀ fuel < n, ∀ e r s, P r → read grammar (fuel + 1) e p r = .ok s → Q s) :
    Ensures grammar n P p Q := by
  intro fuel hfuel e r s hr hread
  cases fuel with
  | zero => simp [read] at hread
  | succ fuel => exact h fuel hfuel e r s hr hread

lemma Ensures.mono (h : Ensures grammar n P p Q) (hQ : ∀ s, Q s → Q' s) :
    Ensures grammar n P p Q' :=
  fun fuel hfuel e r s hr hread => hQ s (h fuel hfuel e r s hr hread)

/-! ## Single steps -/

/-- A step that may fail. -/
lemma ensures_step {step : Reader → Option Reader}
    (hread : ∀ fuel e r, read grammar (fuel + 1) e p r = .ofOption r (step r))
    (h : ∀ r s, P r → step r = some s → Q s) : Ensures grammar n P p Q := by
  refine ensures_of_succ fun fuel _ e r s hr hok => h r s hr ?_
  rw [hread] at hok
  exact Outcome.ofOption_eq_ok hok

/-- A step that cannot fail. -/
lemma ensures_update {update : Ending → Reader → Reader}
    (hread : ∀ fuel e r, read grammar (fuel + 1) e p r = .ok (update e r))
    (h : ∀ e r, P r → Q (update e r)) : Ensures grammar n P p Q := by
  refine ensures_of_succ fun fuel _ e r s hr hok => ?_
  rw [hread] at hok
  cases hok
  exact h e r hr

/-- A look that changes nothing. -/
lemma ensures_test {test : Nat → Ending → Reader → Bool}
    (hread : ∀ fuel e r, read grammar (fuel + 1) e p r
      = if test fuel e r then .ok r else .error r.reached) :
    Ensures grammar n P p P := by
  refine ensures_of_succ fun fuel _ e r s hr hok => ?_
  rw [hread] at hok
  split at hok
  · cases hok
    exact hr
  · cases hok

/-! ## Patterns that are made of others -/

lemma Ensures.seq {R : Reader → Prop} (hp : Ensures grammar n P p R)
    (hq : Ensures grammar n R q Q) : Ensures grammar n P (seq p q) Q := by
  refine ensures_of_succ fun fuel hfuel e r s hr hread => ?_
  simp only [read] at hread
  split at hread
  · next t ht => exact hq fuel (by omega) e t s (hp fuel (by omega) e r t hr ht) hread
  · cases hread

/-- A failure leaves a note in the state, which the property must not see. -/
lemma Ensures.alt (hp : Ensures grammar n P p Q) (hq : Ensures grammar n P q Q)
    (hreached : ∀ r m, P r → P { r with reached := m }) : Ensures grammar n P (alt p q) Q := by
  refine ensures_of_succ fun fuel hfuel e r s hr hread => ?_
  simp only [read] at hread
  split at hread
  · next t ht =>
    cases hread
    exact hp fuel (by omega) e r s hr ht
  · exact hq fuel (by omega) e _ s (hreached r _ hr) hread

/-- What one round keeps, any number of rounds keeps. -/
lemma Ensures.many (hp : Ensures grammar n P p P)
    (hreached : ∀ r m, P r → P { r with reached := m }) : Ensures grammar n P (many p) P := by
  intro fuel
  induction fuel with
  | zero =>
    intro _ e r s _ hread
    simp [read] at hread
  | succ fuel ih =>
    intro hfuel e r s hr hread
    simp only [read] at hread
    split at hread
    · next t ht => exact ih (by omega) e t s (hp fuel (by omega) e r t hr ht) hread
    · cases hread
      exact hreached r _ hr

lemma ensures_ahead (fits : Bool) : Ensures grammar n P (ahead fits p) P := by
  refine ensures_of_succ fun fuel _ e r s hr hread => ?_
  simp only [read] at hread
  split at hread <;> split at hread <;> cases hread <;> exact hr

/-- In a frame of its own a pattern starts without nodes.  Those from before come back below what it
has added, which may have changed until then. -/
lemma ensures_inner (change : List Node → List Node)
    (hread : ∀ fuel e r, read grammar (fuel + 1) e q r
      = match read grammar fuel e p { r with nodes := [] } with
        | .ok s => .ok { s with nodes := change s.nodes ++ r.nodes }
        | .error m => .error m)
    (hp : ∀ old, Ensures grammar n (fun r => r.nodes = [] ∧ P { r with nodes := old }) p
      fun s => Q { s with nodes := change s.nodes ++ old }) : Ensures grammar n P q Q := by
  refine ensures_of_succ fun fuel hfuel e r s hr hok => ?_
  rw [hread] at hok
  split at hok
  · next t ht =>
    cases hok
    exact hp r.nodes fuel (by omega) e { r with nodes := [] } t ⟨rfl, hr⟩ ht
  · cases hok

lemma Ensures.ending (hp : Ensures grammar n P p Q) (e' : Ending) :
    Ensures grammar n P (ending e' p) Q :=
  ensures_of_succ fun fuel hfuel _ r s hr hread => hp fuel (by omega) e' r s hr hread

/-! ## Rules -/

/-- **What rules ensure follows from what they ensure one step less deep.** -/
theorem ensures_rules {ι : Type} {pre post : ρ → ι → Reader → Prop}
    (h : ∀ n, (∀ r i, Ensures grammar n (pre r i) (rule r) (post r i)) →
      ∀ r i, Ensures grammar n (pre r i) (grammar r) (post r i)) (n : Nat) (r : ρ) (i : ι) :
    Ensures grammar n (pre r i) (rule r) (post r i) := by
  induction n generalizing r i with
  | zero => exact ensures_of_succ fun _ hfuel => absurd hfuel (Nat.not_lt_zero _)
  | succ n ih =>
    refine ensures_of_succ fun fuel hfuel e s t hs hread => ?_
    exact h n ih r i fuel (by omega) e s t hs hread

end PermissionLint.Syntax.Pattern
