/-
Readings that a host goes on with in any order.

A reading first looks at the module and then hands out what it found, one report at a time.  Seen
from outside it is a list that gets shorter (`Reading.remaining`), and a step on one reading leaves
the lists of all others as they are (`Host.left_step`).  So what a reading has delivered and what it
has left are, at any time, all reports of the module (`Host.delivered_append_left`), and what it
answers depends on the steps on that reading alone (`Host.outputs_eq_readOff`).
-/
import Mathlib.Data.List.Basic
import PermissionLint.Permission.Host

namespace PermissionLint.Permission

open PermissionLint.Source PermissionLint.Model

/-! ## One reading -/

namespace Reading

/-- The reports that a reading has yet to deliver, whether or not it has looked at the module. -/
def remaining (r : Reading) : List HostReport := r.opened.findings.map .ofDiagnostic

lemma opened_opened (r : Reading) : r.opened.opened = r.opened := by
  obtain ⟨pending, findings⟩ := r
  cases pending <;> rfl

lemma opened_withFindings (r : Reading) (ds : List Diagnostic) :
    opened { r.opened with findings := ds } = { r.opened with findings := ds } := by
  obtain ⟨pending, findings⟩ := r
  cases pending <;> rfl

/-- The next report is the first one that is left. -/
lemma next_fst (r : Reading) : r.next.1 = r.remaining.head? := by
  rw [next, remaining]
  cases r.opened.findings <;> rfl

lemma remaining_next (r : Reading) : r.next.2.remaining = r.remaining.tail := by
  rw [next, remaining, remaining]
  cases hfindings : r.opened.findings with
  | nil =>
    dsimp only
    rw [opened_opened, hfindings]
    rfl
  | cons d ds =>
    dsimp only
    rw [opened_withFindings]
    rfl

@[simp] lemma remaining_rest (r : Reading) : r.rest.2.remaining = [] := by
  rw [rest, remaining]
  dsimp only
  rw [opened_withFindings]
  rfl

end Reading

namespace Host

/-! ## One step -/

/-- The step takes something from the reading. -/
def Step.concerns (i : Nat) : Step → Bool
  | .next j | .rest j => j == i
  | _ => false

/-- The reports that the answer to a step brings. -/
def Answer.brought : Answer → List HostReport
  | .report r => r.toList
  | .reports rs => rs
  | _ => []

/-- If the step takes something from a reading, then the reading is among the first `count` ones. -/
def Step.isWithin (count : Nat) : Step → Bool
  | .next i | .rest i => i < count
  | _ => true

/-- The number of readings that a step starts. -/
def Step.starts : Step → Nat
  | .run => 1
  | _ => 0

/-- The reports that a reading has left.  A reading that has not been started has all of them. -/
def left (h : Host) (i : Nat) : List HostReport :=
  (h.readings[i]?.map Reading.remaining).getD (hostReports h.module)

variable {h : Host} {s : Step} {i : Nat}

lemma length_step (h : Host) (s : Step) :
    (h.step s).2.readings.length = h.readings.length + s.starts := by
  cases s with
  | run => exact List.length_append
  | next j => rw [step]; split <;> simp [Step.starts]
  | rest j => rw [step]; split <;> simp [Step.starts]
  | _ => rfl

lemma left_of_getElem? {r : Reading} (hr : h.readings[i]? = some r) : h.left i = r.remaining := by
  rw [left, hr]
  rfl

/-- What is left of a reading after it has been replaced. -/
lemma left_set_self (hi : i < h.readings.length) (r : Reading) :
    left { h with readings := h.readings.set i r } i = r.remaining := by
  rw [left, List.getElem?_set_self hi]
  rfl

/-- A reading that is started has all reports left. -/
lemma left_run (h : Host) (i : Nat) : (h.step .run).2.left i = h.left i := by
  rw [step, left, left]
  rcases Nat.lt_trichotomy i h.readings.length with hlt | rfl | hgt
  · rw [List.getElem?_append_left hlt]
  · rw [List.getElem?_concat_length, List.getElem?_eq_none (Nat.le_refl _)]
    rfl
  · rw [List.getElem?_eq_none (Nat.le_of_lt hgt), List.getElem?_eq_none]
    rwa [List.length_append]

/-- A step on one reading does not touch the others. -/
lemma left_step (hother : s.concerns i = false) : (h.step s).2.left i = h.left i := by
  have hset : ∀ (j : Nat) (r : Reading), (j == i) = false →
      left { h with readings := h.readings.set j r } i = h.left i := by
    intro j r hne
    rw [left, left, List.getElem?_set_ne (by simpa using hne)]
  cases s with
  | fileName => rfl
  | info => rfl
  | run => exact left_run h i
  | next j =>
    rw [step]
    split
    · exact hset j _ hother
    · rfl
  | rest j =>
    rw [step]
    split
    · exact hset j _ hother
    · rfl

/-- The next report of a reading is the first one that is left, and is not left after that. -/
lemma step_next (hi : i < h.readings.length) :
    (h.step (.next i)).1 = .report (h.left i).head? ∧
      (h.step (.next i)).2.left i = (h.left i).tail := by
  have hr : h.readings[i]? = some h.readings[i] := List.getElem?_eq_getElem hi
  rw [step, hr, left_of_getElem? hr]
  dsimp only
  rw [left_set_self hi, Reading.next_fst, Reading.remaining_next]
  exact ⟨rfl, rfl⟩

/-- All that is left of a reading is delivered, and then there is nothing left. -/
lemma step_rest (hi : i < h.readings.length) :
    (h.step (.rest i)).1 = .reports (h.left i) ∧ (h.step (.rest i)).2.left i = [] := by
  have hr : h.readings[i]? = some h.readings[i] := List.getElem?_eq_getElem hi
  rw [step, hr, left_of_getElem? hr]
  dsimp only
  rw [left_set_self hi, Reading.remaining_rest]
  exact ⟨rfl, rfl⟩

/-- A step on a reading takes what it brings away from what is left. -/
lemma brought_append_left (hconcerns : s.concerns i = true)
    (hwithin : s.isWithin h.readings.length = true) :
    (h.step s).1.brought ++ (h.step s).2.left i = h.left i := by
  cases s with
  | next j =>
    obtain rfl : j = i := by simpa [Step.concerns] using hconcerns
    obtain ⟨hanswer, hleft⟩ := step_next (by simpa [Step.isWithin] using hwithin)
    rw [hanswer, hleft]
    cases h.left j <;> rfl
  | rest j =>
    obtain rfl : j = i := by simpa [Step.concerns] using hconcerns
    obtain ⟨hanswer, hleft⟩ := step_rest (by simpa [Step.isWithin] using hwithin)
    rw [hanswer, hleft]
    exact List.append_nil _
  | _ => cases hconcerns

/-! ## Many steps -/

/-- The host after some steps. -/
def after (h : Host) (steps : List Step) : Host := steps.foldl (fun h s => (h.step s).2) h

/-- Every step is about a reading that has been started, by one of the steps before it or as one of
the first `count` ones. -/
def areStarted : (count : Nat) → List Step → Bool
  | _, [] => true
  | count, s :: steps => s.isWithin count && areStarted (count + s.starts) steps

/-- The answers to the steps on one reading. -/
def outputs (h : Host) (i : Nat) (steps : List Step) : List Answer :=
  ((steps.zip (h.run steps)).filter fun p => p.1.concerns i).map Prod.snd

/-- The reports that one reading has delivered. -/
def delivered (h : Host) (i : Nat) (steps : List Step) : List HostReport :=
  (h.outputs i steps).flatMap Answer.brought

/-- What steps on a reading are answered, if it has the given reports left. -/
def readOff : List HostReport → List Step → List Answer
  | _, [] => []
  | reports, .next _ :: steps => .report reports.head? :: readOff reports.tail steps
  | reports, .rest _ :: steps => .reports reports :: readOff [] steps
  | reports, _ :: steps => readOff reports steps

variable {steps : List Step}

@[simp] lemma after_cons (h : Host) (s : Step) (steps : List Step) :
    h.after (s :: steps) = (h.step s).2.after steps := rfl

lemma run_cons (h : Host) (s : Step) (steps : List Step) :
    h.run (s :: steps) = (h.step s).1 :: (h.step s).2.run steps := rfl

lemma run_append (h : Host) (front back : List Step) :
    h.run (front ++ back) = h.run front ++ (h.after front).run back := by
  induction front generalizing h with
  | nil => rfl
  | cons s front ih => rw [List.cons_append, run_cons, run_cons, ih, after_cons, List.cons_append]

lemma length_run (h : Host) (steps : List Step) : (h.run steps).length = steps.length := by
  induction steps generalizing h with
  | nil => rfl
  | cons s steps ih => rw [run_cons, List.length_cons, List.length_cons, ih]

/-- The answer to a step after some others. -/
lemma getElem?_run (h : Host) (front : List Step) (s : Step) (back : List Step) :
    (h.run (front ++ s :: back))[front.length]? = some ((h.after front).step s).1 := by
  rw [run_append, List.getElem?_append_right (Nat.le_of_eq (length_run h front)), length_run,
    Nat.sub_self]
  rfl

lemma areStarted_append {count : Nat} {front back : List Step}
    (hstarted : areStarted count (front ++ back) = true) :
    areStarted count front = true ∧
      areStarted (front.foldl (fun n s => n + s.starts) count) back = true := by
  induction front generalizing count with
  | nil => exact ⟨rfl, hstarted⟩
  | cons s front ih =>
    rw [List.cons_append, areStarted, Bool.and_eq_true] at hstarted
    obtain ⟨hwithin, hrest⟩ := hstarted
    obtain ⟨hfront, hback⟩ := ih hrest
    rw [List.foldl_cons]
    exact ⟨by rw [areStarted, hwithin, hfront]; rfl, hback⟩

lemma length_after (h : Host) (steps : List Step) :
    (h.after steps).readings.length
      = steps.foldl (fun n s => n + s.starts) h.readings.length := by
  induction steps generalizing h with
  | nil => rfl
  | cons s steps ih => rw [after_cons, ih, length_step, List.foldl_cons]

lemma outputs_cons (h : Host) (i : Nat) (s : Step) (steps : List Step) :
    h.outputs i (s :: steps)
      = (if s.concerns i then [(h.step s).1] else []) ++ (h.step s).2.outputs i steps := by
  rw [outputs, run_cons, List.zip_cons_cons, List.filter_cons]
  split <;> rfl

/-- **What a reading has delivered and what it has left are all that it had.** -/
theorem delivered_append_left (hstarted : areStarted h.readings.length steps = true) (i : Nat) :
    h.delivered i steps ++ (h.after steps).left i = h.left i := by
  induction steps generalizing h with
  | nil => rfl
  | cons s steps ih =>
    rw [areStarted, Bool.and_eq_true, ← length_step] at hstarted
    obtain ⟨hwithin, hrest⟩ := hstarted
    have ih : (h.step s).2.delivered i steps ++ _ = _ := ih hrest
    rw [delivered, outputs_cons, List.flatMap_append, List.append_assoc]
    change _ ++ ((h.step s).2.delivered i steps ++ _) = _
    rw [after_cons, ih]
    cases hconcerns : s.concerns i with
    | true =>
      rw [if_pos rfl, List.flatMap_singleton]
      exact brought_append_left hconcerns hwithin
    | false =>
      rw [if_neg (by simp)]
      exact left_step hconcerns

/-- **The answers of a reading are those of a list that is read off by the steps on it.** -/
theorem outputs_eq_readOff (hstarted : areStarted h.readings.length steps = true) (i : Nat) :
    h.outputs i steps = readOff (h.left i) (steps.filter (·.concerns i)) := by
  induction steps generalizing h with
  | nil => rfl
  | cons s steps ih =>
    rw [areStarted, Bool.and_eq_true, ← length_step] at hstarted
    obtain ⟨hwithin, hrest⟩ := hstarted
    rw [outputs_cons, ih hrest, List.filter_cons]
    cases hconcerns : s.concerns i with
    | false =>
      rw [if_neg (by simp), if_neg (by simp), left_step hconcerns]
      rfl
    | true =>
      rw [if_pos rfl, if_pos rfl]
      cases s with
      | next j =>
        obtain rfl : j = i := by simpa [Step.concerns] using hconcerns
        obtain ⟨hanswer, hleft⟩ := step_next (by simpa [Step.isWithin] using hwithin)
        rw [hanswer, hleft]
        rfl
      | rest j =>
        obtain rfl : j = i := by simpa [Step.concerns] using hconcerns
        obtain ⟨hanswer, hleft⟩ := step_rest (by simpa [Step.isWithin] using hwithin)
        rw [hanswer, hleft]
        rfl
      | _ => cases hconcerns

/-- A reading with nothing left gets nothing back. -/
lemma left_after_eq_nil (hstarted : areStarted h.readings.length steps = true)
    (hnil : h.left i = []) : (h.after steps).left i = [] := by
  have happend := delivered_append_left hstarted i
  rw [hnil] at happend
  exact (List.append_eq_nil_iff.1 happend).2

/-- A reading that is asked for its next report answers that there is none if nothing is left. -/
lemma getElem?_run_next {front back : List Step}
    (hstarted : areStarted h.readings.length (front ++ .next i :: back) = true) :
    (h.run (front ++ .next i :: back))[front.length]? = some (.report none) ↔
      (h.after front).left i = [] := by
  obtain ⟨-, hback⟩ := areStarted_append hstarted
  rw [← length_after, areStarted, Bool.and_eq_true] at hback
  have hi : i < (h.after front).readings.length := by simpa [Step.isWithin] using hback.1
  rw [getElem?_run, (step_next hi).1, Option.some_inj, Answer.report.injEq, List.head?_eq_none_iff]

/-- **Readings of the same reports do not disturb each other**, in whatever order a host goes on
with them.  Every reading delivers the findings of the check, in their order and from the first one
on.  It answers that there is no next report exactly when it has delivered all of them, and goes on
to do so.  Its answers are the same whatever is done with the other readings. -/
theorem run_interleaved {steps : List Step} (hstarted : areStarted 0 steps = true) (m : Module)
    (fileName : String) (i : Nat) :
    let host : Host := ⟨m, fileName, []⟩
    let all : List HostReport :=
      (checkModule m).map fun d => ⟨d.position, Permission.message, Permission.reporter⟩
    host.delivered i steps <+: all ∧
      (∀ front back, steps = front ++ .next i :: back →
        ((host.run steps)[front.length]? = some (.report none) ↔
          host.delivered i front = all)) ∧
      (∀ front between back, steps = front ++ .next i :: (between ++ .next i :: back) →
        (host.run steps)[front.length]? = some (.report none) →
        (host.run steps)[front.length + 1 + between.length]? = some (.report none)) ∧
      ∀ others, areStarted 0 others = true →
        others.filter (·.concerns i) = steps.filter (·.concerns i) →
        host.outputs i others = host.outputs i steps := by
  intro host all
  have hall : host.left i = all := rfl
  replace hstarted : areStarted host.readings.length steps = true := hstarted
  refine ⟨?_, ?_, ?_, ?_⟩
  · exact ⟨(host.after steps).left i, (delivered_append_left hstarted i).trans hall⟩
  · rintro front back rfl
    have happend := (delivered_append_left (areStarted_append hstarted).1 i).trans hall
    rw [getElem?_run_next hstarted, ← happend]
    constructor
    · intro hnil
      rw [hnil, List.append_nil]
    · intro heq
      exact List.self_eq_append_right.1 heq
  · rintro front between back rfl hnone
    have hnil := (getElem?_run_next hstarted).1 hnone
    -- nothing is left after the first `none`, so nothing is left at the second one
    have hsplit : front ++ .next i :: (between ++ .next i :: back)
        = (front ++ .next i :: between) ++ .next i :: back := by simp
    have hlength : front.length + 1 + between.length = (front ++ .next i :: between).length := by
      simp only [List.length_append, List.length_cons]
      omega
    rw [hsplit] at hstarted ⊢
    rw [hlength, getElem?_run_next hstarted]
    have hbetween := (areStarted_append (areStarted_append hstarted).1).2
    rw [← length_after] at hbetween
    have hafter : host.after (front ++ .next i :: between)
        = (host.after front).after (.next i :: between) := List.foldl_append
    rw [hafter]
    exact left_after_eq_nil hbetween hnil
  · intro others hothers hsame
    rw [outputs_eq_readOff hstarted, outputs_eq_readOff (h := host) hothers, hsame]

set_option maxRecDepth 10000 in
/-- Two readings of two reports.  The first one is through when both have been taken, and stays so;
the second one is answered as if the first one had never been touched. -/
theorem run_interleaved_two :
    let openClass (line : Nat) : Stmt := .classDef "V" []
      [.assign [.name attributeName ⟨line + 1, 4⟩] (.list [] ⟨line + 1, 25⟩) ⟨line + 1, 4⟩]
      ⟨line, 0⟩
    let m : Module := ⟨[openClass 1, openClass 3]⟩
    let host : Host := ⟨m, "views.py", []⟩
    let steps : List Step :=
      [.run, .next 0, .run, .next 1, .rest 0, .next 0, .next 1, .next 0, .next 1]
    areStarted 0 steps = true ∧
      host.delivered 0 (steps.take 5) = [⟨⟨2, 4⟩, message, reporter⟩, ⟨⟨4, 4⟩, message, reporter⟩] ∧
      (host.run steps)[5]? = some (.report none) ∧
      (host.run steps)[7]? = some (.report none) ∧
      host.outputs 1 [.run, .run, .next 1, .next 1, .next 1] = host.outputs 1 steps := by
  intro openClass m host steps
  have hstarted : areStarted 0 steps = true := by decide
  have hdelivered : host.delivered 0 (steps.take 5)
      = [⟨⟨2, 4⟩, message, reporter⟩, ⟨⟨4, 4⟩, message, reporter⟩] := by decide +kernel
  obtain ⟨-, hnone, hstays, -⟩ := run_interleaved hstarted m "views.py" 0
  obtain ⟨-, -, -, hothers⟩ := run_interleaved hstarted m "views.py" 1
  have hfirst : (host.run steps)[5]? = some (.report none) :=
    (hnone (steps.take 5) _ rfl).2 (hdelivered.trans (by decide +kernel))
  exact ⟨hstarted, hdelivered, hfirst, hstays (steps.take 5) [.next 1] [.next 1] rfl hfirst,
    hothers _ (by decide) (by decide)⟩

end Host

end PermissionLint.Permission
