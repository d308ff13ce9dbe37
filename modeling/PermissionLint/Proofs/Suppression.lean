/-
Where comments suppress nothing.

The first directive on a line or on those that it is continued onto decides (`decide_succ`).  A
directive begins with a hash, so a text without any hash suppresses nothing (`decide_of_not_mem`).
-/
import Mathlib.Data.List.Basic
import PermissionLint.Suppression

namespace PermissionLint.Suppression

open PermissionLint.Text

/-- What is decided about a code if there is a directive or none. -/
def decisionOf (code : List Char) : Option Directive → Decision
  | some d => d.decide code
  | none => .active

lemma decide_succ (text : List Char) (n : Nat) (code : List Char) :
    decide text (n + 1) code
      = decisionOf code ((chain ((lines text).drop n)).findSome? parseDirective) := by
  rw [decide]
  cases (chain ((lines text).drop n)).findSome? parseDirective <;> rfl

lemma parseDirective_of_not_mem {line : List Char} (h : '#' ∉ line) :
    parseDirective line = none := by
  induction line with
  | nil => rfl
  | cons c cs ih =>
    obtain ⟨hc, hcs⟩ := not_or.1 (List.mem_cons.not.1 h)
    rw [parseDirective, if_neg (by simpa using Ne.symm hc), ih hcs]

lemma mem_of_mem_chain {line : List Char} {ls : List (List Char)} (h : line ∈ chain ls) :
    line ∈ ls := by
  induction ls with
  | nil => exact h
  | cons first rest ih =>
    rw [chain] at h
    split at h
    · rcases List.mem_cons.1 h with rfl | h
      · exact List.mem_cons_self
      · exact List.mem_cons_of_mem _ (ih h)
    · rw [List.mem_singleton.1 h]
      exact List.mem_cons_self

lemma mem_of_mem_chomp {c : Char} {line : List Char} (h : c ∈ chomp line) : c ∈ line := by
  rw [chomp] at h
  split at h
  · next rest heq =>
    rw [← List.mem_reverse, heq]
    exact List.mem_cons_of_mem _ (List.mem_cons_of_mem _ (List.mem_reverse.1 h))
  · next rest heq =>
    rw [← List.mem_reverse, heq]
    exact List.mem_cons_of_mem _ (List.mem_reverse.1 h)
  · exact h

/-- The characters of the lines of a text are characters of the text. -/
lemma mem_of_mem_lines {c : Char} {line text : List Char} (hline : line ∈ lines text)
    (hc : c ∈ line) : c ∈ text := by
  obtain ⟨whole, hwhole, rfl⟩ := List.mem_map.1 hline
  rw [← flatten_linesInclusive text]
  exact List.mem_flatten.2 ⟨whole, hwhole, mem_of_mem_chomp hc⟩

/-- **In a text without a hash nothing is suppressed.** -/
theorem decide_of_not_mem {text : List Char} (h : '#' ∉ text) (line : Nat) (code : List Char) :
    decide text line code = .active := by
  cases line with
  | zero => rfl
  | succ n =>
    have hnone : (chain ((lines text).drop n)).findSome? parseDirective = none := by
      rw [List.findSome?_eq_none_iff]
      intro l hl
      refine parseDirective_of_not_mem fun hc => h ?_
      exact mem_of_mem_lines (List.mem_of_mem_drop (mem_of_mem_chain hl)) hc
    rw [decide, hnone]

end PermissionLint.Suppression
