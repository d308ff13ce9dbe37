/-
Texts taken apart at a separator.

A list without the separator is a part, and any other list is a part, the separator and a rest
(`separatedInduction`).  Of two parts with the separator behind them, or before them, each is
determined by the whole (`append_cons_inj_of_front`, `append_cons_inj_of_back`).
-/
import Mathlib.Data.List.Basic

namespace PermissionLint.Text

variable {α : Type}

/-- Induction on the parts of a list: the last one is not followed by the separator. -/
@[elab_as_elim]
theorem separatedInduction [DecidableEq α] (sep : α) {P : List α → Prop}
    (last : ∀ part, sep ∉ part → P part)
    (next : ∀ part rest, sep ∉ part → P rest → P (part ++ sep :: rest)) : ∀ l, P l := by
  intro l
  induction hn : l.length using Nat.strongRecOn generalizing l with
  | _ n ih =>
    subst hn
    by_cases hsep : sep ∈ l
    · obtain ⟨part, rest, rfl, hpart⟩ := List.eq_append_cons_of_mem hsep
      refine next part rest hpart (ih _ ?_ rest rfl)
      simp only [List.length_append, List.length_cons]
      omega
    · exact last l hsep

variable {sep : α} {a a' b b' : List α}

/-- What stands before the first separator, and what behind it. -/
lemma append_cons_inj_of_front (ha : sep ∉ a) (ha' : sep ∉ a') (h : a ++ sep :: b = a' ++ sep :: b') :
    a = a' ∧ b = b' := by
  -- the longer one of the parts would have the separator behind the shorter one
  rcases List.append_eq_append_iff.1 h with ⟨between, rfl, hbetween⟩ | ⟨between, rfl, hbetween⟩
  · cases between with
    | nil => exact ⟨(List.append_nil a).symm, (List.cons.inj hbetween).2⟩
    | cons x between =>
      obtain ⟨rfl, -⟩ := List.cons.inj hbetween
      exact absurd (List.mem_append_right a List.mem_cons_self) ha'
  · cases between with
    | nil => exact ⟨List.append_nil a', (List.cons.inj hbetween).2.symm⟩
    | cons x between =>
      obtain ⟨rfl, -⟩ := List.cons.inj hbetween
      exact absurd (List.mem_append_right a' List.mem_cons_self) ha

/-- What stands before the last separator, and what behind it. -/
lemma append_cons_inj_of_back (hb : sep ∉ b) (hb' : sep ∉ b') (h : a ++ sep :: b = a' ++ sep :: b') :
    a = a' ∧ b = b' := by
  have hreverse : b.reverse ++ sep :: a.reverse = b'.reverse ++ sep :: a'.reverse := by
    simpa using congrArg List.reverse h
  obtain ⟨hback, hfront⟩ :=
    append_cons_inj_of_front (by simpa using hb) (by simpa using hb') hreverse
  exact ⟨List.reverse_injective hfront, List.reverse_injective hback⟩

end PermissionLint.Text
