/-
Stable sorting.

A list is a stable sort of another one if it is in order and, of the elements that are tied with any
given one, it holds those of the other list in their order.  That leaves no choice
(`IsStableSort.eq_mergeSort`), and `List.mergeSort` gives such a list
(`IsOrder.isStableSort_mergeSort`).

So a list that is known to be a stable sort is what `List.mergeSort` gives, however it came about.
In particular groups that come in order can be sorted one by one (`IsStableSort.flatMap`).
-/
import Mathlib.Data.List.Basic

namespace PermissionLint

variable {α β : Type} {le : α → α → Bool}

/-- Neither element comes before the other one. -/
def isTied (le : α → α → Bool) (x y : α) : Bool := le x y && le y x

/-- The second list is the first one in order, where elements that are tied stay as they are. -/
structure IsStableSort (le : α → α → Bool) (l s : List α) : Prop where
  sorted : s.Pairwise fun x y => le x y = true
  stable : ∀ x, s.filter (isTied le x) = l.filter (isTied le x)

/-- Any two elements can be compared, and the comparison is transitive. -/
structure IsOrder (le : α → α → Bool) : Prop where
  trans : ∀ x y z, le x y = true → le y z = true → le x z = true
  total : ∀ x y, (le x y || le y x) = true

namespace IsOrder

variable (h : IsOrder le)

include h

lemma refl (x : α) : le x x = true := by simpa using h.total x x

lemma isTied_self (x : α) : isTied le x x = true := by simp [isTied, h.refl x]

/-- Elements that are tied with the same one are in order, whichever comes first. -/
lemma le_of_isTied {x y z : α} (hy : isTied le x y = true) (hz : isTied le x z = true) :
    le y z = true := by
  simp only [isTied, Bool.and_eq_true] at hy hz
  exact h.trans y x z hy.2 hz.1

/-- **Sorting by merging is stable.** -/
theorem isStableSort_mergeSort (l : List α) : IsStableSort le l (l.mergeSort le) := by
  refine ⟨List.pairwise_mergeSort h.trans h.total l, fun x => ?_⟩
  have hpairwise : (l.filter (isTied le x)).Pairwise fun y z => le y z = true := by
    refine List.pairwise_of_forall_mem_list fun y hy z hz => ?_
    exact h.le_of_isTied (List.mem_filter.1 hy).2 (List.mem_filter.1 hz).2
  have hsub : (l.filter (isTied le x)).Sublist ((l.mergeSort le).filter (isTied le x)) := by
    have hsort := List.sublist_mergeSort h.trans h.total hpairwise List.filter_sublist
    simpa using hsort.filter (isTied le x)
  exact (hsub.eq_of_length ((List.mergeSort_perm l le).filter _).length_eq.symm).symm

end IsOrder

namespace IsStableSort

variable {l s t : List α}

lemma mem_iff (h : IsOrder le) (hs : IsStableSort le l s) {x : α} : x ∈ s ↔ x ∈ l := by
  have hfilter := hs.stable x
  constructor
  · intro hx
    have hx : x ∈ s.filter (isTied le x) := List.mem_filter.2 ⟨hx, h.isTied_self x⟩
    rw [hfilter] at hx
    exact (List.mem_filter.1 hx).1
  · intro hx
    have hx : x ∈ l.filter (isTied le x) := List.mem_filter.2 ⟨hx, h.isTied_self x⟩
    rw [← hfilter] at hx
    exact (List.mem_filter.1 hx).1

/-- The first element is in order with all elements. -/
lemma head_le {x y : α} (h : IsOrder le) (hs : IsStableSort le l (x :: s)) (hy : y ∈ l) :
    le x y = true := by
  rcases List.mem_cons.1 ((hs.mem_iff h).2 hy) with rfl | hy
  · exact h.refl y
  · exact (List.pairwise_cons.1 hs.sorted).1 y hy

/-- Sorting what is in order already changes nothing. -/
lemma eq_of_sorted (h : IsOrder le) (hs : IsStableSort le t s)
    (ht : t.Pairwise fun x y => le x y = true) : s = t := by
  induction s generalizing t with
  | nil =>
    refine (List.eq_nil_iff_forall_not_mem.2 fun x hx => ?_).symm
    exact List.not_mem_nil ((hs.mem_iff h).2 hx)
  | cons x s ih =>
    cases t with
    | nil => exact absurd ((hs.mem_iff h).1 List.mem_cons_self) List.not_mem_nil
    | cons y t =>
      have hself : IsStableSort le (y :: t) (y :: t) := ⟨ht, fun _ => rfl⟩
      -- each of the two first elements is in order with the other one
      have htied : isTied le x y = true := by
        rw [isTied, hs.head_le h List.mem_cons_self,
          hself.head_le h ((hs.mem_iff h).1 List.mem_cons_self)]
        rfl
      have hhead := hs.stable x
      rw [List.filter_cons_of_pos (h.isTied_self x), List.filter_cons_of_pos htied] at hhead
      obtain rfl : x = y := (List.cons.inj hhead).1
      have htail : IsStableSort le t s := by
        refine ⟨hs.sorted.tail, fun z => ?_⟩
        have hz := hs.stable z
        rw [List.filter_cons, List.filter_cons] at hz
        split at hz
        · exact (List.cons.inj hz).2
        · exact hz
      rw [ih htail ht.tail]

/-- **There is only one stable sort of a list**, which merging gives. -/
theorem eq_mergeSort (h : IsOrder le) (hs : IsStableSort le l s) : s = l.mergeSort le := by
  have hl := h.isStableSort_mergeSort l
  refine eq_of_sorted h ⟨hs.sorted, fun x => ?_⟩ hl.sorted
  rw [hs.stable, hl.stable]

lemma perm (h : IsOrder le) (hs : IsStableSort le l s) : s.Perm l := by
  rw [hs.eq_mergeSort h]
  exact List.mergeSort_perm l le

/-- Elements that are left out make no difference to the others. -/
lemma filter (hs : IsStableSort le l s) (p : α → Bool) :
    IsStableSort le (l.filter p) (s.filter p) := by
  refine ⟨hs.sorted.filter p, fun x => ?_⟩
  rw [List.filter_comm, hs.stable, List.filter_comm]

/-- Groups that come in order can be sorted one by one. -/
lemma flatMap {groups : List β} {f g : β → List α}
    (hsort : ∀ b ∈ groups, IsStableSort le (f b) (g b))
    (hle : groups.Pairwise fun b c => ∀ x ∈ g b, ∀ y ∈ g c, le x y = true) :
    IsStableSort le (groups.flatMap f) (groups.flatMap g) := by
  refine ⟨?_, fun x => ?_⟩
  · rw [List.pairwise_flatMap]
    exact ⟨fun b hb => (hsort b hb).sorted, hle⟩
  · rw [List.filter_flatMap, List.filter_flatMap]
    exact List.flatMap_congr fun b hb => (hsort b hb).stable x

/-- Elements that are tied with the same one are all the same if there are no ties. -/
lemma eq_nil_or_singleton (h : IsOrder le) {l : List α} {x : α}
    (hl : l.Pairwise fun y z => isTied le y z = false) :
    l.filter (isTied le x) = [] ∨ ∃ y, l.filter (isTied le x) = [y] := by
  have hfilter := hl.filter (isTied le x)
  have htied : ∀ y ∈ l.filter (isTied le x), isTied le x y = true := by
    intro y hy
    exact (List.mem_filter.1 hy).2
  generalize l.filter (isTied le x) = m at hfilter htied
  cases m with
  | nil => exact .inl rfl
  | cons y m =>
    cases m with
    | nil => exact .inr ⟨y, rfl⟩
    | cons z m =>
      have hy := htied y List.mem_cons_self
      have hz := htied z (List.mem_cons_of_mem y List.mem_cons_self)
      have hne := (List.pairwise_cons.1 hfilter).1 z List.mem_cons_self
      rw [isTied, h.le_of_isTied hy hz, h.le_of_isTied hz hy] at hne
      cases hne

lemma filter_flatMap_replicate (p : α → Bool) (n : Nat) (l : List α) :
    (l.flatMap (List.replicate n)).filter p = (l.filter p).flatMap (List.replicate n) := by
  induction l with
  | nil => rfl
  | cons x l ih =>
    rw [List.flatMap_cons, List.filter_append, ih, List.filter_replicate, List.filter_cons]
    split
    · rw [List.flatMap_cons]
    · rfl

/-- If groups without ties are repeated, then so is each element of their sort. -/
lemma replicate (h : IsOrder le) {groups : List β} {f : β → List α}
    (hf : ∀ b ∈ groups, (f b).Pairwise fun x y => isTied le x y = false)
    (hs : IsStableSort le (groups.flatMap f) s) (n : Nat) :
    IsStableSort le (groups.flatMap fun b => (List.replicate n (f b)).flatten)
      (s.flatMap (List.replicate n)) := by
  refine ⟨?_, fun x => ?_⟩
  · rw [List.pairwise_flatMap]
    refine ⟨fun y _ => List.pairwise_replicate.2 (.inr (h.refl y)), hs.sorted.imp ?_⟩
    intro y z hle y' hy' z' hz'
    rw [List.eq_of_mem_replicate hy', List.eq_of_mem_replicate hz']
    exact hle
  · rw [filter_flatMap_replicate, hs.stable, List.filter_flatMap, List.filter_flatMap,
      List.flatMap_assoc]
    refine List.flatMap_congr fun b hb => ?_
    rw [List.filter_flatten, List.map_replicate]
    -- in each group at most one element is tied with `x`
    rcases eq_nil_or_singleton h (hf b hb) with hnil | ⟨y, hy⟩
    · rw [hnil]
      simp
    · rw [hy]
      simp

end IsStableSort

end PermissionLint
