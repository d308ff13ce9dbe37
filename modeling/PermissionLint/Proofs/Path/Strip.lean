/-
Taking paths apart.

A path is the sequence of its parts, and its components are read off the parts that are not void.
Trimming a path at either end drops void parts only, so it keeps the components.  Hence if the
components of a path begin with those of another one, taking these away leaves a path that has the
other components (`exists_stripPrefix?`).
-/
import Mathlib.Data.List.TakeWhile
import PermissionLint.Path

namespace PermissionLint.Path

/-! ## Parts -/

lemma bne_of_not_mem {part : List Char} (h : '/' ∉ part) : ∀ c ∈ part, (c != '/') = true := by
  intro c hc
  rw [bne_iff_ne]
  rintro rfl
  exact h hc

lemma takeWhile_part {part : List Char} (h : '/' ∉ part) (rest : Path) :
    (part ++ '/' :: rest).takeWhile (· != '/') = part := by
  rw [List.takeWhile_append_of_pos (bne_of_not_mem h)]
  simp

lemma splitFirst_part {part : List Char} (h : '/' ∉ part) : splitFirst part = (part, []) := by
  rw [splitFirst, List.takeWhile_eq_self_iff.2 (bne_of_not_mem h),
    List.dropWhile_eq_nil_iff.2 (bne_of_not_mem h)]
  rfl

lemma splitFirst_append {part : List Char} (h : '/' ∉ part) (rest : Path) :
    splitFirst (part ++ '/' :: rest) = (part, rest) := by
  rw [splitFirst, takeWhile_part h, List.dropWhile_append_of_pos (bne_of_not_mem h)]
  rfl

/-- A path ends with its first part, or it goes on behind a separator. -/
lemma splitFirst_cases (p : Path) :
    ('/' ∉ p ∧ splitFirst p = (p, [])) ∨
      ∃ part rest, p = part ++ '/' :: rest ∧ '/' ∉ part ∧ splitFirst p = (part, rest) := by
  by_cases hslash : '/' ∈ p
  · obtain ⟨part, rest, rfl, hpart⟩ := List.eq_append_cons_of_mem hslash
    exact .inr ⟨part, rest, rfl, hpart, splitFirst_append hpart rest⟩
  · exact .inl ⟨hslash, splitFirst_part hslash⟩

/-- The part at the end of a path. -/
def lastPart (p : Path) : List Char := (p.reverse.takeWhile (· != '/')).reverse

/-- A path is its last part, or something stands before it and a separator. -/
lemma lastPart_cases (p : Path) :
    ('/' ∉ p ∧ lastPart p = p) ∨
      ∃ front part, p = front ++ '/' :: part ∧ '/' ∉ part ∧ lastPart p = part := by
  by_cases hslash : '/' ∈ p.reverse
  · obtain ⟨part, front, hp, hpart⟩ := List.eq_append_cons_of_mem hslash
    refine .inr ⟨front.reverse, part.reverse, ?_, by simpa using hpart, ?_⟩
    · rw [← List.reverse_reverse p, hp]
      simp
    · rw [lastPart, hp, takeWhile_part hpart]
  · refine .inl ⟨by simpa using hslash, ?_⟩
    rw [lastPart, List.takeWhile_eq_self_iff.2 (bne_of_not_mem hslash), List.reverse_reverse]

lemma lastPart_append (a b : Path) : lastPart (a ++ '/' :: b) = lastPart b := by
  have hb : lastPart b = (b.reverse.takeWhile (· != '/')).reverse := rfl
  rw [lastPart, hb, List.reverse_append, List.reverse_cons, List.append_assoc]
  congr 1
  by_cases hslash : '/' ∈ b.reverse
  · obtain ⟨part, front, hp, hpart⟩ := List.eq_append_cons_of_mem hslash
    rw [hp, List.append_assoc, List.cons_append, takeWhile_part hpart, takeWhile_part hpart]
  · rw [List.singleton_append, takeWhile_part hslash,
      List.takeWhile_eq_self_iff.2 (bne_of_not_mem hslash)]

lemma innerComponents_append (a b : Path) :
    innerComponents (a ++ '/' :: b) = innerComponents a ++ innerComponents b := by
  rw [innerComponents, parts, List.splitOn_append_cons_self, List.filter_append, List.map_append]
  rfl

lemma innerComponents_part {part : List Char} (h : '/' ∉ part) :
    innerComponents part = if isVoid part then [] else [componentOf part] := by
  rw [innerComponents, parts, List.splitOn_eq_singleton h]
  cases hvoid : isVoid part <;> simp [hvoid]

@[simp] lemma innerComponents_nil : innerComponents [] = [] := rfl

/-- The components of a path are that of its first part and those of the rest. -/
lemma innerComponents_eq (p : Path) :
    p.innerComponents = (if isVoid (splitFirst p).1 then [] else [componentOf (splitFirst p).1])
      ++ innerComponents (splitFirst p).2 := by
  rcases splitFirst_cases p with ⟨hp, hsplit⟩ | ⟨part, rest, hp, hpart, hsplit⟩
  · rw [hsplit, innerComponents_nil, List.append_nil]
    exact innerComponents_part hp
  · rw [hsplit, ← innerComponents_part hpart, ← innerComponents_append, ← hp]

/-- The last component is that of the last part, if this counts. -/
lemma exists_innerComponents_append {p : Path} (h : isVoid (lastPart p) = false) :
    ∃ init, p.innerComponents = init ++ [componentOf (lastPart p)] := by
  rcases lastPart_cases p with ⟨hp, hlast⟩ | ⟨front, part, rfl, hpart, hlast⟩
  · rw [hlast] at h ⊢
    exact ⟨[], by rw [innerComponents_part hp, if_neg (by simp [h])]; rfl⟩
  · rw [hlast] at h ⊢
    exact ⟨innerComponents front,
      by rw [innerComponents_append, innerComponents_part hpart, if_neg (by simp [h])]⟩

/-! ## Trimming -/

lemma innerComponents_trimFront (fuel : Nat) (p : Path) :
    innerComponents (trimFront fuel p) = innerComponents p := by
  induction fuel generalizing p with
  | zero => rfl
  | succ fuel ih =>
    rw [trimFront]
    split
    · rfl
    split
    · next hvoid => rw [ih, innerComponents_eq p, if_pos hvoid, List.nil_append]
    · rfl

/-- The path is empty, or it begins with a part that is not void. -/
def BeginsFirm (p : Path) : Prop := p = [] ∨ isVoid (splitFirst p).1 = false

lemma beginsFirm_trimFront {fuel : Nat} {p : Path} (h : p.length ≤ fuel) :
    BeginsFirm (trimFront fuel p) := by
  induction fuel generalizing p with
  | zero => exact .inl (List.length_eq_zero_iff.1 (Nat.le_zero.1 h))
  | succ fuel ih =>
    rw [trimFront]
    split
    · next hnil => exact .inl (List.isEmpty_iff.1 hnil)
    · next hnil =>
      split
      · refine ih ?_
        rcases splitFirst_cases p with ⟨-, hsplit⟩ | ⟨part, rest, hp, -, hsplit⟩
        · simp [hsplit]
        · rw [hsplit]
          have hlength := congrArg List.length hp
          rw [List.length_append, List.length_cons] at hlength
          change rest.length ≤ fuel
          omega
      · next hvoid => exact .inr (by simpa using hvoid)

/-- A path that begins with a part that counts has no component before that. -/
lemma components_of_beginsFirm {p : Path} (h : BeginsFirm p) :
    p.components = p.innerComponents := by
  rcases h with rfl | h
  · rfl
  · have habsolute : p.isAbsolute = false := by
      cases p with
      | nil => rfl
      | cons c cs =>
        by_contra habsolute
        have hc : c = '/' := by simpa [isAbsolute] using habsolute
        subst hc
        simp [splitFirst, isVoid] at h
    have hcurrent : p.beginsCurrent = false := by
      rw [isVoid, Bool.or_eq_false_iff] at h
      exact h.2
    rw [components, habsolute, hcurrent]
    rfl

/-- What stands before the last part and its separator. -/
def beforeLast (p : Path) : Path := p.take (p.length - (lastPart p).length - 1)

/-- One step of trimming at the back, behind characters that are kept. -/
lemma trimBack_append_succ (kept : List Char) (fuel : Nat) (p : Path) :
    trimBack kept.length (fuel + 1) (kept ++ p)
      = if p.isEmpty then kept ++ p
        else if isVoid (lastPart p) then trimBack kept.length fuel (kept ++ beforeLast p)
        else kept ++ p := by
  rw [trimBack, List.drop_left]
  refine if_congr ?_ rfl (if_congr Iff.rfl ?_ rfl)
  · rw [List.length_append, List.isEmpty_iff, ← List.length_eq_zero_iff]
    omega
  · have htake : ∀ n, (kept ++ p).take (max kept.length ((kept ++ p).length - n - 1))
        = kept ++ p.take (p.length - n - 1) := by
      intro n
      rw [List.take_append, List.take_of_length_le (by omega), List.length_append]
      congr 2
      omega
    exact congrArg _ (htake _)

lemma trimBack_succ (fuel : Nat) (p : Path) :
    trimBack 0 (fuel + 1) p
      = if p.isEmpty then p
        else if isVoid (lastPart p) then trimBack 0 fuel (beforeLast p) else p :=
  trimBack_append_succ [] fuel p

lemma beforeLast_part {p : Path} (hlast : lastPart p = p) : beforeLast p = [] := by
  rw [beforeLast, hlast, Nat.sub_self]
  rfl

lemma beforeLast_append {front : Path} {part : List Char}
    (hlast : lastPart (front ++ '/' :: part) = part) :
    beforeLast (front ++ '/' :: part) = front := by
  have hlength : (front ++ '/' :: part).length - part.length - 1 = front.length := by
    rw [List.length_append, List.length_cons]
    omega
  rw [beforeLast, hlast, hlength, List.take_left]

/-- What trimming does at the back: it drops void parts, one at a time. -/
lemma trimBack_induction {Q : Path → Prop}
    (hpart : ∀ part, '/' ∉ part → isVoid part = true → Q part → Q [])
    (hcut : ∀ front part, '/' ∉ part → isVoid part = true → Q (front ++ '/' :: part) → Q front)
    (fuel : Nat) {p : Path} (h : Q p) : Q (trimBack 0 fuel p) := by
  induction fuel generalizing p with
  | zero => exact h
  | succ fuel ih =>
    rw [trimBack_succ]
    split
    · exact h
    split
    · next hvoid =>
      refine ih ?_
      rcases lastPart_cases p with ⟨hp, hlast⟩ | ⟨front, part, rfl, hpart', hlast⟩
      · rw [beforeLast_part hlast]
        rw [hlast] at hvoid
        exact hpart p hp hvoid h
      · rw [beforeLast_append hlast]
        rw [hlast] at hvoid
        exact hcut front part hpart' hvoid h
    · exact h

lemma innerComponents_trimBack (fuel : Nat) (p : Path) :
    innerComponents (trimBack 0 fuel p) = innerComponents p := by
  refine trimBack_induction (Q := fun q => innerComponents q = innerComponents p) ?_ ?_ fuel rfl
  · intro part hpart hvoid hinner
    rw [← hinner, innerComponents_part hpart, if_pos hvoid]
    rfl
  · intro front part hpart hvoid hinner
    rw [← hinner, innerComponents_append, innerComponents_part hpart, if_pos hvoid, List.append_nil]

lemma beginsFirm_trimBack (fuel : Nat) {p : Path} (h : BeginsFirm p) :
    BeginsFirm (trimBack 0 fuel p) := by
  refine trimBack_induction ?_ ?_ fuel h
  · exact fun _ _ _ _ => .inl rfl
  · intro front part _ _ hfirm
    right
    -- the first part is in front of the separator
    have hfirst : (splitFirst (front ++ '/' :: part)).1 = (splitFirst front).1 := by
      rcases splitFirst_cases front with ⟨hfront, hsplit⟩ | ⟨first, rest, rfl, hfirst, hsplit⟩
      · rw [splitFirst_append hfront, hsplit]
      · rw [List.append_assoc, List.cons_append, splitFirst_append hfirst, splitFirst_append hfirst]
    rcases hfirm with hnil | hfirm
    · simp at hnil
    · rwa [hfirst] at hfirm

/-- The path is empty, or it ends with a part that is not void. -/
def EndsFirm (p : Path) : Prop := p = [] ∨ isVoid (lastPart p) = false

lemma endsFirm_trimBack {fuel : Nat} {p : Path} (h : p.length ≤ fuel) :
    EndsFirm (trimBack 0 fuel p) := by
  induction fuel generalizing p with
  | zero => exact .inl (List.length_eq_zero_iff.1 (Nat.le_zero.1 h))
  | succ fuel ih =>
    rw [trimBack_succ]
    split
    · next hnil => exact .inl (List.isEmpty_iff.1 hnil)
    · split
      · refine ih ?_
        rw [beforeLast, List.length_take]
        omega
      · next hvoid => exact .inr (by simpa using hvoid)

lemma trimBack_of_endsFirm {p : Path} (h : isVoid (lastPart p) = false) (fuel : Nat) :
    trimBack 0 fuel p = p := by
  cases fuel with
  | zero => rfl
  | succ fuel =>
    rw [trimBack_succ, h]
    exact ite_self p

/-- Trimming at the back does not see what is kept. -/
lemma trimBack_append (kept : List Char) (fuel : Nat) (p : Path) :
    trimBack kept.length fuel (kept ++ p) = kept ++ trimBack 0 fuel p := by
  induction fuel generalizing p with
  | zero => rfl
  | succ fuel ih =>
    rw [trimBack_append_succ, trimBack_succ, ih]
    split
    · rfl
    split <;> rfl

lemma trimBack_cons (c : Char) (fuel : Nat) (p : Path) :
    trimBack 1 fuel (c :: p) = c :: trimBack 0 fuel p :=
  trimBack_append [c] fuel p

/-- Trimming cuts the path short. -/
lemma trimBack_isPrefix (fuel : Nat) (p : Path) : trimBack 0 fuel p <+: p := by
  refine trimBack_induction (Q := (· <+: p)) ?_ ?_ fuel (List.prefix_refl p)
  · exact fun _ _ _ _ => List.nil_prefix
  · exact fun front part _ _ h => (List.prefix_append front _).trans h

/-! ## Taking components away -/

/-- What is left after components of a path have been taken away has the other ones, and no void
parts at its ends. -/
lemma exists_body {p : Path} {cs ds : List Component} (h : p.innerComponents = cs ++ ds) :
    ∃ q, stripPrefix?.body cs.length p cs = some q ∧ q.components = ds ∧
      BeginsFirm q ∧ EndsFirm q := by
  induction cs generalizing p with
  | nil =>
    have hfirm : BeginsFirm (trimBack 0 (trimFront p.length p).length (trimFront p.length p)) :=
      beginsFirm_trimBack _ (beginsFirm_trimFront (Nat.le_refl _))
    refine ⟨_, by rw [stripPrefix?.body], ?_, hfirm, endsFirm_trimBack (Nat.le_refl _)⟩
    rw [components_of_beginsFirm hfirm, innerComponents_trimBack, innerComponents_trimFront, h]
    rfl
  | cons c cs ih =>
    rw [List.length_cons, stripPrefix?.body.eq_def]
    dsimp only
    generalize htrim : trimFront p.length p = q
    have hinner : q.innerComponents = c :: (cs ++ ds) := by
      rw [← htrim, innerComponents_trimFront, h, List.cons_append]
    rcases htrim ▸ beginsFirm_trimFront (Nat.le_refl p.length) with rfl | hfirm
    · simp at hinner
    · have hne : q.isEmpty = false := by
        cases q with
        | nil => simp at hinner
        | cons => rfl
      rw [innerComponents_eq, hfirm, if_neg (by simp), List.singleton_append] at hinner
      obtain ⟨hpart, hrest⟩ := List.cons.inj hinner
      rw [if_pos (by simp [hne, hpart])]
      exact ih hrest

lemma innerComponents_slash (t : Path) : innerComponents ('/' :: t) = innerComponents t :=
  innerComponents_append [] t

lemma components_slash (t : Path) : components ('/' :: t) = .root :: innerComponents t :=
  congrArg _ (innerComponents_slash t)

lemma exists_slash_of_isAbsolute {p : Path} (h : p.isAbsolute = true) : ∃ t, p = '/' :: t := by
  cases p with
  | nil => cases h
  | cons c t => exact ⟨t, by simpa [isAbsolute] using h⟩

lemma components_of_isAbsolute {p : Path} (h : p.isAbsolute = true) :
    p.components = .root :: p.innerComponents := by
  rw [components, h]
  rfl

/-- The dot that a path begins with is no inner component. -/
lemma innerComponents_dot {t : Path} (h : t = [] ∨ ∃ u, t = '/' :: u) :
    innerComponents ('.' :: t) = innerComponents t := by
  rcases h with rfl | ⟨u, rfl⟩
  · rfl
  · exact (innerComponents_append ['.'] u).trans (innerComponents_slash u).symm

lemma components_dot {t : Path} (h : t = [] ∨ ∃ u, t = '/' :: u) :
    components ('.' :: t) = .current :: innerComponents t := by
  have hfirst : splitFirst ('.' :: t) = (['.'], t.tail) := by
    rcases h with rfl | ⟨u, rfl⟩
    · rfl
    · exact @splitFirst_append ['.'] (by decide) u
  rw [components, beginsCurrent, hfirst, innerComponents_dot h]
  rfl

/-- How a path can begin: at the root, with a dot of its own, or with a part that counts. -/
lemma components_cases (p : Path) :
    (∃ t, p = '/' :: t ∧ p.components = .root :: innerComponents t) ∨
      (∃ t, p = '.' :: t ∧ (t = [] ∨ ∃ u, t = '/' :: u) ∧ p.beginsCurrent = true ∧
        p.components = .current :: innerComponents t) ∨
      (BeginsFirm p ∧ p.isAbsolute = false ∧ p.beginsCurrent = false ∧
        p.components = innerComponents p) := by
  cases habsolute : p.isAbsolute with
  | true =>
    left
    cases p with
    | nil => cases habsolute
    | cons c t =>
      have hc : c = '/' := by simpa [isAbsolute] using habsolute
      subst hc
      exact ⟨t, rfl, components_slash t⟩
  | false =>
    right
    cases hcurrent : p.beginsCurrent with
    | true =>
      left
      have hfirst : (splitFirst p).1 = ['.'] := by simpa [beginsCurrent] using hcurrent
      have hinner : p.components = .current :: innerComponents (splitFirst p).2 := by
        rw [components, habsolute, hcurrent, innerComponents_eq p, hfirst]
        rfl
      rcases splitFirst_cases p with ⟨-, hsplit⟩ | ⟨part, rest, rfl, hpart, hsplit⟩
      · rw [hsplit] at hfirst hinner
        subst hfirst
        exact ⟨[], rfl, .inl rfl, rfl, hinner⟩
      · rw [hsplit] at hfirst hinner
        subst hfirst
        refine ⟨'/' :: rest, rfl, .inr ⟨rest, rfl⟩, rfl, hinner.trans (congrArg _ ?_)⟩
        exact (innerComponents_append [] rest).symm
    | false =>
      right
      have hfirm : BeginsFirm p := by
        cases p with
        | nil => exact .inl rfl
        | cons c t =>
          have hc : c ≠ '/' := by simpa [isAbsolute] using habsolute
          right
          rw [isVoid, Bool.or_eq_false_iff]
          exact ⟨by simp [splitFirst, hc], hcurrent⟩
      exact ⟨hfirm, rfl, rfl, components_of_beginsFirm hfirm⟩

/-- Only the beginning of a path is the root or a dot. -/
lemma ne_of_mem_innerComponents {p : Path} {c : Component} (h : c ∈ p.innerComponents) :
    c ≠ .root ∧ c ≠ .current := by
  obtain ⟨part, -, rfl⟩ := List.mem_map.1 h
  rw [componentOf]
  split <;> simp

/-- What is cut short still begins with a separator, if anything is left of it. -/
lemma eq_nil_or_slash_of_isPrefix {d t : Path} (hcut : d <+: t)
    (h : t = [] ∨ ∃ u, t = '/' :: u) : d = [] ∨ ∃ u, d = '/' :: u := by
  rcases h with rfl | ⟨u, rfl⟩
  · exact .inl (List.prefix_nil.1 hcut)
  · cases d with
    | nil => exact .inl rfl
    | cons c v => exact .inr ⟨v, by rw [(List.cons_prefix_cons.1 hcut).1]⟩

/-- The path without void parts at its back, the dot or the separator at its beginning kept. -/
lemma components_trimBack (p : Path) :
    components (trimBack (if p.isAbsolute || p.beginsCurrent then 1 else 0) p.length p)
      = p.components := by
  rcases components_cases p with ⟨t, rfl, hp⟩ | ⟨t, rfl, ht, hcurrent, hp⟩ | ⟨hfirm, habs, hcur, hp⟩
  · change components (trimBack 1 ('/' :: t).length ('/' :: t)) = _
    rw [hp, trimBack_cons, components_slash, innerComponents_trimBack]
  · rw [hcurrent, Bool.or_true, if_pos rfl, hp, trimBack_cons,
      ← innerComponents_trimBack ('.' :: t).length t]
    exact components_dot (eq_nil_or_slash_of_isPrefix (trimBack_isPrefix _ t) ht)
  · rw [habs, hcur, hp]
    change components (trimBack 0 p.length p) = _
    rw [components_of_beginsFirm (beginsFirm_trimBack _ hfirm), innerComponents_trimBack]

/-- What is left of a path that begins at the root has no void parts at its ends. -/
lemma exists_stripPrefix?_of_isAbsolute {p base : Path} {ds : List Component}
    (hp : p.isAbsolute = true) (hbase : base.isAbsolute = true)
    (h : p.innerComponents = base.innerComponents ++ ds) :
    ∃ q, p.stripPrefix? base = some q ∧ q.components = ds ∧ BeginsFirm q ∧ EndsFirm q := by
  obtain ⟨t, rfl⟩ := exists_slash_of_isAbsolute hp
  obtain ⟨b, rfl⟩ := exists_slash_of_isAbsolute hbase
  rw [innerComponents_slash, innerComponents_slash] at h
  rw [stripPrefix?, components_slash]
  exact exists_body h

/-- **Taking away components that a path begins with leaves the others.** -/
theorem exists_stripPrefix? {p base : Path} {ds : List Component}
    (h : p.components = base.components ++ ds) :
    ∃ q, p.stripPrefix? base = some q ∧ q.components = ds := by
  have exists_rest : ∀ {p : Path} {cs : List Component}, p.innerComponents = cs ++ ds →
      ∃ q, stripPrefix?.body cs.length p cs = some q ∧ q.components = ds := by
    intro p cs hp
    obtain ⟨q, hq, hcomponents, -⟩ := exists_body hp
    exact ⟨q, hq, hcomponents⟩
  rw [stripPrefix?]
  split
  · next hbase =>
    rw [hbase] at h
    exact ⟨_, rfl, (components_trimBack p).trans h⟩
  · next cs hbase =>
    rw [hbase] at h
    rcases components_cases p with ⟨t, rfl, hp⟩ | ⟨t, rfl, -, -, hp⟩ | ⟨-, -, -, hp⟩
    · exact exists_rest (List.cons.inj (hp.symm.trans h)).2
    · cases hp.symm.trans h
    · have hmem : Component.root ∈ innerComponents p := by rw [← hp, h]; exact List.mem_cons_self
      exact absurd rfl (ne_of_mem_innerComponents hmem).1
  · next cs hbase =>
    rw [hbase] at h
    rcases components_cases p with ⟨t, rfl, hp⟩ | ⟨t, rfl, -, hcurrent, hp⟩ | ⟨-, -, -, hp⟩
    · cases hp.symm.trans h
    · rw [if_pos hcurrent]
      exact exists_rest (List.cons.inj (hp.symm.trans h)).2
    · have hmem : Component.current ∈ innerComponents p := by
        rw [← hp, h]; exact List.mem_cons_self
      exact absurd rfl (ne_of_mem_innerComponents hmem).2
  · next hnil hroot hcurrent =>
    obtain ⟨c, cs, hbase⟩ := List.exists_cons_of_ne_nil hnil
    rw [hbase] at h ⊢
    rcases components_cases p with ⟨t, rfl, hp⟩ | ⟨t, rfl, -, -, hp⟩ | ⟨-, habsolute, hdot, hp⟩
    · obtain ⟨rfl, -⟩ := List.cons.inj (h.symm.trans hp)
      exact absurd hbase (hroot cs)
    · obtain ⟨rfl, -⟩ := List.cons.inj (h.symm.trans hp)
      exact absurd hbase (hcurrent cs)
    · rw [habsolute, hdot]
      exact exists_rest (hp.symm.trans h)

end PermissionLint.Path
