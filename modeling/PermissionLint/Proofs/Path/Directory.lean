/-
The folder that a file is in.

The path of a file is that of its folder and a name: the folder has all components of the file but
the last one (`exists_directory?`).  So what is left of the path when the folder is taken away is
the name, as it is written (`stripPrefix?_directory?`).
-/
import PermissionLint.Proofs.Path.Strip

namespace PermissionLint.Path

/-- A single name without void parts around it. -/
lemma eq_of_components_eq_singleton {q : Path} {name : List Char} (hbegins : BeginsFirm q)
    (hends : EndsFirm q) (h : q.components = [.normal name]) : q = name := by
  rw [components_of_beginsFirm hbegins] at h
  rcases hbegins with rfl | hfirst
  · cases h
  rcases hends with rfl | hlast
  · cases h
  rcases splitFirst_cases q with ⟨hq, hsplit⟩ | ⟨part, rest, rfl, hpart, hsplit⟩
  · rw [hsplit] at hfirst
    rw [innerComponents_part hq, hfirst, if_neg (by simp), componentOf] at h
    split at h
    · cases h
    · simpa using h
  · -- a last part that counts would be a second component
    rw [hsplit] at hfirst
    rw [lastPart_append] at hlast
    obtain ⟨init, hrest⟩ := exists_innerComponents_append hlast
    rw [innerComponents_append, innerComponents_part hpart, hfirst, if_neg (by simp), hrest] at h
    simp at h

/-- The parts before the last one have the other components. -/
lemma innerComponents_take {p : Path} (h : isVoid (lastPart p) = false) :
    p.innerComponents
      = innerComponents (p.take (p.length - (lastPart p).length))
        ++ [componentOf (lastPart p)] := by
  rcases lastPart_cases p with ⟨hp, hlast⟩ | ⟨front, part, rfl, hpart, hlast⟩
  · rw [hlast] at h ⊢
    rw [Nat.sub_self, List.take_zero, innerComponents_part hp, if_neg (by simp [h])]
    rfl
  · rw [hlast] at h ⊢
    have htake : (front ++ '/' :: part).take ((front ++ '/' :: part).length - part.length)
        = front ++ ['/'] := by
      have hlength : (front ++ '/' :: part).length - part.length = (front ++ ['/']).length := by
        simp only [List.length_append, List.length_cons, List.length_nil]
        omega
      rw [hlength, List.append_cons front '/' part, List.take_left]
    rw [htake, innerComponents_append, innerComponents_append, innerComponents_part hpart,
      if_neg (by simp [h]), innerComponents_nil, List.append_nil]

/-- The last component of a path is that of its last part, if this counts. -/
lemma getLast?_components {p : Path} (h : isVoid (lastPart p) = false) :
    p.components.getLast? = some (componentOf (lastPart p)) := by
  obtain ⟨init, hinner⟩ := exists_innerComponents_append h
  rw [components, hinner, ← List.append_assoc, List.getLast?_concat]

/-- The folder is what stands before the last part, trimmed, behind the characters that are kept. -/
lemma directory?_append (kept : List Char) {t u : Path} {name : List Char}
    (hkeep : (if isAbsolute (kept ++ t) || beginsCurrent (kept ++ t) then 1 else 0) = kept.length)
    (hlast : (components (kept ++ t)).getLast? = some (.normal name))
    (hvoid : isVoid (lastPart t) = false) (hu : t.take (t.length - (lastPart t).length) = u) :
    directory? (kept ++ t) = some (kept ++ trimBack 0 (kept ++ u).length u) := by
  have hlength : (t.reverse.takeWhile (· != '/')).length = (lastPart t).length :=
    List.length_reverse.symm
  have hle : (lastPart t).length ≤ t.length := by
    rw [← hlength, ← @List.length_reverse _ t]
    exact (List.takeWhile_sublist _).length_le
  have htrim : trimBack kept.length (kept ++ t).length (kept ++ t) = kept ++ t := by
    rw [trimBack_append, trimBack_of_endsFirm hvoid]
  have htake : (kept ++ t).take ((kept ++ t).length - (lastPart t).length) = kept ++ u := by
    rw [List.length_append, Nat.add_sub_assoc hle, List.take_length_add_append, hu]
  rw [directory?, hlast]
  simp only [hkeep, htrim, List.drop_left, hlength, htake, trimBack_append]

/-- The folder that a file is in has all components of the file but the last one. -/
lemma exists_directory? {p : Path} (hvoid : isVoid (lastPart p) = false)
    (hname : lastPart p ≠ ['.', '.']) :
    ∃ d, p.directory? = some d ∧ d.isAbsolute = p.isAbsolute ∧
      p.innerComponents = d.innerComponents ++ [.normal (lastPart p)] := by
  have hlast : componentOf (lastPart p) = .normal (lastPart p) := by
    rw [componentOf, if_neg (by simpa using hname)]
  have hlast? := getLast?_components hvoid
  rw [hlast] at hlast?
  rcases components_cases p with
    ⟨t, rfl, -⟩ | ⟨t, rfl, ht, hcurrent, -⟩ | ⟨-, habsolute, hcurrent, -⟩
  · have hpart : lastPart ('/' :: t) = lastPart t := lastPart_append [] t
    rw [hpart] at hvoid hlast hlast? ⊢
    have hinner := innerComponents_take hvoid
    generalize hu : t.take (t.length - (lastPart t).length) = u at hinner
    refine ⟨_, directory?_append ['/'] rfl hlast? hvoid hu, rfl, ?_⟩
    rw [List.singleton_append, innerComponents_slash, innerComponents_slash,
      innerComponents_trimBack, hinner, hlast]
  · -- nothing is named by the dot alone, so there is a separator behind it
    obtain ⟨rest, rfl⟩ : ∃ rest, t = '/' :: rest := by
      rcases ht with rfl | hrest
      · cases hvoid
      · exact hrest
    have hpart : lastPart ('.' :: '/' :: rest) = lastPart ('/' :: rest) :=
      (lastPart_append ['.'] rest).trans (lastPart_append [] rest).symm
    rw [hpart] at hvoid hlast hlast? ⊢
    have hinner := innerComponents_take hvoid
    generalize hu : List.take _ ('/' :: rest) = u at hinner
    have hkeep : (if isAbsolute (['.'] ++ '/' :: rest) || beginsCurrent (['.'] ++ '/' :: rest)
        then 1 else 0) = 1 := by
      rw [List.singleton_append, hcurrent, Bool.or_true, if_pos rfl]
    have hprefix := (trimBack_isPrefix (['.'] ++ u).length u).trans (hu ▸ List.take_prefix _ _)
    refine ⟨_, directory?_append ['.'] hkeep hlast? hvoid hu, rfl, ?_⟩
    rw [List.singleton_append, innerComponents_dot ht,
      innerComponents_dot (eq_nil_or_slash_of_isPrefix hprefix ht), innerComponents_trimBack,
      hinner, hlast]
  · have hinner := innerComponents_take hvoid
    generalize hu : p.take (p.length - (lastPart p).length) = u at hinner
    have hkeep : (if isAbsolute ([] ++ p) || beginsCurrent ([] ++ p) then 1 else 0) = 0 := by
      rw [List.nil_append, habsolute, hcurrent]
      rfl
    refine ⟨_, directory?_append [] hkeep hlast? hvoid hu, ?_, ?_⟩
    · have hprefix := (trimBack_isPrefix ([] ++ u).length u).trans (hu ▸ List.take_prefix _ p)
      rw [List.nil_append]
      generalize trimBack 0 ([] ++ u).length u = d at hprefix ⊢
      cases d with
      | nil => exact habsolute.symm
      | cons c cs =>
        obtain ⟨rest, rfl⟩ := hprefix
        exact rfl
    · rw [List.nil_append, innerComponents_trimBack, hinner, hlast]

/-- **Taking the folder of a file away from its path leaves the name.** -/
theorem stripPrefix?_directory? {t : Path} (hvoid : isVoid (lastPart t) = false)
    (hname : lastPart t ≠ ['.', '.']) :
    ∃ d, directory? ('/' :: t) = some d ∧ stripPrefix? ('/' :: t) d = some (lastPart t) := by
  have hpart : lastPart ('/' :: t) = lastPart t := lastPart_append [] t
  rw [← hpart] at hvoid hname ⊢
  obtain ⟨d, hd, habsolute, hinner⟩ := exists_directory? hvoid hname
  obtain ⟨q, hq, hcomponents, hbegins, hends⟩ :=
    exists_stripPrefix?_of_isAbsolute rfl habsolute hinner
  rw [← eq_of_components_eq_singleton hbegins hends hcomponents]
  exact ⟨d, hd, hq⟩

end PermissionLint.Path
