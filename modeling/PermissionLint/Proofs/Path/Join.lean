/-
Paths below a folder.

A path that begins and ends with parts that count leads from a folder to something below it.  Joined
to the folder it adds its components to those of the folder (`components_join`), and taking the
folder away again gives it back as it was written, however the folder is written
(`stripPrefix?_join`).
-/
import PermissionLint.Proofs.FileTree
import PermissionLint.Proofs.Path.Order

namespace PermissionLint.Path

/-- The path leads from a folder to something below it: its first and its last part count. -/
structure LeadsBelow (q : Path) : Prop where
  begins : isVoid (splitFirst q).1 = false
  ends : isVoid (lastPart q) = false

/-! ## Joining -/

lemma isAbsolute_of_begins {q : Path} (h : isVoid (splitFirst q).1 = false) :
    q.isAbsolute = false := by
  rcases components_cases q with ⟨t, rfl, -⟩ | ⟨t, rfl, -, -, -⟩ | ⟨-, habsolute, -, -⟩
  · simp [splitFirst, isVoid] at h
  · rfl
  · exact habsolute

lemma LeadsBelow.isAbsolute {q : Path} (h : q.LeadsBelow) : q.isAbsolute = false :=
  isAbsolute_of_begins h.begins

/-- What a path is joined to is the folder with a separator behind it. -/
lemma join_eq_append (folder : Path) {q : Path} (h : q.isAbsolute = false) :
    folder.join q = folder.join [] ++ q := by
  have hnil : isAbsolute [] = false := rfl
  simp only [join, h, hnil, Bool.false_eq_true, if_false]
  split <;> simp

/-- A separator is added behind a path that ends with a part that counts. -/
lemma join_nil_of_ends {p : Path} (h : isVoid (lastPart p) = false) : p.join [] = p ++ ['/'] := by
  have hnil : isAbsolute [] = false := rfl
  rcases List.eq_nil_or_concat p with rfl | ⟨front, c, rfl⟩
  · cases h
  · rw [List.concat_eq_append] at h ⊢
    have hc : c ≠ '/' := by
      rintro rfl
      rw [lastPart_append front []] at h
      cases h
    rw [join, hnil, if_neg (by simp), if_neg (by simp [hc])]

lemma join_of_leadsBelow {q r : Path} (hq : q.LeadsBelow) (hr : r.isAbsolute = false) :
    q.join r = q ++ '/' :: r := by
  rw [join_eq_append q hr, join_nil_of_ends hq.ends, List.append_assoc, List.singleton_append]

/-- Whether a separator is added depends on the end of a path. -/
lemma append_join_nil (p : Path) {q : Path} (hq : q ≠ []) : (p ++ q).join [] = p ++ q.join [] := by
  have hnil : isAbsolute [] = false := rfl
  have hlast : (p ++ q).getLast? = q.getLast? := List.getLast?_append_of_ne_nil p hq
  have hempty : (p ++ q).isEmpty = false := by simp [hq]
  have hempty' : q.isEmpty = false := by simpa using hq
  simp only [join, hlast, hempty, hempty', hnil, Bool.false_eq_true, if_false]
  split <;> simp

/-- A separator is added once. -/
lemma join_nil_join_nil (p : Path) : (p.join []).join [] = p.join [] := by
  have hnil : isAbsolute [] = false := rfl
  cases hend : p.isEmpty || p.getLast? == some '/' with
  | true =>
    have hjoin : p.join [] = p := by
      rw [join, hnil, if_neg (by simp), if_pos hend, List.append_nil]
    rw [hjoin, hjoin]
  | false =>
    have hjoin : p.join [] = p ++ ['/'] := by
      rw [join, hnil, if_neg (by simp), if_neg (by simp [hend])]
    rw [hjoin, append_join_nil p (by simp)]
    rfl

lemma join_assoc (folder q : Path) {r : Path} (hr : r.isAbsolute = false) :
    (folder.join q).join r = folder.join (q.join r) := by
  cases hq : q.isAbsolute with
  | true => rw [join_of_isAbsolute hq, join_of_isAbsolute (isAbsolute_join hq r)]
  | false =>
    cases q with
    | nil =>
      have hnil : join [] r = r := join_eq_append [] hr
      rw [hnil, join_eq_append _ hr, join_nil_join_nil, ← join_eq_append folder hr]
    | cons c cs =>
      have habsolute : isAbsolute (join (c :: cs) r) = false := by
        rw [join, if_neg (by simp [hr])]
        split <;> exact hq
      rw [join_eq_append _ hr, join_eq_append folder hq, append_join_nil _ (by simp),
        join_eq_append folder habsolute, join_eq_append (c :: cs) hr, List.append_assoc]

/-- A name leads below. -/
lemma leadsBelow_name {name : List Char} (hvoid : isVoid name = false) (hslash : '/' ∉ name) :
    LeadsBelow name := by
  have hlast : lastPart name = name := by
    rcases lastPart_cases name with ⟨-, hlast⟩ | ⟨front, part, rfl, -, -⟩
    · exact hlast
    · simp at hslash
  refine ⟨?_, ?_⟩
  · rw [splitFirst_part hslash]
    exact hvoid
  · rw [hlast]
    exact hvoid

lemma LeadsBelow.join {q r : Path} (hq : q.LeadsBelow) (hr : r.LeadsBelow) :
    (q.join r).LeadsBelow := by
  refine ⟨?_, ?_⟩
  · rw [join_of_leadsBelow hq hr.isAbsolute]
    have hbegins := hq.begins
    rcases splitFirst_cases q with ⟨hslash, hsplit⟩ | ⟨part, rest, rfl, hslash, hsplit⟩
    · rw [hsplit] at hbegins
      rw [splitFirst_append hslash]
      exact hbegins
    · rw [hsplit] at hbegins
      rw [List.append_assoc, List.cons_append, splitFirst_append hslash]
      exact hbegins
  · rw [lastPart_join]
    exact hr.ends

/-! ## Components -/

/-- What stands behind a separator adds its components. -/
lemma components_append {t : Path} (ht : t ≠ []) (q : Path) :
    components (t ++ '/' :: q) = t.components ++ innerComponents q := by
  have habsolute : isAbsolute (t ++ '/' :: q) = t.isAbsolute := by
    rw [isAbsolute, isAbsolute, List.head?_append_of_ne_nil _ ht]
  have hcurrent : beginsCurrent (t ++ '/' :: q) = t.beginsCurrent := by
    rcases splitFirst_cases t with ⟨hslash, hsplit⟩ | ⟨part, rest, rfl, hslash, hsplit⟩
    · rw [beginsCurrent, beginsCurrent, hsplit, splitFirst_append hslash]
    · rw [beginsCurrent, beginsCurrent, hsplit, List.append_assoc, List.cons_append,
        splitFirst_append hslash]
  rw [components, components, habsolute, hcurrent, innerComponents_append, List.append_assoc]

/-- Joining adds components. -/
lemma components_join (folder : Path) {q : Path} (hq : q.LeadsBelow) :
    (folder.join q).components = folder.components ++ q.components := by
  rw [components_of_beginsFirm (.inr hq.begins)]
  rcases List.eq_nil_or_concat folder with rfl | ⟨front, c, rfl⟩
  · rw [join, hq.isAbsolute]
    exact components_of_beginsFirm (.inr hq.begins)
  rw [List.concat_eq_append]
  have hne : front ++ [c] ≠ [] := by simp
  by_cases hc : c = '/'
  · -- the separator is there already
    subst hc
    have hjoin : join (front ++ ['/']) q = front ++ '/' :: q := by
      rw [join, hq.isAbsolute, if_neg (by simp), if_pos (by simp)]
      simp
    rw [hjoin]
    rcases eq_or_ne front [] with rfl | hfront
    · rw [List.nil_append, List.nil_append, components_slash, components_slash,
        innerComponents_nil]
      rfl
    · rw [components_append hfront, components_append hfront, innerComponents_nil,
        List.append_nil]
  · have hjoin : join (front ++ [c]) q = (front ++ [c]) ++ '/' :: q := by
      rw [join, hq.isAbsolute, if_neg (by simp), if_neg (by simp [hc])]
    rw [hjoin, components_append hne]

/-- The order of paths below a folder does not depend on the folder. -/
lemma compare_join (folder : Path) {q r : Path} (hq : q.LeadsBelow) (hr : r.LeadsBelow) :
    Path.compare (folder.join q) (folder.join r) = Path.compare q r :=
  compare_of_components_append (components_join folder hq) (components_join folder hr)

lemma fileName?_join (folder : Path) {q : Path} (hq : q.LeadsBelow) :
    (folder.join q).fileName? = q.fileName? := by
  obtain ⟨init, hinner⟩ := exists_innerComponents_append hq.ends
  have hcomponents : q.components = init ++ [componentOf (lastPart q)] := by
    rw [components_of_beginsFirm (.inr hq.begins), hinner]
  rw [fileName?, fileName?, components_join folder hq, hcomponents, ← List.append_assoc,
    List.getLast?_concat, List.getLast?_concat]

lemma extension?_join (folder : Path) {q : Path} (hq : q.LeadsBelow) :
    (folder.join q).extension? = q.extension? := by
  rw [extension?, extension?, fileName?_join folder hq]

/-! ## Taking the folder away -/

lemma trimFront_of_begins {q : Path} (h : isVoid (splitFirst q).1 = false) (fuel : Nat) :
    trimFront fuel q = q := by
  cases fuel with
  | zero => rfl
  | succ fuel =>
    rw [trimFront, h]
    exact ite_self q

/-- More steps than the path is long change nothing. -/
lemma trimFront_eq_of_le {fuel : Nat} {p : Path} (h : p.length ≤ fuel) :
    trimFront fuel p = trimFront p.length p := by
  induction hn : p.length using Nat.strong_induction_on generalizing p fuel with
  | _ n ih =>
    subst hn
    cases p with
    | nil => cases fuel <;> rfl
    | cons c cs =>
      obtain ⟨fuel, rfl⟩ := Nat.exists_eq_add_of_le' (Nat.lt_of_lt_of_le (Nat.succ_pos _) h)
      have hrest : (splitFirst (c :: cs)).2.length ≤ cs.length := by
        rcases splitFirst_cases (c :: cs) with ⟨-, hsplit⟩ | ⟨part, rest, hp, -, hsplit⟩
        · rw [hsplit]
          exact Nat.zero_le _
        · rw [hsplit]
          have hlength := congrArg List.length hp
          rw [List.length_append, List.length_cons, List.length_cons] at hlength
          change rest.length ≤ cs.length
          omega
      rw [List.length_cons] at h ih ⊢
      rw [trimFront, trimFront]
      refine if_congr Iff.rfl rfl (if_congr Iff.rfl ?_ rfl)
      rw [ih _ (Nat.lt_succ_of_le hrest) (hrest.trans (Nat.le_of_succ_le_succ h)) rfl,
        ih _ (Nat.lt_succ_of_le hrest) hrest rfl]

/-- A void part in front makes no difference. -/
lemma body_void {part : List Char} (hslash : '/' ∉ part) (hvoid : isVoid part = true) (fuel : Nat)
    (rest : Path) (cs : List Component) :
    stripPrefix?.body fuel (part ++ '/' :: rest) cs = stripPrefix?.body fuel rest cs := by
  have htrim : trimFront (part ++ '/' :: rest).length (part ++ '/' :: rest)
      = trimFront rest.length rest := by
    have hlength : (part ++ '/' :: rest).length = part.length + rest.length + 1 := by
      rw [List.length_append, List.length_cons]
      omega
    rw [hlength, trimFront, if_neg (by simp), splitFirst_append hslash, if_pos hvoid]
    exact trimFront_eq_of_le (Nat.le_add_left _ _)
  rw [stripPrefix?.body.eq_def, stripPrefix?.body.eq_def fuel rest, htrim]

/-- A part that counts is taken away with its component. -/
lemma body_part {part : List Char} (hslash : '/' ∉ part) (hvoid : isVoid part = false) (fuel : Nat)
    (rest : Path) (cs : List Component) :
    stripPrefix?.body (fuel + 1) (part ++ '/' :: rest) (componentOf part :: cs)
      = stripPrefix?.body fuel rest cs := by
  have hsplit := splitFirst_append hslash rest
  have hbegins : isVoid (splitFirst (part ++ '/' :: rest)).1 = false := by
    rw [hsplit]
    exact hvoid
  rw [stripPrefix?.body.eq_def, trimFront_of_begins hbegins]
  dsimp only
  rw [hsplit, if_pos (by simp)]

/-- The components of what stands in front are taken away. -/
lemma body_append (t q : Path) :
    stripPrefix?.body (innerComponents t).length (t ++ '/' :: q) (innerComponents t)
      = stripPrefix?.body 0 q [] := by
  -- on the parts of `t`, from the first one on: a void part is passed over, any other is taken away
  induction hn : t.length using Nat.strong_induction_on generalizing t with
  | _ n ih =>
    subst hn
    rcases splitFirst_cases t with ⟨hslash, -⟩ | ⟨part, rest, rfl, hslash, -⟩
    · rw [innerComponents_part hslash]
      cases hvoid : isVoid t with
      | true => exact body_void hslash hvoid 0 q []
      | false => exact body_part hslash hvoid 0 q []
    · have hrest := ih rest.length (by rw [List.length_append, List.length_cons]; omega) rest rfl
      rw [innerComponents_append, innerComponents_part hslash, List.append_assoc,
        List.cons_append, ← hrest]
      cases hvoid : isVoid part with
      | true => exact body_void hslash hvoid _ _ _
      | false => exact body_part hslash hvoid _ _ _

/-- How a path is joined to a folder that begins at the root: to the root itself, or behind what the
folder has after it. -/
lemma join_cases {folder : Path} (h : folder.isAbsolute = true) :
    (folder.components = [.root] ∧ ∀ q : Path, q.isAbsolute = false → folder.join q = '/' :: q) ∨
      ∃ t, folder.components = .root :: innerComponents t ∧
        ∀ q : Path, q.isAbsolute = false → folder.join q = '/' :: (t ++ '/' :: q) := by
  cases folder with
  | nil => cases h
  | cons c t =>
    obtain rfl : c = '/' := by simpa [Path.isAbsolute] using h
    rcases List.eq_nil_or_concat t with rfl | ⟨front, d, rfl⟩
    · exact .inl ⟨rfl, fun q hq => by rw [join, hq]; rfl⟩
    rw [List.concat_eq_append]
    right
    have hlast : ('/' :: (front ++ [d])).getLast? = some d := by
      rw [← List.cons_append, List.getLast?_concat]
    by_cases hd : d = '/'
    · subst hd
      refine ⟨front, ?_, fun q hq => ?_⟩
      · rw [components_slash, innerComponents_append, innerComponents_nil, List.append_nil]
      · rw [join, hq, if_neg (by simp), if_pos (by simp [hlast])]
        simp
    · refine ⟨front ++ [d], components_slash _, fun q hq => ?_⟩
      rw [join, hq, if_neg (by simp), if_neg (by simp [hlast, hd])]
      simp

/-- What is joined to a folder that begins at the root adds its components. -/
lemma innerComponents_join {folder q : Path} (h : folder.isAbsolute = true)
    (hq : q.isAbsolute = false) :
    (folder.join q).innerComponents = folder.innerComponents ++ q.innerComponents := by
  rcases join_cases h with ⟨hfolder, hjoin⟩ | ⟨t, hfolder, hjoin⟩
  · rw [components_of_isAbsolute h] at hfolder
    rw [hjoin q hq, innerComponents_slash, (List.cons.inj hfolder).2, List.nil_append]
  · rw [components_of_isAbsolute h] at hfolder
    rw [hjoin q hq, innerComponents_slash, innerComponents_append, (List.cons.inj hfolder).2]

/-- **Taking a folder away from a path below it gives the path as it was before.** -/
theorem stripPrefix?_join {folder q : Path} (h : folder.isAbsolute = true) (hq : q.LeadsBelow) :
    (folder.join q).stripPrefix? folder = some q := by
  have hbody : stripPrefix?.body 0 q [] = some q := by
    rw [stripPrefix?.body, trimFront_of_begins hq.begins, trimBack_of_endsFirm hq.ends]
  rcases join_cases h with ⟨hfolder, hjoin⟩ | ⟨t, hfolder, hjoin⟩
  · rw [stripPrefix?, hfolder, hjoin q hq.isAbsolute]
    exact hbody
  · rw [stripPrefix?, hfolder, hjoin q hq.isAbsolute, ← hbody, ← body_append t q]
    rfl

end PermissionLint.Path
