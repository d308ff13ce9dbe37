/-
Files before and after one more is added.

What is left after files have been deleted was there before, under the same names, so a path that
leads to it led there before (`FileSystem.exists_get_of_without`).  A file that is added where there
was nothing can be deleted again, which gives back what there was (`FileSystem.HasRoom.without_adding`).
So deletion says all there is to say about adding a file: what was there is read as before, and a
path that does not lead to the new file leads somewhere if it did before
(`FileSystem.HasRoom.contains_adding`).
-/
import PermissionLint.Proofs.Walk.Contents
import PermissionLint.Proofs.Walk.Deletion

namespace PermissionLint

/-! ## What is left -/

namespace FileTree

variable {gone : List Name → Contents → Bool} {here : List Name} {tree child : FileTree}
  {name : Name} {names : List Name}

lemma hasDistinctNames_of_mem {entries : List (Name × FileTree)}
    (h : haveDistinctNames entries = true) {e : Name × FileTree} (he : e ∈ entries) :
    e.2.hasDistinctNames = true := by
  induction entries with
  | nil => exact absurd he List.not_mem_nil
  | cons entry entries ih =>
    obtain ⟨-, htree, hentries⟩ := haveDistinctNames_cons h
    rcases List.mem_cons.1 he with rfl | he
    · exact htree
    · exact ih hentries he

lemma hasDistinctNames_of_entry (h : tree.hasDistinctNames = true)
    (hchild : tree.child? name = some child) : child.hasDistinctNames = true := by
  cases tree with
  | file bytes => cases hchild
  | folder entries =>
    obtain ⟨e, he, rfl⟩ := Option.map_eq_some_iff.1 hchild
    exact hasDistinctNames_of_mem h (List.mem_of_find?_eq_some he)

/-- An entry that is gone does not make way for another one of its name. -/
lemma child?_without_of_isGone (hdistinct : tree.hasDistinctNames = true)
    (hchild : tree.child? name = some child) (hgone : child.isGone gone (here ++ [name]) = true) :
    child? (tree.without gone here) name = none := by
  cases tree with
  | file bytes => cases hchild
  | folder entries =>
    rw [without]
    induction entries with
    | nil => cases hchild
    | cons e entries ih =>
      obtain ⟨first, tree⟩ := e
      obtain ⟨hfirst, -, hentries⟩ := haveDistinctNames_cons hdistinct
      by_cases hname : first = name
      · subst hname
        obtain rfl : tree = child := by simpa [child?] using hchild
        -- the names are distinct, so the entries behind it have other ones
        have hrest : child? (folder entries) first = none := by
          rw [child?_folder, List.find?_eq_none.2 (by simpa using hfirst)]
          rfl
        rw [entriesWithout, if_pos hgone]
        exact child?_without_eq_none hrest
      · have hrest : child? (folder entries) name = some child := by
          simpa [child?, hname] using hchild
        rw [entriesWithout]
        split
        · exact ih hentries hrest
        · simpa [child?, hname] using ih hentries hrest

/-- An entry that is left was there before. -/
lemma exists_child?_of_without (hdistinct : tree.hasDistinctNames = true)
    (h : child? (tree.without gone here) name = some child) :
    ∃ next, tree.child? name = some next ∧ child = next.without gone (here ++ [name]) := by
  cases hentry : tree.child? name with
  | none =>
    rw [child?_without_eq_none hentry] at h
    cases h
  | some next =>
    cases hgone : next.isGone gone (here ++ [name]) with
    | true =>
      rw [child?_without_of_isGone hdistinct hentry hgone] at h
      cases h
    | false =>
      rw [child?_without hentry hgone] at h
      exact ⟨next, rfl, (Option.some.inj h).symm⟩

/-- What is left was there before, at the end of the same names. -/
lemma exists_at?_of_without (hdistinct : tree.hasDistinctNames = true)
    (h : (tree.without gone here).at? names = some child) :
    ∃ before, tree.at? names = some before ∧ child = before.without gone (here ++ names) := by
  induction names generalizing tree here with
  | nil =>
    cases h
    exact ⟨tree, rfl, by rw [List.append_nil]⟩
  | cons name names ih =>
    obtain ⟨next', hnext', h⟩ := Option.bind_eq_some_iff.1 h
    obtain ⟨next, hnext, rfl⟩ := exists_child?_of_without hdistinct hnext'
    obtain ⟨before, hbefore, hchild⟩ := ih (hasDistinctNames_of_entry hdistinct hnext) h
    refine ⟨before, ?_, ?_⟩
    · rw [at?, hnext]
      exact hbefore
    · rwa [List.append_cons]

lemma exists_mem_of_mem_entriesWithout {entries : List (Name × FileTree)} {e : Name × FileTree}
    (he : e ∈ entriesWithout gone here entries) : ∃ before ∈ entries, before.1 = e.1 := by
  induction entries with
  | nil => exact absurd he List.not_mem_nil
  | cons entry entries ih =>
    obtain ⟨first, tree⟩ := entry
    rw [entriesWithout] at he
    split at he
    · obtain ⟨before, hbefore, hname⟩ := ih he
      exact ⟨before, List.mem_cons_of_mem _ hbefore, hname⟩
    · rcases List.mem_cons.1 he with rfl | he
      · exact ⟨_, List.mem_cons_self, rfl⟩
      · obtain ⟨before, hbefore, hname⟩ := ih he
        exact ⟨before, List.mem_cons_of_mem _ hbefore, hname⟩

/-- A path that leads to what is left led there before. -/
lemma follow_of_without {top : FileTree} (hdistinct : top.hasDistinctNames = true)
    {parts : List (List Char)} (h : (top.without gone []).follow parts here = .ok names) :
    top.follow parts here = .ok names := by
  induction parts generalizing here with
  | nil => exact h
  | cons part parts ih =>
    rw [follow] at h ⊢
    split at h
    · next left hleft =>
      obtain ⟨before, hbefore, hfolder⟩ := exists_at?_of_without hdistinct hleft
      cases before with
      | file bytes => cases hfolder
      | folder entries =>
        obtain rfl : left = entriesWithout gone here entries := folder.inj hfolder
        rw [hbefore]
        dsimp only
        split at h
        · next hvoid => rw [if_pos hvoid, ih h]
        next hvoid =>
        split at h
        · next hdots => rw [if_neg hvoid, if_pos hdots, ih h]
        next hdots =>
        split at h
        · next hany =>
          -- the names that are left in a folder are among those it had
          obtain ⟨e, he, hpart⟩ := List.any_eq_true.1 hany
          obtain ⟨e', he', hname⟩ := exists_mem_of_mem_entriesWithout he
          have hany' : entries.any (·.1 == part) = true :=
            List.any_eq_true.2 ⟨e', he', by rwa [hname]⟩
          rw [if_neg hvoid, if_neg hdots, if_pos hany', ih h]
        · cases h
    · cases h
    · cases h

end FileTree

namespace FileSystem

variable {fs : FileSystem} {gone : List Name → Contents → Bool} {p : Path} {names : List Name}

lemma resolve_of_without (hdistinct : fs.top.hasDistinctNames = true)
    (h : (fs.without gone).resolve p = .ok names) : fs.resolve p = .ok names := by
  rw [resolve] at h ⊢
  split at h
  · cases h
  · next hne =>
    rw [if_neg hne]
    exact FileTree.follow_of_without hdistinct h

/-- What is left at a path was there before. -/
lemma exists_get_of_without (hdistinct : fs.top.hasDistinctNames = true) {tree : FileTree}
    (h : (fs.without gone).get p = .ok tree) :
    ∃ names before, fs.get p = .ok before ∧ tree = before.without gone names := by
  obtain ⟨names, hresolve, hat⟩ := get_eq_ok_iff.1 h
  obtain ⟨before, hbefore, htree⟩ := FileTree.exists_at?_of_without hdistinct hat
  have hresolve' := resolve_of_without hdistinct hresolve
  exact ⟨names, before, get_eq_ok_iff.2 ⟨names, hresolve', hbefore⟩, htree⟩

lemma exists_get_of_contains (h : fs.contains p = true) : ∃ tree, fs.get p = .ok tree := by
  rw [contains] at h
  split at h
  · next tree hget => exact ⟨tree, hget⟩
  · cases h

lemma contains_of_get {tree : FileTree} (h : fs.get p = .ok tree) : fs.contains p = true := by
  rw [contains, h]

/-- What is read at a path that is left is what was read before. -/
lemma read_without (hdistinct : fs.top.hasDistinctNames = true)
    (h : (fs.without gone).contains p = true) : (fs.without gone).read p = fs.read p := by
  obtain ⟨tree, hget⟩ := exists_get_of_contains h
  obtain ⟨names, before, hbefore, rfl⟩ := exists_get_of_without hdistinct hget
  rw [read, read, hget, hbefore]
  cases before <;> rfl

lemma isFile_without (hdistinct : fs.top.hasDistinctNames = true)
    (h : (fs.without gone).contains p = true) : (fs.without gone).isFile p = fs.isFile p := by
  obtain ⟨tree, hget⟩ := exists_get_of_contains h
  obtain ⟨names, before, hbefore, rfl⟩ := exists_get_of_without hdistinct hget
  rw [isFile, isFile, hget, hbefore]
  cases before <;> rfl

end FileSystem

/-! ## Adding a file -/

namespace FileTree

/-- Only the file at the end of the names is gone. -/
def onlyAt (place : List Name) : List Name → Contents → Bool := fun names _ => names == place

lemma eq_of_onlyAt {here outer : List Name} {name other : Name} {bytes : Contents}
    (h : onlyAt (here ++ [name]) (outer ++ [other]) bytes = true) : other = name := by
  have hnames : outer ++ [other] = here ++ [name] := by simpa [onlyAt] using h
  exact List.singleton_inj.1 (List.append_inj' hnames rfl).2

variable {here names place : List Name} {name : Name} {tree child new : FileTree}
  {entries : List (Name × FileTree)}

mutual

/-- Nothing is gone besides the way to the file. -/
lemma without_onlyAt {here : List Name} (h : ¬here <+: place) :
    ∀ tree : FileTree, tree.without (onlyAt place) here = tree
  | file _ => rfl
  | folder entries => by
    rw [without, entriesWithout_onlyAt entries]
    intro e _ hprefix
    exact h ((List.prefix_append here [e.1]).trans hprefix)

lemma entriesWithout_onlyAt {here : List Name} : ∀ entries : List (Name × FileTree),
    (∀ e ∈ entries, ¬here ++ [e.1] <+: place) →
      entriesWithout (onlyAt place) here entries = entries
  | [], _ => rfl
  | (name, tree) :: entries, h => by
    obtain ⟨hname, hentries⟩ := List.forall_mem_cons.1 h
    have hkept : tree.isGone (onlyAt place) (here ++ [name]) = false := by
      cases tree with
      | folder entries => rfl
      | file bytes =>
        have hne : here ++ [name] ≠ place := fun heq => hname (heq ▸ List.prefix_refl _)
        simpa [isGone, onlyAt] using hne
    rw [entriesWithout, if_neg (by simp [hkept]), without_onlyAt hname tree,
      entriesWithout_onlyAt entries hentries]

end

/-- The entries of other names are not on the way. -/
lemma not_isPrefix_of_ne {other : Name} (h : other ≠ name) :
    ¬here ++ [other] <+: here ++ name :: names := by
  rw [List.prefix_append_right_inj, List.cons_prefix_cons]
  exact fun hprefix => h hprefix.1

lemma entriesWithout_of_ne (h : ∀ e ∈ entries, e.1 ≠ name) :
    entriesWithout (onlyAt (here ++ name :: names)) here entries = entries :=
  entriesWithout_onlyAt entries fun e he => not_isPrefix_of_ne (h e he)

/-- The first entry is left if its name is another one. -/
lemma entriesWithout_cons_of_ne {e : Name × FileTree} (h : e.1 ≠ name) :
    entriesWithout (onlyAt (here ++ name :: names)) here (e :: entries)
      = e :: entriesWithout (onlyAt (here ++ name :: names)) here entries := by
  have hone := @entriesWithout_of_ne here names name [e] (by simpa using h)
  obtain ⟨first, tree⟩ := e
  rw [entriesWithout] at hone ⊢
  split at hone
  · cases hone
  · next hkept => rw [if_neg hkept, (List.cons.inj hone).1]

/-- A file that is put where there is none can be taken away again. -/
lemma entriesWithout_putEntry_file (h : ∀ e ∈ entries, e.1 ≠ name) (bytes : Contents) :
    entriesWithout (onlyAt (here ++ [name])) here (putEntry name (file bytes) entries)
      = entries := by
  induction entries with
  | nil => simp [putEntry, entriesWithout, isGone, onlyAt]
  | cons e entries ih =>
    obtain ⟨hname, hentries⟩ := List.forall_mem_cons.1 h
    rw [putEntry, if_neg (by simpa using hname), entriesWithout_cons_of_ne hname, ih hentries]

/-- What was changed below an entry can be changed back there. -/
lemma entriesWithout_putEntry (hdistinct : haveDistinctNames entries = true)
    (hchild : child? (folder entries) name = some child)
    (hkept : new.isGone (onlyAt (here ++ name :: names)) (here ++ [name]) = false)
    (hnew : new.without (onlyAt (here ++ name :: names)) (here ++ [name]) = child) :
    entriesWithout (onlyAt (here ++ name :: names)) here (putEntry name new entries)
      = entries := by
  induction entries with
  | nil => cases hchild
  | cons e entries ih =>
    obtain ⟨first, tree⟩ := e
    obtain ⟨hfirst, -, hentries⟩ := haveDistinctNames_cons hdistinct
    by_cases hname : first = name
    · subst hname
      obtain rfl : tree = child := by simpa [child?] using hchild
      rw [putEntry, if_pos (by simp), entriesWithout, if_neg (by simp [hkept]), hnew,
        entriesWithout_of_ne hfirst]
    · have hrest : child? (folder entries) name = some child := by
        simpa [child?, hname] using hchild
      rw [putEntry, if_neg (by simpa using hname), entriesWithout_cons_of_ne hname,
        ih hentries hrest]

/-- **A file that is put into a folder where there was none can be taken away again**, which gives
back what there was. -/
lemma without_put (hdistinct : tree.hasDistinctNames = true)
    (hfolder : tree.at? names = some (folder entries)) (hfree : ∀ e ∈ entries, e.1 ≠ name)
    (bytes : Contents) (here : List Name) :
    (tree.put (file bytes) (names ++ [name])).without (onlyAt (here ++ (names ++ [name]))) here
      = tree := by
  induction names generalizing tree here with
  | nil =>
    cases hfolder
    exact congrArg folder (entriesWithout_putEntry_file hfree bytes)
  | cons first names ih =>
    obtain ⟨next, hnext, hat⟩ := Option.bind_eq_some_iff.1 hfolder
    cases tree with
    | file bytes => cases hnext
    | folder outer =>
      have hnext' := ih (hasDistinctNames_of_entry hdistinct hnext) hat (here ++ [first])
      rw [List.append_assoc, List.singleton_append] at hnext'
      rw [List.cons_append, put, hnext, Option.getD_some, without]
      refine congrArg folder (entriesWithout_putEntry hdistinct hnext ?_ hnext')
      -- what is on the way to the new file is a folder, and folders are kept
      cases names <;> rfl

lemma mem_putEntry {e : Name × FileTree} (he : e ∈ putEntry name new entries) :
    e = (name, new) ∨ e ∈ entries := by
  induction entries with
  | nil => exact .inl (List.mem_singleton.1 he)
  | cons entry entries ih =>
    rw [putEntry] at he
    split at he
    · exact (List.mem_cons.1 he).imp id (List.mem_cons_of_mem _)
    · rcases List.mem_cons.1 he with rfl | he
      · exact .inr List.mem_cons_self
      · exact (ih he).imp id (List.mem_cons_of_mem _)

lemma haveDistinctNames_putEntry (h : haveDistinctNames entries = true)
    (hnew : new.hasDistinctNames = true) : haveDistinctNames (putEntry name new entries) = true := by
  induction entries with
  | nil => simp [putEntry, haveDistinctNames, hnew]
  | cons e entries ih =>
    obtain ⟨first, tree⟩ := e
    obtain ⟨hfirst, htree, hentries⟩ := haveDistinctNames_cons h
    rw [putEntry]
    split
    · next hname =>
      have hname : first = name := by simpa using hname
      subst hname
      simpa [haveDistinctNames, hnew, hentries] using hfirst
    · next hname =>
      have hother : ∀ e ∈ putEntry name new entries, e.1 ≠ first := by
        intro e he
        rcases mem_putEntry he with rfl | he
        · rintro rfl
          exact hname (by simp)
        · exact hfirst e he
      simpa [haveDistinctNames, htree, ih hentries] using hother

lemma hasDistinctNames_put (h : tree.hasDistinctNames = true) (hnew : new.hasDistinctNames = true) :
    (tree.put new names).hasDistinctNames = true := by
  induction names generalizing tree with
  | nil => exact hnew
  | cons name names ih =>
    have hchild : ((tree.child? name).getD nothing).hasDistinctNames = true := by
      cases hentry : tree.child? name with
      | none => rfl
      | some child => exact hasDistinctNames_of_entry h hentry
    cases tree with
    | file bytes => exact haveDistinctNames_putEntry rfl (ih hchild)
    | folder entries => exact haveDistinctNames_putEntry h (ih hchild)

lemma child?_putEntry : child? (folder (putEntry name new entries)) name = some new := by
  induction entries with
  | nil => simp [putEntry, child?]
  | cons e entries ih =>
    rw [putEntry]
    split
    · simp [child?]
    · next hname => simpa [child?, hname] using ih

/-- What was put is where it was put. -/
lemma at?_put (new : FileTree) (names : List Name) (tree : FileTree) :
    (tree.put new names).at? names = some new := by
  induction names generalizing tree with
  | nil => rfl
  | cons name names ih =>
    cases tree with
    | file bytes | folder entries =>
      rw [put, at?, child?_putEntry]
      exact ih _

end FileTree

/-! ## Paths that end with a name -/

namespace Path

/-- A part of a path that leads to an entry of a folder. -/
structure IsName (name : List Char) : Prop where
  firm : isVoid name = false
  single : '/' ∉ name
  undotted : name ≠ ['.', '.']

lemma IsName.lastPart {name : List Char} (h : IsName name) : Path.lastPart name = name := by
  rcases lastPart_cases name with ⟨-, hlast⟩ | ⟨front, part, rfl, -, -⟩
  · exact hlast
  · exact absurd (List.mem_append_right front List.mem_cons_self) h.single

/-- A path whose last part is a name ends with it. -/
lemma IsName.fileName? {name : List Char} (h : IsName name) {p : Path}
    (hlast : Path.lastPart p = name) : Path.fileName? p = some name := by
  subst hlast
  exact fileName?_of_lastPart h.firm h.undotted

lemma IsName.isAbsolute {name : List Char} (h : IsName name) : Path.isAbsolute name = false := by
  cases name with
  | nil => rfl
  | cons c cs =>
    refine Bool.eq_false_iff.2 fun habsolute => h.single ?_
    obtain rfl : c = '/' := by simpa [Path.isAbsolute] using habsolute
    exact List.mem_cons_self

end Path

namespace FileTree

variable {top : FileTree} {here names : List Name} {name : Name}

lemma at?_concat :
    top.at? (here ++ [name]) = (top.at? here).bind fun folder => folder.child? name := by
  rw [at?_append]
  refine congrArg _ (funext fun folder => ?_)
  cases hentry : folder.child? name <;> simp [at?, hentry]

/-- A name leads from a folder to its entry of this name. -/
lemma follow_name_iff (hvoid : Path.isVoid name = false) (hdots : name ≠ ['.', '.']) :
    top.follow [name] here = .ok names ↔
      names = here ++ [name] ∧ (top.at? (here ++ [name])).isSome = true := by
  rw [follow, at?_concat]
  cases top.at? here with
  | none => simp
  | some tree =>
    cases tree with
    | file bytes => simp [child?]
    | folder entries =>
      have hsome : (child? (folder entries) name).isSome = entries.any (·.1 == name) := by
        rw [child?_folder, Option.isSome_map, List.isSome_find?]
      rw [Option.bind_some, hsome]
      dsimp only
      rw [if_neg (by simp [hvoid]), if_neg (by simpa using hdots)]
      split
      · next hany => simp [follow, hany, eq_comm]
      · next hany => simp [hany]

end FileTree

namespace FileSystem

variable {fs : FileSystem} {p folder : Path} {here names : List Name} {name : Name}

/-- A path that ends with a name leads to the entry of this name in a folder. -/
lemma resolve_eq_ok_iff_of_join (hname : Path.IsName name) (hfolder : folder.isAbsolute = true)
    (hp : fs.absolute p = folder.join name) :
    fs.resolve p = .ok names ↔
      ∃ here, fs.top.follow (Path.firmParts folder) [] = .ok here ∧ names = here ++ [name] ∧
        (fs.top.at? (here ++ [name])).isSome = true := by
  have hlast : p.lastPart = name := by
    rw [← Path.lastPart_join fs.workingDirectory p]
    change (fs.absolute p).lastPart = name
    rw [hp, Path.lastPart_join, hname.lastPart]
  have hparts : Path.firmParts (fs.absolute p) = Path.firmParts folder ++ [name] := by
    rw [hp, Path.firmParts_join_name hfolder hname.firm hname.single]
  rw [resolve_eq_ok_iff (by rw [hlast, hname.firm]), hparts, FileTree.follow_append]
  cases fs.top.follow (Path.firmParts folder) [] with
  | error e => exact ⟨fun h => (by cases h), fun ⟨_, h, _⟩ => (by cases h)⟩
  | ok here =>
    refine (FileTree.follow_name_iff hname.firm hname.undotted).trans ⟨?_, ?_⟩
    · exact fun h => ⟨here, rfl, h⟩
    · rintro ⟨here', hsame, h⟩
      cases hsame
      exact h

lemma contains_iff_of_join (hname : Path.IsName name) (hfolder : folder.isAbsolute = true)
    (hp : fs.absolute p = folder.join name) :
    fs.contains p = true ↔
      ∃ here, fs.top.follow (Path.firmParts folder) [] = .ok here ∧
        (fs.top.at? (here ++ [name])).isSome = true := by
  constructor
  · intro hcontains
    obtain ⟨tree, hget⟩ := exists_get_of_contains hcontains
    obtain ⟨names, hresolve, -⟩ := get_eq_ok_iff.1 hget
    obtain ⟨here, hhere, -, hsome⟩ := (resolve_eq_ok_iff_of_join hname hfolder hp).1 hresolve
    exact ⟨here, hhere, hsome⟩
  · rintro ⟨here, hhere, hsome⟩
    obtain ⟨tree, hat⟩ := Option.isSome_iff_exists.1 hsome
    have hresolve := (resolve_eq_ok_iff_of_join hname hfolder hp).2 ⟨here, hhere, rfl, hsome⟩
    exact contains_of_get (get_eq_ok_iff.2 ⟨_, hresolve, hat⟩)

/-- A path that leads to a file ends with the name of the file. -/
lemma lastPart_of_resolve {bytes : Contents} (hresolve : fs.resolve p = .ok (here ++ [name]))
    (hfile : fs.top.at? (here ++ [name]) = some (.file bytes)) : p.lastPart = name := by
  obtain ⟨hvoid, hdots⟩ := lastPart_of_get (get_eq_ok_iff.2 ⟨_, hresolve, hfile⟩)
  obtain ⟨init, hparts⟩ := Path.exists_parts_append (fs.absolute p)
  rw [absolute, Path.lastPart_join] at hparts
  rw [resolve] at hresolve
  split at hresolve
  · cases hresolve
  · rw [absolute, hparts] at hresolve
    obtain ⟨mid, hlast⟩ := FileTree.exists_follow_of_append hresolve
    obtain ⟨hnames, -⟩ := (FileTree.follow_name_iff hvoid hdots).1 hlast
    exact (List.singleton_inj.1 (List.append_inj' hnames rfl).2).symm

/-! ## Files with one more -/

/-- The files as commands find them: the names are ordinary, and the working directory is a folder
that is given by a path from the top. -/
structure IsSound (fs : FileSystem) : Prop where
  ordinary : fs.top.IsOrdinary
  absolute : fs.workingDirectory.isAbsolute = true
  folder : ∃ entries, fs.get fs.workingDirectory = .ok (.folder entries)

/-- The files there are, with one more. -/
def adding (fs : FileSystem) (place : List Name) (bytes : Contents) : FileSystem :=
  { fs with top := fs.top.put (.file bytes) place }

/-- There is a folder that has no entry of a name. -/
structure HasRoom (fs : FileSystem) (here : List Name) (name : Name) : Prop where
  distinct : fs.top.hasDistinctNames = true
  folder : ∃ entries, fs.top.at? here = some (.folder entries)
  free : fs.top.at? (here ++ [name]) = none

/-- Without the new file there is what there was. -/
lemma HasRoom.without_adding (h : fs.HasRoom here name) (bytes : Contents) :
    (fs.adding (here ++ [name]) bytes).without (FileTree.onlyAt (here ++ [name])) = fs := by
  obtain ⟨entries, hfolder⟩ := h.folder
  have hfree : ∀ e ∈ entries, e.1 ≠ name := by
    have hnone := h.free
    rw [FileTree.at?_concat, hfolder, Option.bind_some, FileTree.child?_folder,
      Option.map_eq_none_iff, List.find?_eq_none] at hnone
    simpa using hnone
  exact congrArg (FileSystem.mk · fs.workingDirectory)
    (FileTree.without_put h.distinct hfolder hfree bytes [])

lemma HasRoom.distinct_adding (h : fs.HasRoom here name) (bytes : Contents) :
    (fs.adding (here ++ [name]) bytes).top.hasDistinctNames = true :=
  FileTree.hasDistinctNames_put h.distinct rfl

/-- What led somewhere still leads there. -/
lemma HasRoom.follow_adding (h : fs.HasRoom here name) (bytes : Contents)
    {parts : List (List Char)} {start : List Name} (hfollow : fs.top.follow parts start = .ok names) :
    (fs.adding (here ++ [name]) bytes).top.follow parts start = .ok names := by
  rw [← h.without_adding bytes] at hfollow
  exact FileTree.follow_of_without (h.distinct_adding bytes) hfollow

/-- What was at a path is still read there. -/
lemma HasRoom.read_adding (h : fs.HasRoom here name) (bytes : Contents)
    (hp : fs.contains p = true) : (fs.adding (here ++ [name]) bytes).read p = fs.read p := by
  rw [← h.without_adding bytes] at hp
  rw [← read_without (h.distinct_adding bytes) hp, h.without_adding]

lemma HasRoom.isFile_adding (h : fs.HasRoom here name) (bytes : Contents)
    (hp : fs.contains p = true) : (fs.adding (here ++ [name]) bytes).isFile p = fs.isFile p := by
  rw [← h.without_adding bytes] at hp
  rw [← isFile_without (h.distinct_adding bytes) hp, h.without_adding]

lemma HasRoom.get_file_adding (h : fs.HasRoom here name) (bytes : Contents) {old : Contents}
    (hp : fs.get p = .ok (.file old)) :
    (fs.adding (here ++ [name]) bytes).get p = .ok (.file old) := by
  rw [← h.without_adding bytes] at hp
  obtain ⟨names, before, hbefore, htree⟩ := exists_get_of_without (h.distinct_adding bytes) hp
  cases before with
  | file bytes => rwa [htree]
  | folder entries => cases htree

lemma HasRoom.exists_folder_adding (h : fs.HasRoom here name) (bytes : Contents)
    {entries : List (Name × FileTree)} (hp : fs.get p = .ok (.folder entries)) :
    ∃ entries', (fs.adding (here ++ [name]) bytes).get p = .ok (.folder entries') := by
  rw [← h.without_adding bytes] at hp
  obtain ⟨names, before, hbefore, htree⟩ := exists_get_of_without (h.distinct_adding bytes) hp
  cases before with
  | file old => cases htree
  | folder entries' => exact ⟨entries', hbefore⟩

/-- **A path that does not lead to the new file leads somewhere if it did before.** -/
lemma HasRoom.contains_adding (h : fs.HasRoom here name) {bytes : Contents}
    (hp : (fs.adding (here ++ [name]) bytes).resolve p ≠ .ok (here ++ [name])) :
    (fs.adding (here ++ [name]) bytes).contains p = fs.contains p := by
  rw [Bool.eq_iff_iff]
  constructor
  · intro hcontains
    obtain ⟨tree, hget⟩ := exists_get_of_contains hcontains
    obtain ⟨names, hresolve, hat⟩ := get_eq_ok_iff.1 hget
    -- only the new file is gone again, and the path does not lead there
    have hkept : tree.isGone (FileTree.onlyAt (here ++ [name])) names = false := by
      cases tree with
      | folder entries => rfl
      | file old =>
        have hne : names ≠ here ++ [name] := fun heq => hp (heq ▸ hresolve)
        simpa [FileTree.isGone, FileTree.onlyAt] using hne
    have hget' := get_without hresolve hat hkept
    rw [h.without_adding] at hget'
    exact contains_of_get hget'
  · intro hcontains
    rw [← h.without_adding bytes] at hcontains
    obtain ⟨tree, hget⟩ := exists_get_of_contains hcontains
    obtain ⟨-, before, hbefore, -⟩ := exists_get_of_without (h.distinct_adding bytes) hget
    exact contains_of_get hbefore

/-- A path that ends with another name does not lead to the new file. -/
lemma HasRoom.contains_adding_of_lastPart (h : fs.HasRoom here name) {bytes : Contents}
    (hp : p.lastPart ≠ name) :
    (fs.adding (here ++ [name]) bytes).contains p = fs.contains p :=
  h.contains_adding fun hresolve =>
    hp (lastPart_of_resolve hresolve (FileTree.at?_put _ _ _))

end FileSystem

end PermissionLint
