/-
Walking through a folder after files have been deleted.

Folders are kept, so paths lead where they did unless the file at their end is gone.  As long as no
ignore file is deleted, the walk leaves out the same entries as before, and finds the same files
except those that are gone (`filter_walk_without`).
-/
import PermissionLint.Proofs.Walk

namespace PermissionLint

open PermissionLint.Ignore

/-! ## Deleting files -/

namespace FileTree

/-- What is at the end of a chain of names is a file that is gone. -/
def isGone (gone : List Name → Contents → Bool) (here : List Name) : FileTree → Bool
  | file bytes => gone here bytes
  | folder _ => false

mutual

/-- The tree at the end of a chain of names, without the files below it that are gone. -/
def without (gone : List Name → Contents → Bool) (here : List Name) : FileTree → FileTree
  | file bytes => file bytes
  | folder entries => folder (entriesWithout gone here entries)

/-- The entries of a folder without the files that are gone. -/
def entriesWithout (gone : List Name → Contents → Bool) (here : List Name) :
    List (Name × FileTree) → List (Name × FileTree)
  | [] => []
  | (name, tree) :: entries =>
    if tree.isGone gone (here ++ [name]) then entriesWithout gone here entries
    else (name, tree.without gone (here ++ [name])) :: entriesWithout gone here entries

end

variable {gone : List Name → Contents → Bool} {here : List Name} {tree child : FileTree}
  {name : Name} {names : List Name}

lemma isFolder_without : (tree.without gone here).isFolder = tree.isFolder := by
  cases tree <;> rfl

/-- An entry that is not gone is still there. -/
lemma child?_without (hchild : tree.child? name = some child)
    (hkept : child.isGone gone (here ++ [name]) = false) :
    child? (tree.without gone here) name = some (child.without gone (here ++ [name])) := by
  cases tree with
  | file bytes => cases hchild
  | folder entries =>
    rw [without]
    induction entries with
    | nil => cases hchild
    | cons e entries ih =>
      obtain ⟨first, tree⟩ := e
      by_cases hname : first = name
      · subst hname
        obtain rfl : tree = child := by simpa [child?] using hchild
        rw [entriesWithout, if_neg (by simp [hkept])]
        simp [child?]
      · have hrest : child? (folder entries) name = some child := by
          simpa [child?, hname] using hchild
        rw [entriesWithout]
        split
        · exact ih hrest
        · simpa [child?, hname] using ih hrest

lemma child?_without_eq_none (h : tree.child? name = none) :
    child? (tree.without gone here) name = none := by
  cases tree with
  | file bytes => rfl
  | folder entries =>
    rw [without]
    induction entries with
    | nil => rfl
    | cons e entries ih =>
      obtain ⟨first, tree⟩ := e
      have hne : first ≠ name := by
        rintro rfl
        simp [child?] at h
      have hrest : child? (folder entries) name = none := by simpa [child?, hne] using h
      rw [entriesWithout]
      split
      · exact ih hrest
      · simpa [child?, hne] using ih hrest

/-- What is on the way to something that is not gone is not gone. -/
lemma exists_child?_of_at? (hchild : tree.at? (name :: names) = some child)
    (hkept : child.isGone gone (here ++ name :: names) = false) :
    ∃ next, tree.child? name = some next ∧ next.isGone gone (here ++ [name]) = false ∧
      next.at? names = some child ∧ child.isGone gone (here ++ [name] ++ names) = false := by
  obtain ⟨next, hnext, hchild⟩ := Option.bind_eq_some_iff.1 hchild
  rw [List.append_cons] at hkept
  refine ⟨next, hnext, ?_, hchild, hkept⟩
  cases next with
  | folder entries => rfl
  | file bytes =>
    -- nothing is below a file, so the names end here
    cases names with
    | nil =>
      cases hchild
      rwa [List.append_nil] at hkept
    | cons part parts => cases hchild

/-- What is not gone is still at the end of its names. -/
lemma at?_without (hchild : tree.at? names = some child)
    (hkept : child.isGone gone (here ++ names) = false) :
    (tree.without gone here).at? names = some (child.without gone (here ++ names)) := by
  induction names generalizing tree here with
  | nil =>
    cases hchild
    rw [List.append_nil]
    rfl
  | cons name names ih =>
    obtain ⟨next, hnext, hnextkept, hchild, hkept⟩ := exists_child?_of_at? hchild hkept
    rw [at?, child?_without hnext hnextkept, List.append_cons here name names]
    exact ih hchild hkept

/-- What a path comes by on the way to something that is not gone is not gone. -/
lemma exists_at?_of_follow {top : FileTree} {parts : List (List Char)}
    (h : top.follow parts here = .ok names) (hchild : top.at? names = some child)
    (hkept : child.isGone gone names = false) :
    ∃ next, top.at? here = some next ∧ next.isGone gone here = false := by
  cases parts with
  | nil =>
    cases h
    exact ⟨child, hchild, hkept⟩
  | cons part parts =>
    rw [follow] at h
    split at h
    · next entries hfolder => exact ⟨.folder entries, hfolder, rfl⟩
    · cases h
    · cases h

lemma any_name {entries : List (Name × FileTree)}
    (h : child? (folder entries) name = some child) : entries.any (·.1 == name) = true := by
  obtain ⟨e, he, -⟩ := Option.map_eq_some_iff.1 h
  exact List.any_eq_true.2 ⟨e, List.mem_of_find?_eq_some he, by simpa using List.find?_some he⟩

/-- A path that leads to something that is not gone still leads there. -/
lemma follow_without {top : FileTree} {parts : List (List Char)}
    (h : top.follow parts here = .ok names) (hchild : top.at? names = some child)
    (hkept : child.isGone gone names = false) :
    (top.without gone []).follow parts here = .ok names := by
  induction parts generalizing here with
  | nil => exact h
  | cons part parts ih =>
    rw [follow] at h ⊢
    split at h
    · next entries hfolder =>
      have hfolder' : (top.without gone []).at? here
          = some (.folder (entriesWithout gone here entries)) := at?_without hfolder rfl
      rw [hfolder']
      dsimp only
      split at h
      · next hvoid => rw [if_pos hvoid, ih h]
      next hvoid =>
      split at h
      · next hdots => rw [if_neg hvoid, if_pos hdots, ih h]
      next hdots =>
      split at h
      · -- the entry is still there, as the path leads on from it
        obtain ⟨next, hnext, hnextkept⟩ := exists_at?_of_follow h hchild hkept
        rw [at?_append, hfolder, Option.bind_some, at?] at hnext
        obtain ⟨entry, hentry, hlast⟩ := Option.bind_eq_some_iff.1 hnext
        cases hlast
        have hany := any_name (child?_without hentry hnextkept)
        rw [if_neg hvoid, if_neg hdots, if_pos hany, ih h]
      · cases h
    · cases h
    · cases h

end FileTree

/-- The files there are, without those that are gone. -/
def FileSystem.without (fs : FileSystem) (gone : List Name → Contents → Bool) : FileSystem :=
  { fs with top := fs.top.without gone [] }

namespace FileSystem

variable {fs : FileSystem} {gone : List Name → Contents → Bool} {p : Path} {names : List Name}
  {tree : FileTree}

lemma resolve_without (hresolve : fs.resolve p = .ok names) (hat : fs.top.at? names = some tree)
    (hkept : tree.isGone gone names = false) : (fs.without gone).resolve p = .ok names := by
  rw [resolve] at hresolve ⊢
  split at hresolve
  · cases hresolve
  · next hne =>
    rw [if_neg hne]
    exact FileTree.follow_without hresolve hat hkept

lemma get_without (hresolve : fs.resolve p = .ok names) (hat : fs.top.at? names = some tree)
    (hkept : tree.isGone gone names = false) :
    (fs.without gone).get p = .ok (tree.without gone names) :=
  get_eq_ok_iff.2 ⟨names, resolve_without hresolve hat hkept, FileTree.at?_without hat hkept⟩

end FileSystem

/-! ## Ignore files -/

namespace Ignore

/-- No file on the way to an ignore file is gone. -/
def Spares (gone : List Name → Contents → Bool) : Prop :=
  ∀ s : Source, ∀ name ∈ s.names, ∀ here bytes, gone (here ++ [name]) bytes = false

variable {gone : List Name → Contents → Bool} {here : List Name} {folder : FileTree}

lemma at?_without_of_spares {names : List Name}
    (h : ∀ name ∈ names, ∀ here bytes, gone (here ++ [name]) bytes = false)
    (here : List Name) (tree : FileTree) :
    (tree.without gone here).at? names
      = (tree.at? names).map (·.without gone (here ++ names)) := by
  induction names generalizing tree here with
  | nil =>
    rw [List.append_nil]
    rfl
  | cons name names ih =>
    rw [List.forall_mem_cons] at h
    obtain ⟨hname, hnames⟩ := h
    rw [FileTree.at?, FileTree.at?]
    cases hentry : tree.child? name with
    | none =>
      rw [FileTree.child?_without_eq_none hentry]
      rfl
    | some child =>
      have hkept : child.isGone gone (here ++ [name]) = false := by
        cases child with
        | file bytes => exact hname here bytes
        | folder entries => rfl
      rw [FileTree.child?_without hentry hkept]
      change (child.without gone (here ++ [name])).at? names = (child.at? names).map _
      rw [ih hnames, List.append_assoc]
      rfl

/-- The ignore files are as they were. -/
lemma bytes_without (h : Spares gone) (s : Source) (here : List Name) (folder : FileTree) :
    s.bytes (folder.without gone here) = s.bytes folder := by
  rw [Source.bytes, Source.bytes, at?_without_of_spares (h s)]
  cases folder.at? s.names with
  | none => rfl
  | some tree => cases tree <;> rfl

lemma ofFolder_without (h : Spares gone) (here : List Name) (folder : FileTree) :
    Scope.ofFolder (folder.without gone here) = Scope.ofFolder folder := by
  rw [Scope.ofFolder, Scope.ofFolder, bytes_without h, bytes_without h, bytes_without h]

lemma scopesAbove_without (h : Spares gone) {names : List Name} {child : FileTree}
    (hat : folder.at? names = some child) (hkept : child.isGone gone (here ++ names) = false)
    (scopes : List Scope) :
    scopesAbove (folder.without gone here) scopes names = scopesAbove folder scopes names := by
  induction names generalizing folder here scopes with
  | nil => rfl
  | cons name names ih =>
    obtain ⟨next, hnext, hnextkept, hat, hkept⟩ := FileTree.exists_child?_of_at? hat hkept
    rw [scopesAbove, scopesAbove, FileTree.child?_without hnext hnextkept, hnext,
      ofFolder_without h]
    exact ih hat hkept _

lemma errorsAbove_without (h : Spares gone) (sources : List Source) {names : List Name}
    {child : FileTree} (hat : folder.at? names = some child)
    (hkept : child.isGone gone (here ++ names) = false) :
    errorsAbove sources (folder.without gone here) here names
      = errorsAbove sources folder here names := by
  induction names generalizing folder here with
  | nil => rfl
  | cons name names ih =>
    obtain ⟨next, hnext, hnextkept, hat, hkept⟩ := FileTree.exists_child?_of_at? hat hkept
    rw [errorsAbove, errorsAbove, FileTree.child?_without hnext hnextkept, hnext]
    simp only [bytes_without h]
    rw [ih hat hkept]

end Ignore

/-! ## Walking -/

section

/-- A file that is gone does not have the property, whatever folder it was found in. -/
def Misses (gone : List Name → Contents → Bool) (p : Found → Bool) : Prop :=
  ∀ here name bytes (path : Path), gone (here ++ [name]) bytes = true →
    p ⟨path.join name, bytes⟩ = false

variable {gone : List Name → Contents → Bool} {p : Found → Bool}

mutual

/-- Files that are gone are not found, and all others are found as before. -/
lemma filter_walkTree_without (h : Spares gone)
    (hp : Misses gone p)
    (sources : List Source) (scopes : List Scope) (path : Path) (here : List Name) :
    ∀ tree : FileTree, (walkTree sources scopes path (tree.without gone here)).filter p
      = (walkTree sources scopes path tree).filter p
  | .file _ => rfl
  | .folder entries => by
    have hscope : Scope.ofFolder (.folder (FileTree.entriesWithout gone here entries))
        = Scope.ofFolder (.folder entries) := ofFolder_without h here (.folder entries)
    rw [FileTree.without, walkTree, walkTree, hscope]
    exact filter_walkEntries_without h hp sources _ path here entries

lemma filter_walkEntries_without (h : Spares gone)
    (hp : Misses gone p)
    (sources : List Source) (scopes : List Scope) (path : Path) (here : List Name) :
    ∀ entries : List (Name × FileTree),
      (walkEntries sources scopes path (FileTree.entriesWithout gone here entries)).filter p
        = (walkEntries sources scopes path entries).filter p
  | [] => rfl
  | (name, tree) :: entries => by
    have hentries := filter_walkEntries_without h hp sources scopes path here entries
    rw [FileTree.entriesWithout]
    split
    · next hgone =>
      have hnone : (if isIgnored sources scopes name tree.isFolder then []
          else walkTree sources (scopes.map (·.descend name)) (path.join name) tree).filter p
            = [] := by
        cases tree with
        | folder entries => cases hgone
        | file bytes =>
          split
          · rfl
          · exact List.filter_cons_of_neg (by simp [hp _ _ _ path hgone])
      rw [walkEntries, List.filter_append, hnone, hentries]
      rfl
    · rw [walkEntries, walkEntries, List.filter_append, List.filter_append, hentries,
        FileTree.isFolder_without]
      split
      · rfl
      · rw [filter_walkTree_without h hp sources _ _ _ tree]

end

/-- A walk from a folder that is left fails as it did before, or finds the same files that have the
property. -/
lemma map_filter_walk_without {fs : FileSystem} (h : Spares gone) (hp : Misses gone p)
    (respectGitignore : Bool) {root : Path} {entries : List (Name × FileTree)}
    (hroot : fs.get root = .ok (.folder entries)) :
    ((fs.without gone).walk respectGitignore root).map (List.filter p)
      = (fs.walk respectGitignore root).map (List.filter p) := by
  obtain ⟨names, hresolve, hat⟩ := FileSystem.get_eq_ok_iff.1 hroot
  have hat' : (fs.without gone).top.at? names
      = some (.folder (FileTree.entriesWithout gone names entries)) :=
    FileTree.at?_without hat rfl
  have hscopes : scopesAbove (fs.without gone).top [] names = scopesAbove fs.top [] names :=
    scopesAbove_without h hat rfl []
  have herrors : errorsAbove (Source.used respectGitignore) (fs.without gone).top [] names
      = errorsAbove (Source.used respectGitignore) fs.top [] names :=
    errorsAbove_without h _ hat rfl
  rw [FileSystem.walk, FileSystem.walk, FileSystem.resolve_without hresolve hat rfl, hresolve]
  dsimp only
  rw [hat, hat', herrors, hscopes]
  dsimp only
  split
  · exact congrArg Except.ok (filter_walkTree_without h hp _ _ root names (.folder entries))
  · rfl

/-- **A walk finds the files that are not gone as it did before.** -/
theorem filter_walk_without {fs : FileSystem} (h : Spares gone) (hp : Misses gone p)
    {respectGitignore : Bool} {root : Path} {entries : List (Name × FileTree)}
    (hroot : fs.get root = .ok (.folder entries)) {found : List Found}
    (hwalk : fs.walk respectGitignore root = .ok found) :
    ∃ found', (fs.without gone).walk respectGitignore root = .ok found' ∧
      found'.filter p = found.filter p := by
  have hsame := map_filter_walk_without h hp respectGitignore hroot
  rw [hwalk] at hsame
  cases hwalk' : (fs.without gone).walk respectGitignore root with
  | error e =>
    rw [hwalk'] at hsame
    cases hsame
  | ok found' =>
    rw [hwalk'] at hsame
    exact ⟨found', rfl, Except.ok.inj hsame⟩

end

end PermissionLint
