/-
Walking through the same folder at different places.

What a walk finds below a folder is found at the paths from the folder, joined to the path of the
folder (`walkTree_folder`).  Ignore files of the folders above reach into the walk, and if there are
none, then the walk depends on the place of the folder in no other way (`walk_of_clear`).
-/
import PermissionLint.Proofs.Path.Join
import PermissionLint.Walk

namespace PermissionLint

open PermissionLint.Ignore

/-- What a walk needs: the path leads somewhere, and the ignore files above are well formed. -/
lemma walk_eq_ok_iff {fs : FileSystem} {respectGitignore : Bool} {root : Path}
    {found : List Found} :
    fs.walk respectGitignore root = .ok found ↔
      ∃ names tree, fs.resolve root = .ok names ∧ fs.top.at? names = some tree ∧
        errorsAbove (Source.used respectGitignore) fs.top [] names = [] ∧
        walkTree (Source.used respectGitignore) (scopesAbove fs.top [] names) root tree
          = found := by
  rw [FileSystem.walk]
  constructor
  · intro h
    split at h
    · cases h
    next names hresolve =>
      split at h
      · cases h
      next tree hat =>
        split at h
        · next herrors => exact ⟨names, tree, hresolve, hat, herrors, Except.ok.inj h⟩
        · cases h
  · rintro ⟨names, tree, hresolve, hat, herrors, rfl⟩
    rw [hresolve]
    dsimp only
    rw [hat]
    dsimp only
    rw [herrors]

/-! ## Folders without ignore files -/

namespace Ignore

/-- The folder holds one of the ignore files, whether it is read or not. -/
def hasIgnoreFile (folder : FileTree) : Bool :=
  [Source.ignore, .gitignore, .exclude].any fun s =>
    match folder.at? s.names with
    | some (.file _) => true
    | _ => false

/-- A folder on the way to the end of a chain of names holds an ignore file. -/
def hasIgnoreFileAbove (folder : FileTree) : List Name → Bool
  | [] => false
  | name :: names =>
    hasIgnoreFile folder || (folder.child? name).any fun child => hasIgnoreFileAbove child names

/-- The ignore files have no rules. -/
def Scope.IsSilent (s : Scope) : Prop := ∀ source, s.rules source = []

lemma bytes_of_hasIgnoreFile {folder : FileTree} (h : hasIgnoreFile folder = false) (s : Source) :
    s.bytes folder = [] := by
  have hs : s ∈ [Source.ignore, .gitignore, .exclude] := by cases s <;> decide
  have hnone := List.any_eq_false.1 h s hs
  rw [Source.bytes]
  cases hat : folder.at? s.names with
  | none => rfl
  | some tree =>
    cases tree with
    | folder entries => rfl
    | file bytes =>
      rw [hat] at hnone
      exact absurd rfl hnone

lemma isSilent_ofFolder {folder : FileTree} (h : hasIgnoreFile folder = false) :
    (Scope.ofFolder folder).IsSilent := by
  have hrules : ∀ s : Source, rulesOf (s.bytes folder) = [] := by
    intro s
    rw [bytes_of_hasIgnoreFile h]
    rfl
  intro source
  cases source <;> exact hrules _

lemma Scope.IsSilent.descend {s : Scope} (h : s.IsSilent) (name : Name) :
    (s.descend name).IsSilent := by
  intro source
  rw [← h source]
  cases source <;> rfl

lemma isSilent_map_descend {scopes : List Scope} (h : ∀ s ∈ scopes, s.IsSilent) (name : Name) :
    ∀ s ∈ scopes.map (·.descend name), s.IsSilent := by
  intro s hs
  obtain ⟨scope, hscope, rfl⟩ := List.mem_map.1 hs
  exact (h scope hscope).descend name

/-- Scopes without rules decide nothing. -/
lemma isIgnored_append (sources : List Source) (own : List Scope) {outer : List Scope}
    (h : ∀ s ∈ outer, s.IsSilent) (name : Name) (isFolder : Bool) :
    isIgnored sources (own ++ outer) name isFolder = isIgnored sources own name isFolder := by
  have hnone : ∀ source, outer.findSome? (·.verdict? source name isFolder) = none := by
    intro source
    refine List.findSome?_eq_none_iff.2 fun s hs => ?_
    rw [Scope.verdict?, h s hs source]
    rfl
  have hfind : ∀ source, (own ++ outer).findSome? (·.verdict? source name isFolder)
      = own.findSome? (·.verdict? source name isFolder) := by
    intro source
    rw [List.findSome?_append, hnone source, Option.or_none]
  simp only [isIgnored, hfind]

lemma isSilent_scopesAbove {folder : FileTree} {scopes : List Scope} {names : List Name}
    (hclear : hasIgnoreFileAbove folder names = false) (h : ∀ s ∈ scopes, s.IsSilent) :
    ∀ s ∈ scopesAbove folder scopes names, s.IsSilent := by
  induction names generalizing folder scopes with
  | nil => exact h
  | cons name names ih =>
    rw [hasIgnoreFileAbove, Bool.or_eq_false_iff] at hclear
    obtain ⟨hfolder, hchild⟩ := hclear
    rw [scopesAbove]
    cases hentry : folder.child? name with
    | none => exact h
    | some child =>
      rw [hentry] at hchild
      refine ih hchild (isSilent_map_descend ?_ name)
      exact List.forall_mem_cons.2 ⟨isSilent_ofFolder hfolder, h⟩

lemma errorsAbove_of_clear (sources : List Source) {folder : FileTree} {names : List Name}
    (hclear : hasIgnoreFileAbove folder names = false) (here : List Name) :
    errorsAbove sources folder here names = [] := by
  induction names generalizing folder here with
  | nil => rfl
  | cons name names ih =>
    rw [hasIgnoreFileAbove, Bool.or_eq_false_iff] at hclear
    obtain ⟨hfolder, hchild⟩ := hclear
    have hown : (sources.flatMap fun s => (errorsOf (s.bytes folder)).map fun e =>
        FileError.mk (pathOf (here ++ s.names)) e) = [] := by
      refine List.flatMap_eq_nil_iff.2 fun s _ => ?_
      rw [bytes_of_hasIgnoreFile hfolder]
      rfl
    rw [errorsAbove, hown]
    cases hentry : folder.child? name with
    | none => rfl
    | some child =>
      rw [hentry] at hchild
      exact ih hchild _

end Ignore

mutual

/-- Scopes without rules make no difference to a walk. -/
lemma walkTree_append (sources : List Source) (own : List Scope) {outer : List Scope}
    (h : ∀ s ∈ outer, s.IsSilent) (path : Path) : ∀ tree : FileTree,
      walkTree sources (own ++ outer) path tree = walkTree sources own path tree
  | .file _ => rfl
  | .folder entries =>
    walkEntries_append sources (Scope.ofFolder (.folder entries) :: own) h path entries

lemma walkEntries_append (sources : List Source) (own : List Scope) {outer : List Scope}
    (h : ∀ s ∈ outer, s.IsSilent) (path : Path) : ∀ entries : List (Name × FileTree),
      walkEntries sources (own ++ outer) path entries = walkEntries sources own path entries
  | [] => rfl
  | (name, tree) :: entries => by
    rw [walkEntries, walkEntries, isIgnored_append sources own h, List.map_append,
      walkTree_append sources _ (isSilent_map_descend h name) _ tree,
      walkEntries_append sources own h path entries]

end

/-- **A walk below folders without ignore files is one through the folder alone.** -/
theorem walk_of_clear {fs : FileSystem} {root : Path} {names : List Name} {tree : FileTree}
    (hresolve : fs.resolve root = .ok names) (hat : fs.top.at? names = some tree)
    (hclear : hasIgnoreFileAbove fs.top names = false) (respectGitignore : Bool) :
    fs.walk respectGitignore root
      = .ok (walkTree (Source.used respectGitignore) [] root tree) := by
  have hsilent : ∀ s ∈ scopesAbove fs.top [] names, s.IsSilent :=
    isSilent_scopesAbove hclear fun s hs => absurd hs List.not_mem_nil
  have hwalk := walkTree_append (Source.used respectGitignore) [] hsilent root tree
  exact walk_eq_ok_iff.2 ⟨names, tree, hresolve, hat, errorsAbove_of_clear _ hclear [], hwalk⟩

/-! ## Paths from the folder -/

namespace FileTree

mutual

/-- Every name in the tree is a part of a path that counts, and a single one. -/
def isWellNamed : FileTree → Bool
  | file _ => true
  | folder entries => areWellNamed entries

/-- Every name of the entries and below them is such a part. -/
def areWellNamed : List (Name × FileTree) → Bool
  | [] => true
  | (name, tree) :: entries =>
    !Path.isVoid name && !name.contains '/' && tree.isWellNamed && areWellNamed entries

end

lemma areWellNamed_cons {name : Name} {tree : FileTree} {entries : List (Name × FileTree)}
    (h : areWellNamed ((name, tree) :: entries) = true) :
    Path.LeadsBelow name ∧ tree.isWellNamed = true ∧ areWellNamed entries = true := by
  simp only [areWellNamed, Bool.and_eq_true, Bool.not_eq_true', List.contains_eq_mem,
    decide_eq_false_iff_not] at h
  obtain ⟨⟨⟨hvoid, hslash⟩, htree⟩, hentries⟩ := h
  exact ⟨Path.leadsBelow_name hvoid hslash, htree, hentries⟩

end FileTree

/-- The file, at its path from a folder. -/
def Found.below (folder : Path) (f : Found) : Found := { f with path := folder.join f.path }

/-- Paths below the folder `p` are paths below `q`, joined to another folder. -/
def IsPlaced (folder q p : Path) : Prop :=
  ∀ name : Path, name.LeadsBelow →
    p.join name = folder.join (q.join name) ∧ (q.join name).LeadsBelow

lemma isPlaced_join (folder : Path) {q : Path} (hq : q.LeadsBelow) :
    IsPlaced folder q (folder.join q) :=
  fun _ hname => ⟨Path.join_assoc folder q hname.isAbsolute, hq.join hname⟩

lemma isPlaced_nil (folder : Path) : IsPlaced folder [] folder := by
  intro name hname
  have hnil : Path.join [] name = name := by
    rw [Path.join_eq_append [] hname.isAbsolute]
    rfl
  rw [hnil]
  exact ⟨rfl, hname⟩

mutual

lemma walkTree_join (sources : List Source) (scopes : List Scope) (folder : Path) {q : Path}
    (hq : q.LeadsBelow) : ∀ tree : FileTree, tree.isWellNamed = true →
      walkTree sources scopes (folder.join q) tree
        = (walkTree sources scopes q tree).map (·.below folder)
  | .file _, _ => rfl
  | .folder entries, h => walkEntries_join sources _ (isPlaced_join folder hq) entries h

lemma walkEntries_join (sources : List Source) (scopes : List Scope) {folder q p : Path}
    (hplaced : IsPlaced folder q p) : ∀ entries : List (Name × FileTree),
      FileTree.areWellNamed entries = true →
      walkEntries sources scopes p entries
        = (walkEntries sources scopes q entries).map (·.below folder)
  | [], _ => rfl
  | (name, tree) :: entries, h => by
    obtain ⟨hname, htree, hentries⟩ := FileTree.areWellNamed_cons h
    obtain ⟨hjoin, hbelow⟩ := hplaced name hname
    rw [walkEntries, walkEntries, List.map_append, walkEntries_join sources scopes hplaced entries
      hentries, hjoin, walkTree_join sources _ folder hbelow tree htree]
    split <;> rfl

end

mutual

lemma leadsBelow_walkTree (sources : List Source) (scopes : List Scope) {q : Path}
    (hq : q.LeadsBelow) : ∀ tree : FileTree, tree.isWellNamed = true →
      ∀ f ∈ walkTree sources scopes q tree, f.path.LeadsBelow
  | .file _, _ => by
    intro f hf
    obtain rfl := List.mem_singleton.1 hf
    exact hq
  | .folder entries, h => leadsBelow_walkEntries sources _ (fun _ => hq.join) entries h

lemma leadsBelow_walkEntries (sources : List Source) (scopes : List Scope) {q : Path}
    (hq : ∀ name : Path, name.LeadsBelow → (q.join name).LeadsBelow) :
    ∀ entries : List (Name × FileTree), FileTree.areWellNamed entries = true →
      ∀ f ∈ walkEntries sources scopes q entries, f.path.LeadsBelow
  | [], _ => fun f hf => absurd hf List.not_mem_nil
  | (name, tree) :: entries, h => by
    obtain ⟨hname, htree, hentries⟩ := FileTree.areWellNamed_cons h
    intro f hf
    rw [walkEntries, List.mem_append] at hf
    rcases hf with hf | hf
    · split at hf
      · exact absurd hf List.not_mem_nil
      · exact leadsBelow_walkTree sources _ (hq name hname) tree htree f hf
    · exact leadsBelow_walkEntries sources scopes hq entries hentries f hf

end

/-- The files below a folder, with their paths from the folder. -/
def FileTree.filesBelow (respectGitignore : Bool) (tree : FileTree) : List Found :=
  walkTree (Source.used respectGitignore) [] [] tree

/-- **A walk through a folder finds the same files wherever the folder is.** -/
theorem walkTree_folder {entries : List (Name × FileTree)}
    (h : (FileTree.folder entries).isWellNamed = true) (respectGitignore : Bool) (root : Path) :
    walkTree (Source.used respectGitignore) [] root (.folder entries)
      = ((FileTree.folder entries).filesBelow respectGitignore).map (·.below root) :=
  walkEntries_join _ _ (isPlaced_nil root) entries h

lemma leadsBelow_of_mem_filesBelow {entries : List (Name × FileTree)}
    (h : (FileTree.folder entries).isWellNamed = true) (respectGitignore : Bool) :
    ∀ f ∈ (FileTree.folder entries).filesBelow respectGitignore, f.path.LeadsBelow :=
  leadsBelow_walkEntries _ _ (fun name hname => (isPlaced_nil [] name hname).2) entries h

end PermissionLint
