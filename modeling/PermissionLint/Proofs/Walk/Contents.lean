/-
A walk gives the files that are at the paths it gives.

A void part of a path asks for a folder and stays in it.  So where a path leads is decided by the
parts that count (`follow_filter`), and two paths with the same components lead to the same file
(`FileSystem.Leads.get`).  The entries that a walk comes by are led to one after the other, so each
file that it finds is the one at its path (`leads_walk`).
-/
import PermissionLint.Proofs.Walk.Distinct

namespace PermissionLint

open PermissionLint.Ignore

/-! ## Parts that count -/

namespace Path

/-- The parts of a path that are not void. -/
def firmParts (p : Path) : List (List Char) := (parts p).filter (!isVoid ·)

lemma innerComponents_eq_map (p : Path) : p.innerComponents = (firmParts p).map componentOf := rfl

lemma firmParts_inj {p q : Path} (h : p.innerComponents = q.innerComponents) :
    firmParts p = firmParts q :=
  List.map_injective_iff.2 (fun _ _ => componentOf_inj) h

/-- A name is one more part. -/
lemma firmParts_join_name {folder : Path} (h : folder.isAbsolute = true) {name : Name}
    (hvoid : isVoid name = false) (hslash : '/' ∉ name) :
    firmParts (folder.join name) = firmParts folder ++ [name] := by
  have hcomponents := components_join_name folder hvoid hslash
  rw [components, components, isAbsolute_join h, h, if_pos rfl, if_pos rfl,
    List.append_assoc, List.append_cancel_left_eq, innerComponents_eq_map,
    innerComponents_eq_map, ← List.map_singleton, ← List.map_append] at hcomponents
  exact List.map_injective_iff.2 (fun _ _ => componentOf_inj) hcomponents

end Path

namespace FileTree

variable {top : FileTree} {here names : List Name}

lemma follow_append (ps qs : List (List Char)) :
    top.follow (ps ++ qs) here = (top.follow ps here).bind (top.follow qs) := by
  induction ps generalizing here with
  | nil => rfl
  | cons p ps ih =>
    rw [List.cons_append, follow, follow]
    split
    · split
      · exact ih
      split
      · exact ih
      split
      · exact ih
      · rfl
    · rfl
    · rfl

lemma follow_cons (p : List Char) (ps : List (List Char)) :
    top.follow (p :: ps) here = (top.follow [p] here).bind (top.follow ps) :=
  follow_append [p] ps

/-- Every part needs a folder to start from. -/
lemma exists_folder_of_follow {ps : List (List Char)} (hne : ps ≠ [])
    (h : top.follow ps here = .ok names) : ∃ entries, top.at? here = some (.folder entries) := by
  cases ps with
  | nil => exact absurd rfl hne
  | cons p ps =>
    rw [follow] at h
    split at h
    · next entries hfolder => exact ⟨entries, hfolder⟩
    · cases h
    · cases h

/-- A void part stays in its folder. -/
lemma follow_void {entries : List (Name × FileTree)}
    (hfolder : top.at? here = some (.folder entries)) {p : List Char}
    (hvoid : Path.isVoid p = true) (ps : List (List Char)) :
    top.follow (p :: ps) here = top.follow ps here := by
  rw [follow, hfolder]
  exact if_pos hvoid

/-- A name leads to its entry. -/
lemma follow_name {entries : List (Name × FileTree)} {e : Name × FileTree}
    (hfolder : top.at? here = some (.folder entries)) (he : e ∈ entries)
    (hvoid : Path.isVoid e.1 = false) (hdots : e.1 ≠ ['.', '.']) :
    top.follow [e.1] here = .ok (here ++ [e.1]) := by
  have hany : entries.any (·.1 == e.1) = true := List.any_eq_true.2 ⟨e, he, by simp⟩
  rw [follow, hfolder]
  dsimp only
  rw [if_neg (by simp [hvoid]), if_neg (by simpa using hdots), if_pos hany]
  rfl

/-- The parts that count lead where all parts lead. -/
lemma follow_filter {ps : List (List Char)} (h : top.follow ps here = .ok names) :
    top.follow (ps.filter (!Path.isVoid ·)) here = .ok names := by
  induction ps generalizing here with
  | nil => exact h
  | cons p ps ih =>
    cases hvoid : Path.isVoid p with
    | true =>
      obtain ⟨entries, hfolder⟩ := exists_folder_of_follow (by simp) h
      rw [follow_void hfolder hvoid] at h
      rw [List.filter_cons_of_neg (by simp [hvoid])]
      exact ih h
    | false =>
      rw [List.filter_cons_of_pos (by simp [hvoid])]
      rw [follow_cons] at h ⊢
      cases hstep : top.follow [p] here with
      | error e =>
        rw [hstep] at h
        cases h
      | ok mid =>
        rw [hstep] at h
        exact ih h

/-- All parts lead where those lead that count, if the last one does. -/
lemma follow_of_filter {ps : List (List Char)} {last : List Char}
    (hlast : Path.isVoid last = false)
    (h : top.follow ((ps ++ [last]).filter (!Path.isVoid ·)) here = .ok names) :
    top.follow (ps ++ [last]) here = .ok names := by
  induction ps generalizing here with
  | nil =>
    rw [List.nil_append, List.filter_cons_of_pos (by simp [hlast])] at h
    exact h
  | cons p ps ih =>
    rw [List.cons_append] at h ⊢
    cases hvoid : Path.isVoid p with
    | true =>
      rw [List.filter_cons_of_neg (by simp [hvoid])] at h
      -- the last part asks for a folder here, so the void one finds it
      have hne : (ps ++ [last]).filter (!Path.isVoid ·) ≠ [] := by
        rw [List.filter_append, List.filter_cons_of_pos (by simp [hlast])]
        simp
      obtain ⟨entries, hfolder⟩ := exists_folder_of_follow hne h
      rw [follow_void hfolder hvoid]
      exact ih h
    | false =>
      rw [List.filter_cons_of_pos (by simp [hvoid])] at h
      rw [follow_cons] at h ⊢
      cases hstep : top.follow [p] here with
      | error e =>
        rw [hstep] at h
        cases h
      | ok mid =>
        rw [hstep] at h
        exact ih h

end FileTree

/-! ## Where paths lead -/

namespace FileSystem

/-- The parts of the path that count lead from the top to the tree. -/
def Leads (fs : FileSystem) (p : Path) (tree : FileTree) : Prop :=
  ∃ names, fs.top.follow (Path.firmParts p) [] = .ok names ∧ fs.top.at? names = some tree

variable {fs : FileSystem} {p q : Path} {tree : FileTree}

lemma leads_of_get (h : fs.get p = .ok tree) : fs.Leads (fs.absolute p) tree := by
  obtain ⟨names, hresolve, hat⟩ := get_eq_ok_iff.1 h
  rw [resolve] at hresolve
  split at hresolve
  · cases hresolve
  · exact ⟨names, FileTree.follow_filter hresolve, hat⟩

lemma Leads.unique {tree' : FileTree} (h : fs.Leads p tree) (h' : fs.Leads p tree') :
    tree = tree' := by
  obtain ⟨names, hfollow, hat⟩ := h
  obtain ⟨names', hfollow', hat'⟩ := h'
  cases hfollow.symm.trans hfollow'
  exact Option.some.inj (hat.symm.trans hat')

/-- Only the components count. -/
lemma Leads.congr (h : fs.Leads p tree) (hinner : p.innerComponents = q.innerComponents) :
    fs.Leads q tree := by
  rw [Leads, ← Path.firmParts_inj hinner]
  exact h

/-- A path that ends with a part that counts leads where the parts lead that count. -/
lemma resolve_eq_ok_iff {names : List Name} (hlast : Path.isVoid p.lastPart = false) :
    fs.resolve p = .ok names ↔
      fs.top.follow (Path.firmParts (fs.absolute p)) [] = .ok names := by
  have hne : p.isEmpty = false := by
    cases p with
    | nil => cases hlast
    | cons => rfl
  obtain ⟨init, hparts⟩ := Path.exists_parts_append (fs.absolute p)
  have hend : Path.isVoid (fs.absolute p).lastPart = false := by
    rw [absolute, Path.lastPart_join]
    exact hlast
  rw [resolve, hne, if_neg (by simp), Path.firmParts, hparts]
  exact ⟨FileTree.follow_filter, FileTree.follow_of_filter hend⟩

/-- At a path that ends with a part that counts is what its components lead to. -/
lemma Leads.get (h : fs.Leads (fs.absolute q) tree) (hlast : Path.isVoid q.lastPart = false) :
    fs.get q = .ok tree := by
  obtain ⟨names, hfollow, hat⟩ := h
  exact get_eq_ok_iff.2 ⟨names, (resolve_eq_ok_iff hlast).2 hfollow, hat⟩

end FileSystem

/-! ## Walking -/

namespace FileTree

mutual

/-- No entry is named by two dots, here and below. -/
def isUndotted : FileTree → Bool
  | file _ => true
  | folder entries => areUndotted entries

/-- None of the entries is named by two dots, and the same holds below them. -/
def areUndotted : List (Name × FileTree) → Bool
  | [] => true
  | (name, tree) :: entries => name != ['.', '.'] && tree.isUndotted && areUndotted entries

end

/-- The names are proper and not two dots, so a path can lead to every entry. -/
structure IsOrdinary (tree : FileTree) : Prop extends tree.IsProper where
  undotted : tree.isUndotted = true

lemma undotted_of_mem {entries : List (Name × FileTree)} (h : areUndotted entries = true)
    {e : Name × FileTree} (he : e ∈ entries) : e.1 ≠ ['.', '.'] ∧ e.2.isUndotted = true := by
  induction entries with
  | nil => exact absurd he List.not_mem_nil
  | cons entry entries ih =>
    simp only [areUndotted, Bool.and_eq_true, bne_iff_ne] at h
    obtain ⟨⟨hname, htree⟩, hentries⟩ := h
    rcases List.mem_cons.1 he with rfl | he
    · exact ⟨hname, htree⟩
    · exact ih hentries he

lemma name_of_mem {entries : List (Name × FileTree)} (h : areWellNamed entries = true)
    {e : Name × FileTree} (he : e ∈ entries) : Path.isVoid e.1 = false ∧ '/' ∉ e.1 := by
  induction entries with
  | nil => exact absurd he List.not_mem_nil
  | cons entry entries ih =>
    simp only [areWellNamed, Bool.and_eq_true, Bool.not_eq_true', List.contains_eq_mem,
      decide_eq_false_iff_not] at h
    obtain ⟨⟨hname, -⟩, hentries⟩ := h
    rcases List.mem_cons.1 he with rfl | he
    · exact hname
    · exact ih hentries he

lemma child?_folder (entries : List (Name × FileTree)) (name : Name) :
    child? (folder entries) name = (entries.find? fun e => e.1 == name).map Prod.snd := rfl

/-- Each entry is the one under its name. -/
lemma child?_of_mem {entries : List (Name × FileTree)} (h : haveDistinctNames entries = true)
    {e : Name × FileTree} (he : e ∈ entries) : child? (folder entries) e.1 = some e.2 := by
  induction entries with
  | nil => exact absurd he List.not_mem_nil
  | cons entry entries ih =>
    obtain ⟨hfirst, -, hentries⟩ := haveDistinctNames_cons h
    rcases List.mem_cons.1 he with rfl | he
    · rw [child?_folder, List.find?_cons_of_pos (by simp)]
      rfl
    · have hne : entry.1 ≠ e.1 := (hfirst e he).symm
      have hrest := ih hentries he
      rw [child?_folder] at hrest ⊢
      rw [List.find?_cons_of_neg (by simpa using hne)]
      exact hrest

lemma IsOrdinary.of_mem {entries : List (Name × FileTree)} (h : (folder entries).IsOrdinary)
    {e : Name × FileTree} (he : e ∈ entries) : e.2.IsOrdinary :=
  ⟨h.toIsProper.of_mem he, (undotted_of_mem h.undotted he).2⟩

end FileTree

namespace FileSystem

variable {fs : FileSystem} {path : Path}

/-- A name leads on from a folder to its entry. -/
lemma Leads.join {entries : List (Name × FileTree)} (h : fs.Leads path (.folder entries))
    (habsolute : path.isAbsolute = true) (hordinary : (FileTree.folder entries).IsOrdinary)
    {e : Name × FileTree} (he : e ∈ entries) : fs.Leads (path.join e.1) e.2 := by
  obtain ⟨here, hfollow, hfolder⟩ := h
  obtain ⟨hvoid, hslash⟩ := FileTree.name_of_mem hordinary.wellNamed he
  obtain ⟨hdots, -⟩ := FileTree.undotted_of_mem hordinary.undotted he
  refine ⟨here ++ [e.1], ?_, ?_⟩
  · rw [Path.firmParts_join_name habsolute hvoid hslash, FileTree.follow_append, hfollow]
    exact FileTree.follow_name hfolder he hvoid hdots
  · rw [FileTree.at?_append, hfolder, Option.bind_some, FileTree.at?,
      FileTree.child?_of_mem hordinary.distinct he]
    rfl

end FileSystem

mutual

/-- The files of a tree are at their paths. -/
lemma leads_walkTree {fs : FileSystem} (sources : List Source) (scopes : List Scope) {path : Path}
    (habsolute : path.isAbsolute = true) : ∀ tree : FileTree, tree.IsOrdinary →
      fs.Leads path tree → ∀ f ∈ walkTree sources scopes path tree,
        f.path.isAbsolute = true ∧ fs.Leads f.path (.file f.bytes)
  | .file _, _, h => by
    intro f hf
    obtain rfl := List.mem_singleton.1 hf
    exact ⟨habsolute, h⟩
  | .folder entries, hordinary, h =>
    leads_walkEntries sources _ habsolute entries fun _ he =>
      ⟨hordinary.of_mem he, h.join habsolute hordinary he⟩

lemma leads_walkEntries {fs : FileSystem} (sources : List Source) (scopes : List Scope)
    {path : Path} (habsolute : path.isAbsolute = true) : ∀ entries : List (Name × FileTree),
      (∀ e ∈ entries, e.2.IsOrdinary ∧ fs.Leads (path.join e.1) e.2) →
      ∀ f ∈ walkEntries sources scopes path entries,
        f.path.isAbsolute = true ∧ fs.Leads f.path (.file f.bytes)
  | [], _ => fun f hf => absurd hf List.not_mem_nil
  | (name, tree) :: entries, h => by
    obtain ⟨⟨hordinary, hleads⟩, hentries⟩ := List.forall_mem_cons.1 h
    intro f hf
    rw [walkEntries, List.mem_append] at hf
    rcases hf with hf | hf
    · split at hf
      · exact absurd hf List.not_mem_nil
      · exact leads_walkTree sources _ (Path.isAbsolute_join habsolute name) tree hordinary hleads
          f hf
    · exact leads_walkEntries sources scopes habsolute entries hentries f hf

end

/-- **Each file that a walk finds is the one that its path leads to.** -/
theorem leads_walk {fs : FileSystem} (h : fs.top.IsOrdinary) {respectGitignore : Bool} {root : Path}
    (habsolute : root.isAbsolute = true) {found : List Found}
    (hwalk : fs.walk respectGitignore root = .ok found) :
    ∀ f ∈ found, f.path.isAbsolute = true ∧ fs.Leads f.path (.file f.bytes) := by
  obtain ⟨names, tree, hresolve, hat, -, rfl⟩ := walk_eq_ok_iff.1 hwalk
  have hordinary : tree.IsOrdinary :=
    FileTree.at?_induction (fun _ hfolder _ he => hfolder.of_mem he) h hat
  have hleads := FileSystem.leads_of_get (FileSystem.get_eq_ok_iff.2 ⟨names, hresolve, hat⟩)
  rw [FileSystem.absolute_of_isAbsolute habsolute] at hleads
  exact leads_walkTree _ _ habsolute tree hordinary hleads

end PermissionLint
