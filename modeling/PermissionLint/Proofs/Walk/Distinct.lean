/-
A walk comes by every file once.

The path of a file adds to that of the folder the names that lead from the folder to the file.  If
no two entries of a folder have the same name, then two files differ in one of these names, and so
do their paths in the components (`components_walk`).
-/
import PermissionLint.Proofs.Walk

namespace PermissionLint

open PermissionLint.Ignore

/-! ## Names -/

namespace FileTree

mutual

/-- No two entries of a folder have the same name, here and below. -/
def hasDistinctNames : FileTree → Bool
  | file _ => true
  | folder entries => haveDistinctNames entries

/-- No two of the entries have the same name, and the same holds below them. -/
def haveDistinctNames : List (Name × FileTree) → Bool
  | [] => true
  | (name, tree) :: entries =>
    entries.all (·.1 != name) && tree.hasDistinctNames && haveDistinctNames entries

end

lemma haveDistinctNames_cons {name : Name} {tree : FileTree} {entries : List (Name × FileTree)}
    (h : haveDistinctNames ((name, tree) :: entries) = true) :
    (∀ e ∈ entries, e.1 ≠ name) ∧ tree.hasDistinctNames = true ∧
      haveDistinctNames entries = true := by
  simp only [haveDistinctNames, Bool.and_eq_true, List.all_eq_true, bne_iff_ne] at h
  obtain ⟨⟨hname, htree⟩, hentries⟩ := h
  exact ⟨hname, htree, hentries⟩

/-- The names are those of a file system: each is a single part of a path, and none is there twice
in one folder. -/
structure IsProper (tree : FileTree) : Prop where
  wellNamed : tree.isWellNamed = true
  distinct : tree.hasDistinctNames = true

lemma IsProper.of_mem {entries : List (Name × FileTree)} (h : (folder entries).IsProper)
    {e : Name × FileTree} (he : e ∈ entries) : e.2.IsProper := by
  obtain ⟨hnamed, hdistinct⟩ := h
  rw [isWellNamed] at hnamed
  rw [hasDistinctNames] at hdistinct
  induction entries with
  | nil => exact absurd he List.not_mem_nil
  | cons entry entries ih =>
    obtain ⟨-, htree, hentries⟩ := areWellNamed_cons hnamed
    obtain ⟨-, htree', hentries'⟩ := haveDistinctNames_cons hdistinct
    rcases List.mem_cons.1 he with rfl | he
    · exact ⟨htree, htree'⟩
    · exact ih he hentries hentries'

lemma IsProper.at? {tree child : FileTree} (h : tree.IsProper) {names : List Name}
    (hchild : tree.at? names = some child) : child.IsProper :=
  at?_induction (fun _ hfolder _ he => hfolder.of_mem he) h hchild

end FileTree

/-! ## Paths -/

namespace Path

lemma componentOf_inj {part part' : List Char} (h : componentOf part = componentOf part') :
    part = part' := by
  rw [componentOf, componentOf] at h
  split at h <;> split at h <;> simp_all

/-- A name adds one component. -/
lemma components_join_name (folder : Path) {name : Name} (hvoid : isVoid name = false)
    (hslash : '/' ∉ name) :
    (folder.join name).components = folder.components ++ [componentOf name] := by
  have hname := leadsBelow_name hvoid hslash
  rw [components_join folder hname, components_of_beginsFirm (.inr hname.begins),
    innerComponents_part hslash, if_neg (by simp [hvoid])]

end Path

lemma FileTree.components_of_areWellNamed {name : Name} {tree : FileTree}
    {entries : List (Name × FileTree)} (h : areWellNamed ((name, tree) :: entries) = true)
    (path : Path) :
    (path.join name).components = path.components ++ [Path.componentOf name] := by
  simp only [areWellNamed, Bool.and_eq_true, Bool.not_eq_true', List.contains_eq_mem,
    decide_eq_false_iff_not] at h
  obtain ⟨⟨⟨hvoid, hslash⟩, -⟩, -⟩ := h
  exact Path.components_join_name path hvoid hslash

mutual

/-- The files of a tree are at paths that begin with the path of the tree. -/
lemma isPrefix_walkTree (sources : List Source) (scopes : List Scope) (path : Path) :
    ∀ tree : FileTree, tree.isWellNamed = true →
      ∀ f ∈ walkTree sources scopes path tree, path.components <+: f.path.components
  | .file _, _ => by
    intro f hf
    obtain rfl := List.mem_singleton.1 hf
    exact List.prefix_refl _
  | .folder entries, h => by
    intro f hf
    obtain ⟨e, -, hprefix⟩ := isPrefix_walkEntries sources _ path entries h f hf
    exact (List.prefix_append _ _).trans hprefix

/-- The files of entries are at paths that go on with the name of an entry. -/
lemma isPrefix_walkEntries (sources : List Source) (scopes : List Scope) (path : Path) :
    ∀ entries : List (Name × FileTree), FileTree.areWellNamed entries = true →
      ∀ f ∈ walkEntries sources scopes path entries,
        ∃ e ∈ entries, path.components ++ [Path.componentOf e.1] <+: f.path.components
  | [], _ => fun f hf => absurd hf List.not_mem_nil
  | (name, tree) :: entries, h => by
    obtain ⟨-, htree, hentries⟩ := FileTree.areWellNamed_cons h
    intro f hf
    rw [walkEntries, List.mem_append] at hf
    rcases hf with hf | hf
    · split at hf
      · exact absurd hf List.not_mem_nil
      · have hprefix := isPrefix_walkTree sources _ _ tree htree f hf
        rw [FileTree.components_of_areWellNamed h] at hprefix
        exact ⟨_, List.mem_cons_self, hprefix⟩
    · obtain ⟨e, he, hprefix⟩ := isPrefix_walkEntries sources scopes path entries hentries f hf
      exact ⟨e, List.mem_cons_of_mem _ he, hprefix⟩

end

/-- Paths that go on differently differ. -/
lemma ne_of_isPrefix {front cs ds : List Component} {c d : Component} (hne : c ≠ d)
    (hc : front ++ [c] <+: cs) (hd : front ++ [d] <+: ds) : cs ≠ ds := by
  rintro rfl
  obtain ⟨rest, rfl⟩ := hc
  obtain ⟨rest', heq⟩ := hd
  simp only [List.append_assoc, List.append_cancel_left_eq, List.singleton_append] at heq
  exact hne (List.cons.inj heq).1.symm

mutual

/-- No two files of a tree are at the same path. -/
lemma pairwise_walkTree (sources : List Source) (scopes : List Scope) (path : Path) :
    ∀ tree : FileTree, tree.isWellNamed = true → tree.hasDistinctNames = true →
      (walkTree sources scopes path tree).Pairwise
        fun f g => f.path.components ≠ g.path.components
  | .file _, _, _ => List.pairwise_singleton _ _
  | .folder entries, h, hdistinct => pairwise_walkEntries sources _ path entries h hdistinct

lemma pairwise_walkEntries (sources : List Source) (scopes : List Scope) (path : Path) :
    ∀ entries : List (Name × FileTree), FileTree.areWellNamed entries = true →
      FileTree.haveDistinctNames entries = true →
      (walkEntries sources scopes path entries).Pairwise
        fun f g => f.path.components ≠ g.path.components
  | [], _, _ => .nil
  | (name, tree) :: entries, h, hdistinct => by
    obtain ⟨-, htree, hentries⟩ := FileTree.areWellNamed_cons h
    obtain ⟨hname, htree', hentries'⟩ := FileTree.haveDistinctNames_cons hdistinct
    rw [walkEntries, List.pairwise_append]
    refine ⟨?_, pairwise_walkEntries sources scopes path entries hentries hentries', ?_⟩
    · split
      · exact .nil
      · exact pairwise_walkTree sources _ _ tree htree htree'
    · intro f hf g hg
      split at hf
      · exact absurd hf List.not_mem_nil
      have hf := isPrefix_walkTree sources _ _ tree htree f hf
      obtain ⟨e, he, hg⟩ := isPrefix_walkEntries sources scopes path entries hentries g hg
      rw [FileTree.components_of_areWellNamed h] at hf
      exact ne_of_isPrefix (fun heq => hname e he (Path.componentOf_inj heq).symm) hf hg

end

/-- **A walk comes by every file once**, at a path that begins with that of the folder. -/
theorem components_walk {fs : FileSystem} (h : fs.top.IsProper) {respectGitignore : Bool}
    {root : Path} {found : List Found} (hwalk : fs.walk respectGitignore root = .ok found) :
    found.Pairwise (fun f g => f.path.components ≠ g.path.components) ∧
      ∀ f ∈ found, root.components <+: f.path.components := by
  obtain ⟨names, tree, -, hat, -, rfl⟩ := walk_eq_ok_iff.1 hwalk
  obtain ⟨hnamed, hdistinct⟩ := h.at? hat
  exact ⟨pairwise_walkTree _ _ root tree hnamed hdistinct,
    isPrefix_walkTree _ _ root tree hnamed⟩

end PermissionLint
