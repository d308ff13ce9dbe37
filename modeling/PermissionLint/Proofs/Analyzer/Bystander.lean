/-
Files that a run does not look at.

A run selects sources from what a walk finds, and the walk reads ignore files.  A file that is
neither may be added anywhere: the same sources are found as before, and the report stays the same
(`result_analyze_adding`).
-/
import PermissionLint.Proofs.Analyzer.Result
import PermissionLint.Proofs.Walk.Addition

namespace PermissionLint.Analyzer

open PermissionLint.Ignore

/-- A name of files that are neither sources nor ignore files. -/
structure IsBystander (name : Name) : Prop extends Path.IsName name where
  notSource : isSource name = false
  notIgnore : ∀ s : Source, name ∉ s.names

variable {fs : FileSystem} {here : List Name} {name : Name} {a : Analyzer}

/-- Whether a file is a source is decided by its name. -/
lemma isSource_join (h : Path.IsName name) (folder : Path) :
    isSource (folder.join name) = isSource name := by
  have hlast : Path.lastPart (folder.join name) = name := by rw [Path.lastPart_join, h.lastPart]
  rw [isSource, isSource, Path.extension?, Path.extension?, h.fileName? hlast,
    h.fileName? h.lastPart]

lemma IsBystander.spares (h : IsBystander name) (here : List Name) :
    Spares (FileTree.onlyAt (here ++ [name])) := by
  intro s other hother outer bytes
  refine Bool.eq_false_iff.2 fun hgone => ?_
  obtain rfl := FileTree.eq_of_onlyAt hgone
  exact h.notIgnore s hother

lemma IsBystander.misses (h : IsBystander name) (here : List Name) :
    Misses (FileTree.onlyAt (here ++ [name])) fun f => isSource f.path := by
  intro outer other bytes path hgone
  obtain rfl := FileTree.eq_of_onlyAt hgone
  exact (isSource_join h.toIsName path).trans h.notSource

/-- Only sources are selected. -/
lemma select_filter_isSource (a : Analyzer) (found : List Found) :
    a.select (found.filter fun f => isSource f.path) = a.select found := by
  rw [select, select, List.filter_filter]
  refine congrArg (List.mergeSort · _) (List.filter_congr fun f _ => ?_)
  cases isSource f.path <;> simp

lemma map_select (a : Analyzer) (found : Except WalkError (List Found)) :
    found.map a.select = (found.map (List.filter fun f => isSource f.path)).map a.select := by
  cases found with
  | error e => rfl
  | ok found => exact congrArg Except.ok (select_filter_isSource a found).symm

/-- A file that is no source does not matter to the choice of sources. -/
lemma sourceFiles_adding (h : fs.HasRoom here name) (hname : IsBystander name)
    (bytes : Contents) (hroot : fs.contains a.root = true) :
    a.sourceFiles (fs.adding (here ++ [name]) bytes) = a.sourceFiles fs := by
  obtain ⟨tree, hget⟩ := FileSystem.exists_get_of_contains hroot
  cases tree with
  | file old =>
    rw [sourceFiles, sourceFiles, rootFile?_of_file hget,
      rootFile?_of_file (h.get_file_adding bytes hget)]
  | folder entries =>
    obtain ⟨entries', hget'⟩ := h.exists_folder_adding bytes hget
    have hfound := map_filter_walk_without (hname.spares here) (hname.misses here)
      a.config.analyzer.respectGitignore hget'
    rw [h.without_adding] at hfound
    rw [sourceFiles, sourceFiles, rootFile?_of_folder hget, rootFile?_of_folder hget',
      map_select a (a.discover fs), map_select, discover, discover, hfound]

lemma base_adding (h : fs.HasRoom here name) (bytes : Contents)
    (hroot : fs.contains a.root = true) :
    a.base (fs.adding (here ++ [name]) bytes) = a.base fs := by
  rw [base, base, h.isFile_adding bytes hroot]

/-- **A file that is neither a source nor an ignore file does not change the report.** -/
theorem result_analyze_adding (h : fs.HasRoom here name) (hname : IsBystander name)
    (bytes : Contents) (hroot : fs.contains a.root = true) :
    (a.analyze (fs.adding (here ++ [name]) bytes)).result = (a.analyze fs).result := by
  rw [result_analyze, result_analyze, reportedFiles, reportedFiles,
    sourceFiles_adding h hname bytes hroot, base_adding h bytes hroot]

end PermissionLint.Analyzer
