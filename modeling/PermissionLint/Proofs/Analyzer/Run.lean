/-
What a run over a folder reports.

The files are sorted by their whole paths and the violations by the paths below the folder, with
lines and columns after that.  Both sorts agree, for taking the folder away from two paths keeps
their order, and sorting is stable.  So the report is that of the single files, one after the other
in the order of their paths, whatever the order in which the files were found
(`report_of_folder`).
-/
import PermissionLint.Analyzer
import PermissionLint.Proofs.Path.Order
import PermissionLint.Proofs.Path.Strip
import PermissionLint.Proofs.Permission.Violations
import PermissionLint.Proofs.StableSort

namespace PermissionLint

open Std

/-- A comparison of three ways gives an order. -/
lemma isOrder_isLE {α : Type} (cmp : α → α → Ordering) [TransCmp cmp] :
    IsOrder fun x y => (cmp x y).isLE where
  trans _ _ _ := TransCmp.isLE_trans
  total x y := by
    have hswap : cmp x y = (cmp y x).swap := OrientedCmp.eq_swap
    rw [hswap]
    cases cmp y x <;> rfl

namespace Analyzer

open PermissionLint.Text PermissionLint.Syntax PermissionLint.Model

/-! ## The orders -/

/-- The order of violations in one file. -/
def comparePlaces : Violation → Violation → Ordering :=
  compareLex (compareOn (·.location.line)) (compareOn (·.location.column))

/-- The violation does not come after the other one, by line and column. -/
def byPlace (v w : Violation) : Bool := (comparePlaces v w).isLE

instance : TransCmp comparePlaces := inferInstanceAs (TransCmp (compareLex _ _))

/-- The order of the files of violations. -/
def compareFiles (v w : Violation) : Ordering :=
  Path.compare v.location.file.toList w.location.file.toList

instance : TransCmp compareFiles where
  eq_swap {v w} := by
    rw [compareFiles, compareFiles]
    exact OrientedCmp.eq_swap
  isLE_trans {u v w} := by
    rw [compareFiles, compareFiles, compareFiles]
    exact TransCmp.isLE_trans

lemma isOrder_byPlace : IsOrder byPlace := isOrder_isLE comparePlaces

lemma byPlace_eq (v w : Violation) :
    byPlace v w = (decide (v.location.line < w.location.line) ||
      v.location.line == w.location.line && decide (v.location.column ≤ w.location.column)) := by
  rw [byPlace, comparePlaces, compareLex, compareOn, compareOn]
  rcases Nat.lt_trichotomy v.location.line w.location.line with hlt | heq | hgt
  · rw [Nat.compare_eq_lt.2 hlt]
    simp [hlt]
  · rw [Nat.compare_eq_eq.2 heq, Ordering.eq_then, heq, Bool.eq_iff_iff, Nat.isLE_compare]
    simp
  · rw [Nat.compare_eq_gt.2 hgt]
    have hne : v.location.line ≠ w.location.line := by omega
    have hle : ¬v.location.line < w.location.line := by omega
    simp [hne, hle]

lemma inOrder_eq (v w : Violation) :
    inOrder v w = (compareLex compareFiles comparePlaces v w).isLE := by
  have hfiles : compareFiles v w = Path.compare v.location.file.toList w.location.file.toList := rfl
  rw [inOrder, compareLex, hfiles]
  cases Path.compare v.location.file.toList w.location.file.toList with
  | lt => rfl
  | eq => exact (byPlace_eq v w).symm
  | gt => rfl

lemma isOrder_inOrder : IsOrder inOrder := by
  have h : inOrder = fun v w => (compareLex compareFiles comparePlaces v w).isLE := by
    funext v w
    exact inOrder_eq v w
  rw [h]
  exact isOrder_isLE _

/-! ## The files that are checked -/

variable (a : Analyzer)

/-- The file can be checked: its bytes can be read, they are text, and the text is well formed. -/
def isReadable (f : Found) : Bool := (readFile f).isOk

/-- The file is checked: it is a source that no pattern leaves out, and it is readable. -/
def isChecked (f : Found) : Bool := isSource f.path && !a.isExcluded f.path && isReadable f

/-- What the rules find in a file, in the order of the rules. -/
def violationsOf (f : Found) : List Violation :=
  match readFile f with
  | .ok (text, m) =>
    a.rules.flatMap fun r => (findings a.config (FileContext.of f.path text a.root) m r).violations
  | .error _ => []

/-- What the rules find in a file, by line and column. -/
def sortedViolations (f : Found) : List Violation := (a.violationsOf f).mergeSort byPlace

/-- What a walk below a folder gives: every path once, and below the folder. -/
structure WalksBelow (root : Path) (found : List Found) : Prop where
  distinct : found.Pairwise fun f g => f.path.components ≠ g.path.components
  below : ∀ f ∈ found, root.components <+: f.path.components

/-- The bytes of the file can be read, whatever they are. -/
def IsAccessible (f : Found) : Prop := ∃ bytes, f.bytes = .ok bytes

/-- The bytes of all files that are to be checked can be read. -/
def HasAccess (found : List Found) : Prop :=
  ∀ f ∈ found, isSource f.path = true → a.isExcluded f.path = false → IsAccessible f

/-- The rules that are enabled report files by their paths below the folder. -/
def ReportsRelativePaths : Prop :=
  ∀ r ∈ a.rules, a.config.isEnabled r.name = true → ∀ file m, ∀ v ∈ (r.check file m).violations,
    v.location.file = String.ofList file.relativePath

variable {a}

lemma readFile_eq_ok_iff {f : Found} {read : List Char × Module} :
    readFile f = .ok read ↔ ∃ bytes, f.bytes = .ok bytes ∧ readModule bytes = .ok read := by
  rw [readFile]
  cases f.bytes with
  | error reason => simp
  | ok bytes => cases hmodule : readModule bytes <;> simp [hmodule, Except.mapError]

/-- The rules there are do so. -/
lemma reportsRelativePaths_ofConfig {c : Config} (h : a.rules = Rule.ofConfig c) :
    a.ReportsRelativePaths := by
  intro r hr _ file m v hv
  rw [h] at hr
  obtain rfl := List.mem_singleton.1 hr
  exact Permission.file_of_mem_violations hv

lemma result_checkFile (f : Found) :
    (a.checkFile a.root f).result.toOption
      = if isReadable f then some (a.violationsOf f) else none := by
  rw [checkFile, isReadable, violationsOf]
  cases hread : readFile f with
  | error e => rfl
  | ok read =>
    change some ((a.rules.map _).flatMap Findings.violations) = _
    rw [List.flatMap_map]
    rfl

/-- The files that are checked among those that were found, in the order of their paths. -/
def checkedFiles (a : Analyzer) (found : List Found) : List Found :=
  (a.select found).filter isReadable

lemma checkedFiles_perm (found : List Found) :
    (a.checkedFiles found).Perm (found.filter a.isChecked) := by
  have hperm := (List.mergeSort_perm (found.filter fun f => isSource f.path && !a.isExcluded f.path)
    fun f g => Path.compare f.path g.path != .gt).filter isReadable
  rw [List.filter_filter] at hperm
  refine hperm.trans (List.Perm.of_eq (List.filter_congr fun f _ => ?_))
  rw [isChecked, Bool.and_comm]

/-- The order of files. -/
def comparePaths (f g : Found) : Ordering := Path.compare f.path g.path

instance : TransCmp comparePaths where
  eq_swap {f g} := by
    rw [comparePaths, comparePaths]
    exact OrientedCmp.eq_swap
  isLE_trans {f g h} := by
    rw [comparePaths, comparePaths, comparePaths]
    exact TransCmp.isLE_trans

lemma isOrder_comparePaths : IsOrder fun f g : Found => comparePaths f g != .gt := by
  have h : (fun f g : Found => comparePaths f g != .gt) = fun f g => (comparePaths f g).isLE := by
    funext f g
    cases comparePaths f g <;> rfl
  rw [h]
  exact isOrder_isLE comparePaths

/-- No two files are tied, so they are in strict order. -/
lemma select_sorted {found : List Found} (h : WalksBelow a.root found) :
    (a.select found).Pairwise fun f g => Path.compare f.path g.path = .lt := by
  have hsorted : (a.select found).Pairwise fun f g => (comparePaths f g != .gt) = true :=
    List.pairwise_mergeSort isOrder_comparePaths.trans isOrder_comparePaths.total _
  have hdistinct : (a.select found).Pairwise fun f g => f.path.components ≠ g.path.components :=
    (h.distinct.filter _).perm (List.mergeSort_perm _ _).symm fun hne => hne.symm
  refine (hsorted.and hdistinct).imp fun {f g} hfg => ?_
  obtain ⟨hle, hne⟩ := hfg
  have hle : comparePaths f g ≠ .gt := by simpa using hle
  have hne : comparePaths f g ≠ .eq := fun heq => hne (Path.compare_eq_eq_iff.1 heq)
  change comparePaths f g = .lt
  cases hcompare : comparePaths f g with
  | lt => rfl
  | eq => exact absurd hcompare hne
  | gt => exact absurd hcompare hle

lemma checkedFiles_sorted {found : List Found} (h : WalksBelow a.root found) :
    (a.checkedFiles found).Pairwise fun f g => Path.compare f.path g.path = .lt :=
  (select_sorted h).filter isReadable

lemma WalksBelow.perm {root : Path} {found order : List Found} (h : WalksBelow root found)
    (hperm : order.Perm found) : WalksBelow root order :=
  ⟨h.distinct.perm hperm.symm fun hne => hne.symm, fun f hf => h.below f (hperm.mem_iff.1 hf)⟩

/-- There is only one strict order of the same files. -/
lemma eq_of_perm_of_sorted {fs gs : List Found} (hperm : fs.Perm gs)
    (hfs : fs.Pairwise fun f g => Path.compare f.path g.path = .lt)
    (hgs : gs.Pairwise fun f g => Path.compare f.path g.path = .lt) : fs = gs := by
  refine hperm.eq_of_pairwise ?_ hfs hgs
  intro f g _ _ hfg hgf
  have hswap : comparePaths f g = (comparePaths g f).swap := OrientedCmp.eq_swap
  rw [comparePaths, comparePaths, hfg, hgf] at hswap
  cases hswap

/-- Whatever the order in which files were found, they are checked in the same one. -/
lemma checkedFiles_eq_of_perm {found order : List Found} (h : WalksBelow a.root found)
    (hperm : order.Perm found) : a.checkedFiles order = a.checkedFiles found := by
  have hfiles : (a.checkedFiles order).Perm (a.checkedFiles found) :=
    ((checkedFiles_perm order).trans (hperm.filter _)).trans (checkedFiles_perm found).symm
  exact eq_of_perm_of_sorted hfiles (checkedFiles_sorted (h.perm hperm)) (checkedFiles_sorted h)

/-! ## The violations of all files -/

/-- The path of a file below the folder. -/
def relativePath (a : Analyzer) (f : Found) : Path := (f.path.stripPrefix? a.root).getD f.path

/-- The configuration does not move violations. -/
lemma location_withSeverity (severity : Option Severity) (v : Violation) :
    (withSeverity severity v).location = v.location := by
  cases severity <;> rfl

lemma file_of_mem_violationsOf (hrules : a.ReportsRelativePaths) {f : Found} {v : Violation}
    (hv : v ∈ a.violationsOf f) : v.location.file.toList = a.relativePath f := by
  rw [violationsOf] at hv
  split at hv
  · next text m hread =>
    obtain ⟨r, hr, hv⟩ := List.mem_flatMap.1 hv
    rw [findings] at hv
    split at hv
    · next henabled =>
      obtain ⟨w, hw, rfl⟩ := List.mem_map.1 hv
      have hfile := hrules r hr henabled _ _ w hw
      rw [location_withSeverity, hfile, String.toList_ofList]
      rfl
    · simp at hv
  · simp at hv

/-- Taking the folder away from the paths of two files below it keeps their order. -/
lemma compare_relativePath {f g : Found} (hf : a.root.components <+: f.path.components)
    (hg : a.root.components <+: g.path.components) :
    Path.compare (a.relativePath f) (a.relativePath g) = Path.compare f.path g.path := by
  obtain ⟨ds, hds⟩ := hf
  obtain ⟨es, hes⟩ := hg
  obtain ⟨p, hp, hcomponents⟩ := Path.exists_stripPrefix? hds.symm
  obtain ⟨q, hq, hcomponents'⟩ := Path.exists_stripPrefix? hes.symm
  rw [relativePath, relativePath, hp, hq]
  have hf : f.path.components = a.root.components ++ p.components := by rw [hcomponents, hds]
  have hg : g.path.components = a.root.components ++ q.components := by rw [hcomponents', hes]
  exact (Path.compare_of_components_append hf hg).symm

/-- In one file the order is that of lines and columns. -/
lemma isStableSort_sortedViolations (hrules : a.ReportsRelativePaths) (f : Found) :
    IsStableSort inOrder (a.violationsOf f) (a.sortedViolations f) := by
  have hsame : ∀ v ∈ a.violationsOf f, ∀ w ∈ a.violationsOf f, byPlace v w = inOrder v w := by
    intro v hv w hw
    have hfiles : compareFiles v w = .eq := by
      rw [compareFiles, file_of_mem_violationsOf hrules hv, file_of_mem_violationsOf hrules hw]
      exact ReflCmp.compare_self
    rw [inOrder_eq, compareLex, hfiles]
    rfl
  have hsort : a.sortedViolations f = (a.violationsOf f).mergeSort inOrder := by
    rw [sortedViolations]
    simpa using List.map_mergeSort (f := id) hsame
  rw [hsort]
  exact isOrder_inOrder.isStableSort_mergeSort _

/-- The violations of the files, one file after the other, are in order. -/
lemma isStableSort_checkedFiles (hrules : a.ReportsRelativePaths) {found : List Found}
    (hwalk : WalksBelow a.root found) :
    IsStableSort inOrder ((a.checkedFiles found).flatMap a.violationsOf)
      ((a.checkedFiles found).flatMap a.sortedViolations) := by
  have hbelow : ∀ f ∈ a.checkedFiles found, a.root.components <+: f.path.components := by
    intro f hf
    exact hwalk.below f (List.mem_of_mem_filter ((checkedFiles_perm found).mem_iff.1 hf))
  refine IsStableSort.flatMap (fun f _ => isStableSort_sortedViolations hrules f) ?_
  refine (checkedFiles_sorted hwalk).imp_of_mem fun {f g} hf hg hlt v hv w hw => ?_
  have hv := file_of_mem_violationsOf hrules (List.mem_mergeSort.1 hv)
  have hw := file_of_mem_violationsOf hrules (List.mem_mergeSort.1 hw)
  rw [inOrder, hv, hw, compare_relativePath (hbelow f hf) (hbelow g hg), hlt]

/-! ## The report -/

lemma base_of_folder {fs : FileSystem} {entries : List (Name × FileTree)}
    (h : fs.get a.root = .ok (.folder entries)) : a.base fs = a.root := by
  have hfile : fs.isFile a.root = false := by rw [FileSystem.isFile, h]
  rw [base, hfile]
  rfl

lemma rootFile?_of_file {fs : FileSystem} {bytes : Contents}
    (h : fs.get a.root = .ok (.file bytes)) : a.rootFile? fs = some ⟨a.root, bytes⟩ := by
  rw [rootFile?, h]

lemma rootFile?_of_folder {fs : FileSystem} {entries : List (Name × FileTree)}
    (h : fs.get a.root = .ok (.folder entries)) : a.rootFile? fs = none := by
  rw [rootFile?, h]

/-- The failure of a file, if it ends the run. -/
def fault? (a : Analyzer) (f : Found) : Option AnalysisError :=
  match readFile f with
  | .ok _ => none
  | .error e => if e.endsRun a.strict then some e else none

lemma failure?_checkFile (base : Path) (f : Found) :
    a.failure? (a.checkFile base f) = a.fault? f := by
  rw [checkFile, fault?]
  cases readFile f with
  | error e => rfl
  | ok read => rfl

lemma findSome?_checkAll (fs : FileSystem) (files : List Found) :
    (a.checkAll fs files).findSome? a.failure? = files.findSome? a.fault? := by
  rw [checkAll, List.findSome?_map]
  exact congrArg (List.findSome? · files) (funext fun f => failure?_checkFile _ f)

/-- A file whose bytes can be read does not end a lenient run. -/
lemma fault?_of_isAccessible (hstrict : a.strict = false) {f : Found} (h : IsAccessible f) :
    a.fault? f = none := by
  obtain ⟨bytes, hbytes⟩ := h
  rw [fault?, readFile, hbytes, hstrict]
  dsimp only
  cases readModule bytes with
  | error fault => rfl
  | ok read => rfl

lemma HasAccess.of_mem_select {found : List Found} (h : a.HasAccess found) {f : Found}
    (hf : f ∈ a.select found) : IsAccessible f := by
  obtain ⟨hmem, hselected⟩ := List.mem_filter.1 (List.mem_mergeSort.1 hf)
  rw [Bool.and_eq_true, Bool.not_eq_true'] at hselected
  exact h f hmem hselected.1 hselected.2

lemma HasAccess.perm {found order : List Found} (h : a.HasAccess found)
    (hperm : order.Perm found) : a.HasAccess order :=
  fun f hf => h f (hperm.mem_iff.1 hf)

/-- The run over files that have been found, if nothing ends it. -/
lemma result_analyzeFiles {fs : FileSystem} {entries : List (Name × FileTree)} {found : List Found}
    (hroot : fs.get a.root = .ok (.folder entries)) (hstrict : a.strict = false)
    (haccess : a.HasAccess found) (hrules : a.ReportsRelativePaths)
    (hwalk : WalksBelow a.root found) :
    (a.analyzeFiles fs (a.select found)).result
      = .ok ⟨(a.checkedFiles found).flatMap a.sortedViolations, (a.checkedFiles found).length⟩ := by
  have hdone : (a.checkAll fs (a.select found)).filterMap (fun c => c.result.toOption)
      = (a.checkedFiles found).map a.violationsOf := by
    rw [checkAll, base_of_folder hroot, List.filterMap_map, checkedFiles, ← List.filterMap_eq_map,
      List.filterMap_filter]
    exact List.filterMap_congr fun f _ => result_checkFile f
  have hsort := (isStableSort_checkedFiles hrules hwalk).eq_mergeSort isOrder_inOrder
  have hconclude : (a.conclude (a.checkAll fs (a.select found))).result
      = .ok (reportOf (a.checkAll fs (a.select found))) := by
    have hnone : (a.select found).findSome? a.fault? = none := List.findSome?_eq_none_iff.2
      fun f hf => fault?_of_isAccessible hstrict (haccess.of_mem_select hf)
    rw [conclude, findSome?_checkAll, hnone]
  change (a.conclude (a.checkAll fs (a.select found))).result = _
  rw [hconclude, reportOf, hdone, List.length_map, hsort, List.flatMap]

/-- **A run over a folder reports its files one after the other, in the order of their paths.**  The
files are those of the walk that are sources, not left out, text and well formed, each once; the
bytes of all sources that are not left out can be read.  The violations of a file come by line and
column, and those at the same place as the rules gave them.  The order in which the walk gives the
files does not matter. -/
theorem report_of_folder {a : Analyzer} {fs : FileSystem} {entries : List (Name × FileTree)}
    {found : List Found} (hroot : fs.get a.root = .ok (.folder entries))
    (hfound : a.discover fs = .ok found) (hwalk : WalksBelow a.root found)
    (haccess : a.HasAccess found) (hrules : a.ReportsRelativePaths) (hstrict : a.strict = false) :
    ∃ (files : List Found) (report : Report), (a.analyze fs).result = .ok report ∧
      files.Perm (found.filter a.isChecked) ∧
      files.Pairwise (fun f g => Path.compare f.path g.path = .lt) ∧
      report.filesChecked = (found.filter a.isChecked).length ∧
      report.violations = files.flatMap a.sortedViolations ∧
      (∀ f, IsStableSort byPlace (a.violationsOf f) (a.sortedViolations f)) ∧
      report.violations.Pairwise (fun v w => inOrder v w = true) ∧
      report.violations.Perm ((found.filter a.isChecked).flatMap a.violationsOf) ∧
      ∀ order, order.Perm found → (a.analyzeFiles fs (a.select order)).result = .ok report := by
  have hresult := result_analyzeFiles hroot hstrict haccess hrules hwalk
  have hsort := isStableSort_checkedFiles hrules hwalk
  refine ⟨a.checkedFiles found,
    ⟨(a.checkedFiles found).flatMap a.sortedViolations, (a.checkedFiles found).length⟩, ?_,
    checkedFiles_perm found, checkedFiles_sorted hwalk, (checkedFiles_perm found).length_eq, rfl,
    fun f => isOrder_byPlace.isStableSort_mergeSort _, hsort.sorted, ?_, fun order horder => ?_⟩
  · rw [analyze, rootFile?_of_folder hroot, hfound]
    exact hresult
  · exact (hsort.perm isOrder_inOrder).trans ((checkedFiles_perm found).flatMap_right _)
  · rw [result_analyzeFiles hroot hstrict (haccess.perm horder) hrules (hwalk.perm horder),
      checkedFiles_eq_of_perm hwalk horder]

set_option maxRecDepth 100000 in
/-- Of two files, the one in the folder with the shorter name comes first, although its path does
not if it is compared as a text. -/
theorem report_of_folder_two :
    let source : List UInt8 := Utf8.encode "class A: permission_classes = []".toList
    let fs : FileSystem := { top := .folder [("p".toList, .folder
      [("a-b".toList, .folder [("x.py".toList, .file source)]),
        ("a".toList, .folder [("x.py".toList, .file source), ("y.txt".toList, .file source)])])] }
    let a : Analyzer := ⟨"/p".toList, Rule.ofConfig {}, [], {}, false⟩
    let first : Found := ⟨"/p/a/x.py".toList, source⟩
    let second : Found := ⟨"/p/a-b/x.py".toList, source⟩
    let found : List Found := [second, first, ⟨"/p/a/y.txt".toList, source⟩]
    a.discover fs = .ok found ∧ WalksBelow a.root found ∧ a.HasAccess found ∧
      ∃ report, (a.analyze fs).result = .ok report ∧ report.filesChecked = 2 ∧
        report.violations = a.sortedViolations first ++ a.sortedViolations second ∧
        (a.analyzeFiles fs (a.select found.reverse)).result = .ok report := by
  intro source fs a first second found
  have hfound : a.discover fs = .ok found := rfl
  have hwalk : WalksBelow a.root found := ⟨by decide, by decide⟩
  have haccess : a.HasAccess found := by
    intro f hf _ _
    simp only [found, first, second, List.mem_cons, List.not_mem_nil, or_false] at hf
    obtain rfl | rfl | rfl := hf <;> exact ⟨source, rfl⟩
  obtain ⟨files, report, hresult, hperm, hsorted, hcount, hviolations, -, -, -, horder⟩ :=
    report_of_folder rfl hfound hwalk haccess (reportsRelativePaths_ofConfig rfl) rfl
  have hchecked : found.filter a.isChecked = [second, first] := by
    obtain ⟨hsecond, hfirst, hother⟩ : a.isChecked second = true ∧ a.isChecked first = true ∧
        ¬a.isChecked ⟨"/p/a/y.txt".toList, source⟩ = true := by decide +kernel
    rw [List.filter_cons_of_pos hsecond, List.filter_cons_of_pos hfirst,
      List.filter_cons_of_neg hother, List.filter_nil]
  have hfiles : files = [first, second] := by
    refine eq_of_perm_of_sorted (hperm.trans ?_) hsorted (by decide)
    rw [hchecked]
    exact List.Perm.swap _ _ _
  refine ⟨hfound, hwalk, haccess, report, hresult, ?_, ?_, horder _ (List.reverse_perm found)⟩
  · rw [hcount, hchecked]
    rfl
  · rw [hviolations, hfiles]
    simp

end Analyzer

end PermissionLint
