/-
Running over the same folder at different places.

Files are found, sorted and reported by their paths from the folder, so none of these depends on
where the folder is.  Two decisions are made on whole paths, though: whether a pattern leaves a file
out, and whether a file is test code.  If these are the same for every file at both places, then so
is the outcome (`result_analyze_of_place`).  Otherwise it need not be
(`result_analyze_depends_on_place`).
-/
import PermissionLint.Proofs.Analyzer.Result
import PermissionLint.Proofs.Walk

namespace PermissionLint

open PermissionLint.Text PermissionLint.Model PermissionLint.Ignore

namespace Rule

/-- What the rule finds does not depend on where the file is. -/
def IgnoresPlace (r : Rule) : Prop :=
  ∀ (file : FileContext) (path : Path) (m : Module),
    (r.check { file with path } m).violations = (r.check file m).violations

/-- What the rule finds does not depend on whether the file is test code. -/
def IgnoresTests (r : Rule) : Prop :=
  ∀ (file : FileContext) (isTest : Bool) (m : Module),
    (r.check { file with isTest } m).violations = (r.check file m).violations

/-- The rules there are do not depend on where the file is. -/
lemma ignoresPlace_ofConfig (c : Config) : ∀ r ∈ ofConfig c, r.IgnoresPlace := by
  intro r hr file path m
  obtain rfl := List.mem_singleton.1 hr
  rfl

/-- The rule for permissions looks at test code unless it is asked not to. -/
lemma ignoresTests_permission {o : Permission.Options} (h : o.allowInTests = false) :
    (Permission.rule o).IgnoresTests := by
  intro file isTest m
  change (Permission.check o _ m).violations = (Permission.check o file m).violations
  rw [Permission.violations_check (by rw [h, Bool.false_and]),
    Permission.violations_check (by rw [h, Bool.false_and])]
  rfl

end Rule

/-- The path, from the top, leads to the tree, and no folder above it holds an ignore file. -/
structure FileSystem.Holds (fs : FileSystem) (root : Path) (tree : FileTree) : Prop where
  absolute : root.isAbsolute = true
  leads : ∃ names, fs.resolve root = .ok names ∧ fs.top.at? names = some tree ∧
    hasIgnoreFileAbove fs.top names = false

lemma FileSystem.Holds.get_eq {fs : FileSystem} {root : Path} {tree : FileTree}
    (h : fs.Holds root tree) : fs.get root = .ok tree := by
  obtain ⟨names, hresolve, hat, -⟩ := h.leads
  rw [get, hresolve]
  dsimp only
  rw [hat]

namespace Analyzer

/-- Files at the two paths are treated alike: both or none are left out, and both or none are test
code, if that matters to a rule. -/
structure TreatsAlike (a : Analyzer) (p q : Path) : Prop where
  excluded : a.isExcluded p = a.isExcluded q
  test : a.isExcluded p = false → isTestPath p = isTestPath q ∨
    ∀ r ∈ a.rules, a.config.isEnabled r.name = true → r.IgnoresTests

variable {a : Analyzer} {root root' : Path}

/-! ## One file -/

lemma fileContext_below (h : root.isAbsolute = true) {q : Path} (hq : q.LeadsBelow)
    (text : List Char) :
    FileContext.of (root.join q) text root
      = ⟨root.join q, text, isTestPath (root.join q), q⟩ := by
  rw [FileContext.of, Path.stripPrefix?_join h hq]
  rfl

/-- A rule finds the same in a file at paths that are treated alike. -/
lemma violations_findings {p p' q : Path} (hrules : ∀ r ∈ a.rules, r.IgnoresPlace)
    (halike : a.TreatsAlike p p') (hkept : a.isExcluded p = false) (text : List Char) (m : Module)
    {r : Rule} (hr : r ∈ a.rules) :
    (findings a.config ⟨p, text, isTestPath p, q⟩ m r).violations
      = (findings a.config ⟨p', text, isTestPath p', q⟩ m r).violations := by
  rw [findings, findings]
  cases henabled : a.config.isEnabled r.name with
  | false => rfl
  | true =>
    have hplace : (r.check ⟨p, text, isTestPath p, q⟩ m).violations
        = (r.check ⟨p', text, isTestPath p, q⟩ m).violations :=
      hrules r hr ⟨p', text, isTestPath p, q⟩ p m
    have htest : (r.check ⟨p', text, isTestPath p, q⟩ m).violations
        = (r.check ⟨p', text, isTestPath p', q⟩ m).violations := by
      rcases halike.test hkept with heq | hignores
      · rw [heq]
      · exact hignores r hr henabled ⟨p', text, isTestPath p', q⟩ (isTestPath p) m
    exact congrArg (List.map _) (hplace.trans htest)

/-- Whether a file is readable does not depend on where it is. -/
lemma isReadable_below (root : Path) (f : Found) : isReadable (f.below root) = isReadable f := by
  obtain ⟨path, bytes⟩ := f
  rw [isReadable, isReadable, Found.below, readFile, readFile]
  cases bytes with
  | error reason => rfl
  | ok bytes =>
    dsimp only
    cases readModule bytes <;> rfl

/-- The rules find the same in a file at paths that are treated alike. -/
lemma ruleViolations_below (h : root.isAbsolute = true) (h' : root'.isAbsolute = true)
    (hrules : ∀ r ∈ a.rules, r.IgnoresPlace) {f : Found} (hf : f.path.LeadsBelow)
    (halike : a.TreatsAlike (root.join f.path) (root'.join f.path))
    (hkept : a.isExcluded (root.join f.path) = false) {r : Rule} (hr : r ∈ a.rules) :
    ruleViolations a.config root (f.below root) r
      = ruleViolations a.config root' (f.below root') r := by
  obtain ⟨path, bytes⟩ := f
  rw [ruleViolations, ruleViolations, Found.below, Found.below, readFile, readFile]
  cases bytes with
  | error reason => rfl
  | ok bytes =>
    dsimp only
    cases readModule bytes with
    | error fault => rfl
    | ok read =>
      obtain ⟨text, m⟩ := read
      change (findings a.config (FileContext.of (root.join path) text root) m r).violations
        = (findings a.config (FileContext.of (root'.join path) text root') m r).violations
      rw [fileContext_below h hf, fileContext_below h' hf]
      exact violations_findings hrules halike hkept text m hr

/-- A file ends the runs at both places or at neither.  The reason is the same: a strict run ends with
its fault, and any run if it cannot be read. -/
lemma fault?_below (root root' : Path) (f : Found) :
    (a.fault? (f.below root) = none ∧ a.fault? (f.below root') = none) ∨
      (a.strict = true ∧ ∃ fault, a.fault? (f.below root) = some (.file (root.join f.path) fault) ∧
        a.fault? (f.below root') = some (.file (root'.join f.path) fault)) ∨
      ∃ reason, f.bytes = .error reason ∧
        a.fault? (f.below root) = some (.walk (.unreadable reason)) ∧
        a.fault? (f.below root') = some (.walk (.unreadable reason)) := by
  obtain ⟨path, bytes⟩ := f
  simp only [fault?, Found.below, readFile]
  cases bytes with
  | error reason => exact .inr (.inr ⟨reason, rfl, rfl, rfl⟩)
  | ok bytes =>
    dsimp only
    cases readModule bytes with
    | ok read => exact .inl ⟨rfl, rfl⟩
    | error fault =>
      cases hstrict : a.strict with
      | false => exact .inl ⟨rfl, rfl⟩
      | true => exact .inr (.inl ⟨rfl, fault, rfl, rfl⟩)

/-! ## The files that are selected -/

/-- The files to check at a place, with their paths from the folder. -/
def selectBelow (a : Analyzer) (root : Path) (found : List Found) : List Found :=
  (found.filter fun f => isSource f.path && !a.isExcluded (root.join f.path)).mergeSort
    fun f g => Path.compare f.path g.path != .gt

lemma mem_selectBelow {found : List Found} {f : Found} (hf : f ∈ a.selectBelow root found) :
    f ∈ found ∧ isSource f.path = true ∧ a.isExcluded (root.join f.path) = false := by
  obtain ⟨hmem, hcond⟩ := List.mem_filter.1 (List.mem_mergeSort.1 hf)
  rw [Bool.and_eq_true, Bool.not_eq_true'] at hcond
  exact ⟨hmem, hcond⟩

lemma select_below (root : Path) {found : List Found}
    (hfound : ∀ f ∈ found, f.path.LeadsBelow) :
    a.select (found.map (·.below root)) = (a.selectBelow root found).map (·.below root) := by
  have hfilter : (found.map (·.below root)).filter
        (fun f => isSource f.path && !a.isExcluded f.path)
      = (found.filter fun f => isSource f.path && !a.isExcluded (root.join f.path)).map
          (·.below root) := by
    rw [List.filter_map]
    refine congrArg _ (List.filter_congr fun f hf => ?_)
    have hsource : isSource (root.join f.path) = isSource f.path := by
      rw [isSource, isSource, Path.extension?_join root (hfound f hf)]
    exact congrArg (· && _) hsource
  rw [select, selectBelow, hfilter]
  refine (List.map_mergeSort fun f hf g hg => ?_).symm
  have hf := hfound f (List.mem_of_mem_filter hf)
  have hg := hfound g (List.mem_of_mem_filter hg)
  exact congrArg (· != .gt) (Path.compare_join root hf hg).symm

/-- The same files are selected where they are treated alike. -/
lemma selectBelow_congr {found : List Found}
    (halike : ∀ f ∈ found, isSource f.path = true →
      a.isExcluded (root.join f.path) = a.isExcluded (root'.join f.path)) :
    a.selectBelow root found = a.selectBelow root' found := by
  rw [selectBelow, selectBelow]
  refine congrArg (List.mergeSort · _) (List.filter_congr fun f hf => ?_)
  cases hsource : isSource f.path with
  | false => rfl
  | true => rw [halike f hf hsource]

/-! ## The whole run -/

/-- The first file that ends the runs is the same at both places. -/
lemma findSome?_fault?_below (root root' : Path) (files : List Found) :
    ((files.map (·.below root)).findSome? a.fault? = none ∧
        (files.map (·.below root')).findSome? a.fault? = none) ∨
      (a.strict = true ∧ ∃ f ∈ files, ∃ fault,
        (files.map (·.below root)).findSome? a.fault? = some (.file (root.join f.path) fault) ∧
        (files.map (·.below root')).findSome? a.fault? = some (.file (root'.join f.path) fault)) ∨
      ∃ f ∈ files, ∃ reason, f.bytes = .error reason ∧
        (files.map (·.below root)).findSome? a.fault? = some (.walk (.unreadable reason)) ∧
        (files.map (·.below root')).findSome? a.fault? = some (.walk (.unreadable reason)) := by
  induction files with
  | nil => exact .inl ⟨rfl, rfl⟩
  | cons f files ih =>
    rw [List.map_cons, List.map_cons, List.findSome?_cons, List.findSome?_cons]
    rcases fault?_below root root' f with
      ⟨hnone, hnone'⟩ | ⟨hstrict, fault, hsome, hsome'⟩ | ⟨reason, hbytes, hsome, hsome'⟩
    · rw [hnone, hnone']
      rcases ih with hrest | ⟨hstrict, g, hg, hends⟩ | ⟨g, hg, hends⟩
      · exact .inl hrest
      · exact .inr (.inl ⟨hstrict, g, List.mem_cons_of_mem f hg, hends⟩)
      · exact .inr (.inr ⟨g, List.mem_cons_of_mem f hg, hends⟩)
    · rw [hsome, hsome']
      exact .inr (.inl ⟨hstrict, f, List.mem_cons_self, fault, rfl, rfl⟩)
    · rw [hsome, hsome']
      exact .inr (.inr ⟨f, List.mem_cons_self, reason, hbytes, rfl, rfl⟩)

/-- A run over a folder checks the files below it, wherever the folder is. -/
lemma result_analyze_below {fs : FileSystem} {entries : List (Name × FileTree)}
    (hnames : (FileTree.folder entries).isWellNamed = true)
    (hplace : fs.Holds root (.folder entries)) :
    ({ a with root }.analyze fs).result
      = (a.accept ((a.selectBelow root ((FileTree.folder entries).filesBelow
          a.config.analyzer.respectGitignore)).map (·.below root))).map (a.reportOn root) := by
  obtain ⟨names, hresolve, hat, hclear⟩ := hplace.leads
  have hroot : rootFile? { a with root } fs = none := rootFile?_of_folder hplace.get_eq
  have hfound : discover { a with root } fs
      = .ok (((FileTree.folder entries).filesBelow a.config.analyzer.respectGitignore).map
          (·.below root)) := by
    rw [← walkTree_folder hnames]
    exact walk_of_clear hresolve hat hclear _
  have hbase : base { a with root } fs = root := base_of_folder hplace.get_eq
  have hselect := @select_below a root _
    (leadsBelow_of_mem_filesBelow hnames a.config.analyzer.respectGitignore)
  rw [result_analyze, reportedFiles, sourceFiles, hroot, hfound, hbase, ← hselect]
  rfl

/-- The report on files is the same at both places. -/
lemma reportOn_below {files : List Found}
    (hsame : ∀ f ∈ files, ∀ r ∈ a.rules, ruleViolations a.config root (f.below root) r
      = ruleViolations a.config root' (f.below root') r) :
    a.reportOn root (files.map (·.below root)) = a.reportOn root' (files.map (·.below root')) := by
  have hviolations : a.violationsIn root (files.map (·.below root))
      = a.violationsIn root' (files.map (·.below root')) := by
    rw [violationsIn, violationsIn, List.flatMap_map, List.flatMap_map]
    exact List.flatMap_congr fun f hf => List.flatMap_congr fun r hr => hsame f hf r hr
  have hcount : ∀ root : Path, (files.map (·.below root)).countP isReadable
      = files.countP isReadable := by
    intro root
    rw [List.countP_map]
    exact List.countP_congr fun f _ => by rw [Function.comp_apply, isReadable_below]
  rw [reportOn, reportOn, hviolations, hcount, hcount]

/-- **The outcome of a run over a folder does not depend on where the folder is**, as long as the
patterns and the question of what is test code, which look at whole paths, decide the same about its
files.  The report is the same at both places; or both runs end, as a strict one may, with the same
fault of the same file; or they end with the same file that cannot be read. -/
theorem result_analyze_of_place {a : Analyzer} {fs fs' : FileSystem} {root root' : Path}
    {entries : List (Name × FileTree)} (hnames : (FileTree.folder entries).isWellNamed = true)
    (hplace : fs.Holds root (.folder entries)) (hplace' : fs'.Holds root' (.folder entries))
    (hrules : ∀ r ∈ a.rules, r.IgnoresPlace)
    (halike : ∀ f ∈ (FileTree.folder entries).filesBelow a.config.analyzer.respectGitignore,
      isSource f.path = true → a.TreatsAlike (root.join f.path) (root'.join f.path)) :
    (∃ report, ({ a with root }.analyze fs).result = .ok report ∧
        ({ a with root := root' }.analyze fs').result = .ok report) ∨
      (a.strict = true ∧
        ∃ f ∈ (FileTree.folder entries).filesBelow a.config.analyzer.respectGitignore, ∃ fault,
          ({ a with root }.analyze fs).result = .error (.file (root.join f.path) fault) ∧
          ({ a with root := root' }.analyze fs').result
            = .error (.file (root'.join f.path) fault)) ∨
      ∃ f ∈ (FileTree.folder entries).filesBelow a.config.analyzer.respectGitignore, ∃ reason,
        f.bytes = .error reason ∧
        ({ a with root }.analyze fs).result = .error (.walk (.unreadable reason)) ∧
        ({ a with root := root' }.analyze fs').result = .error (.walk (.unreadable reason)) := by
  generalize hbelow : (FileTree.folder entries).filesBelow a.config.analyzer.respectGitignore
    = found at halike ⊢
  have hleads : ∀ f ∈ found, f.path.LeadsBelow := by
    rw [← hbelow]
    exact leadsBelow_of_mem_filesBelow hnames _
  have hsame : ∀ f ∈ a.selectBelow root found, ∀ r ∈ a.rules,
      ruleViolations a.config root (f.below root) r
        = ruleViolations a.config root' (f.below root') r := by
    intro f hf r hr
    obtain ⟨hmem, hsource, hkept⟩ := mem_selectBelow hf
    exact ruleViolations_below hplace.absolute hplace'.absolute hrules (hleads f hmem)
      (halike f hmem hsource) hkept hr
  have hselect : a.selectBelow root' found = a.selectBelow root found :=
    (selectBelow_congr fun f hf hsource => (halike f hf hsource).excluded).symm
  rw [result_analyze_below hnames hplace, result_analyze_below hnames hplace', hbelow, hselect,
    accept, accept]
  rcases findSome?_fault?_below root root' (a.selectBelow root found) with
    ⟨hnone, hnone'⟩ | ⟨hstrict, f, hf, fault, hends, hends'⟩ | ⟨f, hf, reason, hbytes, hends, hends'⟩
  · rw [hnone, hnone']
    exact .inl ⟨_, rfl, congrArg Except.ok (reportOn_below hsame).symm⟩
  · rw [hends, hends']
    exact .inr (.inl ⟨hstrict, f, (mem_selectBelow hf).1, fault, rfl, rfl⟩)
  · rw [hends, hends']
    exact .inr (.inr ⟨f, (mem_selectBelow hf).1, reason, hbytes, rfl, rfl⟩)

set_option maxRecDepth 100000 in
/-- A project below a folder for test code is checked as anywhere else, unless the rule is asked to
leave test code out. -/
theorem result_analyze_of_place_tests :
    let source : List UInt8 := Utf8.encode "class A: permission_classes = []".toList
    let entries : List (Name × FileTree) := [("api".toList, .folder
      [("views.py".toList, .file source),
        ("venv".toList, .folder [("a.py".toList, .file source)])])]
    let project : FileTree := .folder [("p".toList, .folder entries)]
    let fs : FileSystem :=
      { top := .folder [("src".toList, project), ("tests".toList, project)] }
    let patterns := ({} : AnalyzerSection).exclude.mapM Exclude.ofPattern
    let a : Analyzer := ⟨[], Rule.ofConfig {}, patterns.toOption.getD [], {}, false⟩
    patterns.isOk = true ∧ isTestPath "/src/p/api/views.py".toList = false ∧
      isTestPath "/tests/p/api/views.py".toList = true ∧
      ∃ report, ({ a with root := "/src/p".toList }.analyze fs).result = .ok report ∧
        ({ a with root := "/tests/p/".toList }.analyze fs).result = .ok report := by
  intro source entries project fs patterns a
  have hplace : fs.Holds "/src/p".toList (.folder entries) :=
    ⟨rfl, ["src".toList, "p".toList], rfl, rfl, rfl⟩
  have hplace' : fs.Holds "/tests/p/".toList (.folder entries) :=
    ⟨rfl, ["tests".toList, "p".toList], rfl, rfl, rfl⟩
  have hfiles : (FileTree.folder entries).filesBelow true
      = [⟨"api/views.py".toList, source⟩, ⟨"api/venv/a.py".toList, source⟩] := rfl
  have hrun := @result_analyze_of_place a fs fs "/src/p".toList "/tests/p/".toList entries
    (by decide +kernel) hplace hplace' (Rule.ignoresPlace_ofConfig {}) ?_
  · refine ⟨by decide +kernel, by decide +kernel, by decide +kernel, ?_⟩
    rcases hrun with hok | ⟨hstrict, -⟩ | ⟨f, hf, reason, hbytes, -⟩
    · exact hok
    · cases hstrict
    · -- both files can be read
      have hf : f ∈ [_, _] := hfiles ▸ hf
      simp only [List.mem_cons, List.not_mem_nil, or_false] at hf
      rcases hf with rfl | rfl <;> cases hbytes
  · have hexcluded : ∀ f ∈ [Found.mk "api/views.py".toList source,
          ⟨"api/venv/a.py".toList, source⟩],
        a.isExcluded (Path.join "/src/p".toList f.path)
          = a.isExcluded (Path.join "/tests/p/".toList f.path) := by
      decide +kernel
    intro f hf _
    refine ⟨hexcluded f (hfiles ▸ hf), fun _ => .inr fun r hr _ => ?_⟩
    obtain rfl := List.mem_singleton.1 hr
    exact Rule.ignoresTests_permission rfl

set_option maxRecDepth 100000 in
/-- The same folder is reported on differently at different places: below a folder that a pattern
names no file is checked, and below one for test code nothing is found if the rule leaves that
out. -/
theorem result_analyze_depends_on_place :
    let source : List UInt8 := Utf8.encode "class A: permission_classes = []".toList
    let project : FileTree := .folder [("views.py".toList, .file source)]
    let outer : FileTree := .folder [("p".toList, project)]
    let fs : FileSystem :=
      { top := .folder [("src".toList, outer), ("venv".toList, outer), ("tests".toList, outer)] }
    let counts (c : Config) (root : String) : Option (Nat × Nat) :=
      (Analyzer.build ['/'] (some root.toList) (Rule.ofConfig c) [] c false).toOption.bind fun a =>
        (a.analyze fs).result.toOption.map fun r => (r.filesChecked, r.violations.length)
    let lenient : Config :=
      { rules := [(Permission.name, { options := [("allow_in_tests", .boolean true)] })] }
    fs.Holds "/src/p".toList project ∧ fs.Holds "/venv/p".toList project ∧
      fs.Holds "/tests/p".toList project ∧
      counts {} "/src/p" = some (1, 1) ∧ counts {} "/venv/p" = some (0, 0) ∧
      counts lenient "/src/p" = some (1, 1) ∧ counts lenient "/tests/p" = some (1, 0) := by
  intro source project outer fs counts lenient
  refine ⟨⟨rfl, ["src".toList, "p".toList], rfl, rfl, rfl⟩,
    ⟨rfl, ["venv".toList, "p".toList], rfl, rfl, rfl⟩,
    ⟨rfl, ["tests".toList, "p".toList], rfl, rfl, rfl⟩, ?_⟩
  decide +kernel

end Analyzer

end PermissionLint
