/-
Checking before and after a configuration has been written.

What is written says what holds without a configuration: all that a check asks it is answered alike
(`exists_parse_defaultConfig`).  It is found only where the working directory is checked, in which
there was none, and any other configuration is found and loaded as before (`Writes.load_findConfig`).
As the new file does not change what is checked either, a check prints the same before and after
(`check_after_init`).
-/
import Mathlib.Data.List.Find
import PermissionLint.Command.Init
import PermissionLint.Proofs.Analyzer.Bystander
import PermissionLint.Proofs.Command.Sources
import PermissionLint.Proofs.Text.Utf8

namespace PermissionLint

open PermissionLint.Text

/-! ## The configuration that is written -/

/-- The configurations answer alike whatever a check asks them. -/
structure Config.Agrees (c d : Config) : Prop where
  failOn : c.failOn = d.failOn
  analyzer : c.analyzer = d.analyzer
  isEnabled : ∀ name, c.isEnabled name = d.isEnabled name
  severity? : ∀ name, c.severity? name = d.severity? name
  options : Permission.Options.ofConfig c = Permission.Options.ofConfig d

lemma Config.Agrees.refl (c : Config) : c.Agrees c :=
  ⟨rfl, rfl, fun _ => rfl, fun _ => rfl, rfl⟩

namespace Config

variable {c d : Config}

lemma Agrees.ruleViolations (h : c.Agrees d) :
    Analyzer.ruleViolations c = Analyzer.ruleViolations d := by
  funext base f r
  simp only [Analyzer.ruleViolations, Analyzer.findings, h.isEnabled, h.severity?]

/-- The analyzer with another configuration. -/
lemma Agrees.result_analyze (h : c.Agrees d) {a : Analyzer} (ha : a.config = d) (fs : FileSystem) :
    ({ a with config := c }.analyze fs).result = (a.analyze fs).result := by
  subst ha
  have hfiles : Analyzer.sourceFiles { a with config := c } fs = a.sourceFiles fs := by
    simp only [Analyzer.sourceFiles, Analyzer.discover, h.analyzer]
    rfl
  have hreport : Analyzer.reportOn { a with config := c } = a.reportOn := by
    funext base files
    simp only [Analyzer.reportOn, Analyzer.violationsIn, h.ruleViolations]
  rw [Analyzer.result_analyze, Analyzer.result_analyze, Analyzer.reportedFiles,
    Analyzer.reportedFiles, hfiles, hreport]
  rfl

end Config

namespace Command

lemma toList_unlines (lines : List String) :
    (unlines lines).toList = lines.flatMap fun line => line.toList ++ ['\n'] := by
  rw [unlines, String.toList_join, List.flatMap_map]
  exact List.flatMap_congr fun line _ => String.toList_append

set_option maxRecDepth 100000 in
/-- What the configuration that is written says. -/
lemma parse_defaultConfig :
    defaultConfig.toList.all (·.toNat < 0x80) = true ∧
      (Config.parse defaultConfig).toOption.any (fun c =>
        c.failOn = .error ∧ c.analyzer = {} ∧
          c.rules.map (fun r => (r.1, r.2.enabled, r.2.severity, r.2.flag "allow_in_tests" false))
            = [(Permission.name, some true, none, false)]) = true := by
  rw [Config.parse, Toml.parse?, defaultConfig, toList_unlines]
  decide +kernel

/-- The configuration that is written says what holds without one. -/
lemma exists_parse_defaultConfig : ∃ c, Config.parse defaultConfig = .ok c ∧ c.Agrees {} := by
  have hsays := parse_defaultConfig.2
  cases hparse : Config.parse defaultConfig with
  | error e =>
    rw [hparse] at hsays
    cases hsays
  | ok c =>
    rw [hparse] at hsays
    obtain ⟨hfail, hanalyzer, hrules⟩ := of_decide_eq_true hsays
    obtain ⟨r, hr, hsection⟩ := List.map_eq_singleton_iff.1 hrules
    simp only [Prod.mk.injEq] at hsection
    obtain ⟨hname, henabled, hseverity, hflag⟩ := hsection
    -- the only section is that of the rule for permissions, and it says what holds without it
    have hrule : ∀ name, c.rule? name = if r.1 == name then some r.2 else none := by
      intro name
      rw [Config.rule?, hr, List.find?_singleton]
      split <;> rfl
    refine ⟨c, rfl, hfail, hanalyzer, fun name => ?_, fun name => ?_, ?_⟩
    · rw [Config.isEnabled, hrule]
      split
      · rw [Option.bind_some, henabled]
        rfl
      · rfl
    · rw [Config.severity?, hrule]
      split
      · rw [Option.bind_some, hseverity]
        rfl
      · rfl
    · rw [Permission.Options.ofConfig, hrule, hname, beq_self_eq_true, if_pos rfl]
      dsimp only
      rw [hflag]
      rfl

lemma chosenRules_of_agrees {c d : Config} (h : c.Agrees d) (rules : Option String) :
    chosenRules c rules = chosenRules d rules := by
  cases rules with
  | none => rw [chosenRules, chosenRules, Rule.ofConfig, Rule.ofConfig, h.options]
  | some list => rw [chosenRules, chosenRules, listedRules_eq, listedRules_eq, h.options]

lemma reportWith_of_agrees {c d : Config} (h : c.Agrees d) (fs : FileSystem) (path : Path)
    (patterns : List String) (rules : List Rule) :
    reportWith fs path patterns c rules = reportWith fs path patterns d rules := by
  rw [reportWith, reportWith, Analyzer.build, Analyzer.build, h.analyzer]
  cases (patterns ++ d.analyzer.exclude).mapM Exclude.ofPattern with
  | error e => rfl
  | ok excludes =>
    exact congrArg (Except.mapError _)
      (h.result_analyze (a := ⟨fs.workingDirectory.join path, rules, excludes, d, false⟩) rfl fs)

/-! ## Finding the configuration -/

/-- The names of configurations are single parts of paths. -/
lemma isName_of_mem_projectConfigNames : ∀ name ∈ projectConfigNames, Path.IsName name := by
  intro name hname
  have hparts : ∀ name ∈ projectConfigNames, Path.isVoid name = false ∧ '/' ∉ name ∧
      name ≠ ['.', '.'] := by decide +kernel
  obtain ⟨hfirm, hsingle, hundotted⟩ := hparts name hname
  exact ⟨hfirm, hsingle, hundotted⟩

lemma isBystander_projectConfigName : Analyzer.IsBystander projectConfigName where
  toIsName := isName_of_mem_projectConfigNames _ List.mem_cons_self
  notSource := by decide +kernel
  notIgnore := by
    intro s
    cases s <;> decide +kernel

/-- There is no configuration for the working directory, and none for all projects. -/
structure Surroundings.IsUnconfigured (s : Surroundings) : Prop where
  project : ∀ name ∈ projectConfigNames, s.files.contains name = false
  global : ∀ folder, s.globalFolder = some folder →
    s.files.contains (folder.join globalConfigName) = false

/-- The surroundings with one more file. -/
def Surroundings.adding (s : Surroundings) (place : List Name) (bytes : Contents) :
    Surroundings :=
  { s with files := s.files.adding place bytes }

variable {s : Surroundings} {here : List Name} {folder : Path} {bytes : Contents}

lemma globalPath_eq_none (h : ∀ g, s.globalFolder = some g →
      s.files.contains (g.join globalConfigName) = false) :
    (s.globalFolder.map fun g => g.join globalConfigName).filter s.files.contains = none := by
  cases hglobal : s.globalFolder with
  | none => rfl
  | some g => simp [h g hglobal]

/-- A configuration is written into the folder at the end of the names: it is the working directory,
and there is no configuration yet. -/
structure Writes (s : Surroundings) (here : List Name) : Prop where
  unconfigured : s.IsUnconfigured
  absolute : s.files.workingDirectory.isAbsolute = true
  room : s.files.HasRoom here projectConfigName
  leads : s.files.top.follow (Path.firmParts s.files.workingDirectory) [] = .ok here

/-- A folder that the new configuration is found in is the working directory, so there has been no
configuration in it. -/
lemma Writes.contains_join (h : Writes s here)
    (hresolve : (s.files.adding (here ++ [projectConfigName]) bytes).resolve
      (folder.join projectConfigName) = .ok (here ++ [projectConfigName])) :
    ∀ name ∈ projectConfigNames, s.files.contains (folder.join name) = false := by
  have hfolder := FileSystem.isAbsolute_absolute h.absolute folder
  have hjoin : ∀ name ∈ projectConfigNames,
      s.files.absolute (folder.join name) = (s.files.absolute folder).join name := fun name hname =>
    (Path.join_assoc _ _ (isName_of_mem_projectConfigNames name hname).isAbsolute).symm
  obtain ⟨outer, houter, hnames, -⟩ := (@FileSystem.resolve_eq_ok_iff_of_join
    (s.files.adding _ bytes) _ _ _ _ isBystander_projectConfigName.toIsName hfolder
    (hjoin _ List.mem_cons_self)).1 hresolve
  obtain rfl : here = outer := (List.append_inj' hnames rfl).1
  intro name hname
  have hisName := isName_of_mem_projectConfigNames name hname
  refine Bool.eq_false_iff.2 fun hcontains => ?_
  obtain ⟨outer, hbefore, hsome⟩ :=
    (FileSystem.contains_iff_of_join hisName hfolder (hjoin name hname)).1 hcontains
  -- the folder leads to the same place before and after
  cases houter.symm.trans (h.room.follow_adding bytes hbefore)
  have hfound := (FileSystem.contains_iff_of_join hisName h.absolute rfl).2 ⟨here, h.leads, hsome⟩
  rw [h.unconfigured.project name hname] at hfound
  cases hfound

lemma findConfig_eq_builtIn (h : s.IsUnconfigured)
    (hproject : ∀ name ∈ projectConfigNames, s.files.contains (folder.join name) = false) :
    findConfig s folder none = .builtIn := by
  have hfind : (projectConfigNames.map folder.join).find? s.files.contains = none := by
    refine List.find?_eq_none.2 fun path hpath => ?_
    obtain ⟨name, hname, rfl⟩ := List.mem_map.1 hpath
    simp [hproject name hname]
  dsimp only [findConfig]
  rw [hfind, globalPath_eq_none h.global]

/-- Where the new configuration is not found, the same one is found as before. -/
lemma Writes.findConfig_adding (h : Writes s here)
    (hne : (s.files.adding (here ++ [projectConfigName]) bytes).resolve
      (folder.join projectConfigName) ≠ .ok (here ++ [projectConfigName])) :
    findConfig (s.adding (here ++ [projectConfigName]) bytes) folder none
      = findConfig s folder none := by
  -- of all places that are tried, only the first one could lead to the new file
  have hproject : ∀ path ∈ projectConfigNames.map folder.join,
      (s.adding (here ++ [projectConfigName]) bytes).files.contains path
        = s.files.contains path := by
    intro path hpath
    obtain ⟨name, hname, rfl⟩ := List.mem_map.1 hpath
    by_cases hnew : name = projectConfigName
    · rw [hnew]
      exact h.room.contains_adding hne
    · refine h.room.contains_adding_of_lastPart ?_
      rwa [Path.lastPart_join, (isName_of_mem_projectConfigNames name hname).lastPart]
  have hglobal : ∀ g, s.globalFolder = some g →
      (s.adding (here ++ [projectConfigName]) bytes).files.contains (g.join globalConfigName)
        = false := by
    intro g hg
    rw [← h.unconfigured.global g hg]
    refine h.room.contains_adding_of_lastPart ?_
    rw [Path.lastPart_join]
    decide +kernel
  dsimp only [findConfig]
  rw [List.find?_congr hproject, globalPath_eq_none hglobal,
    globalPath_eq_none h.unconfigured.global]

/-- A configuration that is found is there. -/
lemma contains_of_path? {path : Path} (h : (findConfig s folder none).path? = some path) :
    s.files.contains path = true := by
  dsimp only [findConfig] at h
  split at h
  · next found hfind =>
    cases h
    exact List.find?_some hfind
  · split at h
    · next found hfind =>
      cases h
      exact (Option.filter_eq_some_iff.1 hfind).2
    · cases h

/-- A configuration that is found is still loaded. -/
lemma Writes.load_adding (h : Writes s here) (folder : Path) :
    (findConfig s folder none).load (s.files.adding (here ++ [projectConfigName]) bytes)
      = (findConfig s folder none).load s.files := by
  rw [ConfigSource.load, ConfigSource.load]
  cases hpath : (findConfig s folder none).path? with
  | none => rfl
  | some path =>
    have hload : Config.load (s.files.adding (here ++ [projectConfigName]) bytes) path
        = Config.load s.files path := by
      rw [Config.load, Config.load, FileSystem.readText, FileSystem.readText,
        h.room.read_adding bytes (contains_of_path? hpath)]
    dsimp only
    rw [hload]

/-- The bytes of the configuration that is written. -/
def configBytes : List UInt8 := Utf8.encode defaultConfig.toList

lemma load_of_read {fs : FileSystem} {path : Path} {bytes : List UInt8} {text : List Char}
    (hread : fs.read path = .ok bytes) (hdecode : Utf8.decode bytes = .ok text) :
    Config.load fs path = Config.parse (String.ofList text) := by
  rw [Config.load, FileSystem.readText, hread]
  dsimp only
  rw [hdecode]

lemma load_defaultConfig {fs : FileSystem} {path : Path} (hread : fs.read path = .ok configBytes) :
    Config.load fs path = Config.parse defaultConfig := by
  have hascii : ∀ c ∈ defaultConfig.toList, c.toNat < 0x80 := fun c hc =>
    of_decide_eq_true (List.all_eq_true.1 parse_defaultConfig.1 c hc)
  rw [load_of_read hread (Utf8.decode_encode_of_ascii hascii), String.ofList_toList]

/-- **The configuration says the same before and after one has been written**, or cannot be loaded
either time. -/
lemma Writes.load_findConfig (h : Writes s here) (folder : Path) :
    let s' := s.adding (here ++ [projectConfigName]) configBytes
    (∃ failure, (findConfig s folder none).load s.files = .error failure ∧
        (findConfig s' folder none).load s'.files = .error failure) ∨
      ∃ c d, (findConfig s folder none).load s.files = .ok c ∧
        (findConfig s' folder none).load s'.files = .ok d ∧ d.Agrees c := by
  intro s'
  by_cases hresolve : s'.files.resolve (folder.join projectConfigName)
      = .ok (here ++ [projectConfigName])
  · -- the folder is the working directory, and what was written is found
    have hget : s'.files.get (folder.join projectConfigName) = .ok (.file (.ok configBytes)) :=
      FileSystem.get_eq_ok_iff.2 ⟨_, hresolve, FileTree.at?_put _ _ _⟩
    have hbefore : findConfig s folder none = .builtIn :=
      findConfig_eq_builtIn h.unconfigured (h.contains_join hresolve)
    have hafter : findConfig s' folder none = .project (folder.join projectConfigName) := by
      have hcontains : s'.files.contains (folder.join projectConfigName) = true :=
        FileSystem.contains_of_get hget
      have hfind : (projectConfigNames.map folder.join).find? s'.files.contains
          = some (folder.join projectConfigName) := List.find?_cons_of_pos hcontains
      dsimp only [findConfig]
      rw [hfind]
    obtain ⟨c, hparse, hagrees⟩ := exists_parse_defaultConfig
    refine .inr ⟨{}, c, ?_, ?_, hagrees⟩
    · rw [hbefore]
      rfl
    · rw [hafter, ConfigSource.load]
      dsimp only [ConfigSource.path?]
      rw [load_defaultConfig (FileSystem.read_of_get hget), hparse]
  · have hload : (findConfig s folder none).load s'.files
        = (findConfig s folder none).load s.files := h.load_adding folder
    rw [h.findConfig_adding hresolve, hload]
    cases (findConfig s folder none).load s.files with
    | error failure => exact .inl ⟨failure, rfl, rfl⟩
    | ok c => exact .inr ⟨c, c, rfl, rfl, .refl c⟩

/-! ## The outcome of a check -/

/-- Of the sources only those of the violations are shown. -/
lemma render_congr {r : Report} {source source' : String → Option (List Char)}
    (h : ∀ v ∈ r.violations, source v.location.file = source' v.location.file) (format : Format) :
    r.render source format = r.render source' format := by
  cases format with
  | pretty =>
    rw [Report.render, Report.render, Report.renderPretty, Report.renderPretty]
    refine congrArg (fun shown => String.join shown ++ r.summaryLine)
      (List.map_congr_left fun v hv => ?_)
    rw [h v hv]
  | _ => rfl

lemma projectFolder_adding (hroom : s.files.HasRoom here projectConfigName) (bytes : Contents)
    {path : Path} (hpath : s.files.contains path = true) :
    projectFolder (s.files.adding (here ++ [projectConfigName]) bytes) path
      = projectFolder s.files path := by
  rw [projectFolder, projectFolder, hroom.isFile_adding bytes hpath]

/-- With the same configuration, the new file does not change the report. -/
lemma Writes.reportWith_adding (h : Writes s here) {path : Path}
    (hpath : s.files.contains path = true) (patterns : List String) (config : Config)
    (rules : List Rule) :
    reportWith (s.files.adding (here ++ [projectConfigName]) bytes) path patterns config rules
      = reportWith s.files path patterns config rules := by
  have hroot : s.files.contains (s.files.workingDirectory.join path) = true := by
    obtain ⟨tree, hget⟩ := FileSystem.exists_get_of_contains hpath
    exact FileSystem.contains_of_get (FileSystem.get_absolute h.absolute hget)
  rw [reportWith, reportWith, Analyzer.build, Analyzer.build]
  cases (patterns ++ config.analyzer.exclude).mapM Exclude.ofPattern with
  | error e => rfl
  | ok excludes =>
    exact congrArg (Except.mapError _)
      (Analyzer.result_analyze_adding (a := ⟨_, rules, excludes, config, false⟩) h.room
        isBystander_projectConfigName bytes hroot)

/-- The source of a violation that is reported can be read. -/
lemma exists_sourceOf_of_mem {fs : FileSystem} {path : Path} {patterns : List String}
    {config c : Config} {list : Option String} {report : Report}
    (habsolute : fs.workingDirectory.isAbsolute = true) (hordinary : fs.top.IsOrdinary)
    (h : reportWith fs path patterns config (chosenRules c list) = .ok report) {v : Violation}
    (hv : v ∈ report.violations) :
    ∃ text, sourceOf fs (projectFolder fs path) v.location.file = some text := by
  obtain ⟨a, hroot, hrules, hresult⟩ := exists_analyzer h
  obtain ⟨files, hfiles, rfl⟩ := Analyzer.exists_sourceFiles hresult
  have hrootAbsolute : a.root.isAbsolute = true := by
    rw [hroot]
    exact FileSystem.isAbsolute_absolute habsolute path
  obtain ⟨f, hf, hv⟩ := List.mem_flatMap.1 (List.mem_mergeSort.1 hv)
  obtain ⟨r, hr, hv⟩ := List.mem_flatMap.1 hv
  rw [hrules] at hr
  rw [eq_of_mem_chosenRules hr] at hv
  have hbelow := isBelow_of_mem hordinary hrootAbsolute hfiles f hf
  obtain ⟨text, -, -, hsource⟩ := (leadsBack_of_mem habsolute hroot hbelow hv).source
  exact ⟨text, hsource⟩

lemma sourceOf_adding (hroom : s.files.HasRoom here projectConfigName) (bytes : Contents)
    {file : String} {text : List Char} (h : sourceOf s.files folder file = some text) :
    sourceOf (s.files.adding (here ++ [projectConfigName]) bytes) folder file = some text := by
  have hcontains : s.files.contains (folder.join file.toList) = true := by
    rw [sourceOf, FileSystem.readText, FileSystem.read] at h
    cases hget : s.files.get (folder.join file.toList) with
    | error e =>
      rw [hget] at h
      cases h
    | ok tree => exact FileSystem.contains_of_get hget
  rw [← h, sourceOf, sourceOf, FileSystem.readText, FileSystem.readText,
    hroom.read_adding bytes hcontains]

/-- A check prints the same before and after a configuration has been written. -/
lemma Writes.check_adding (h : Writes s here) (hordinary : s.files.top.IsOrdinary)
    {o : CheckOptions} (hpath : s.files.contains o.path = true) :
    let s' := s.adding (here ++ [projectConfigName]) configBytes
    (check s' none o).output = (check s none o).output ∧
      (check s' none o).status = (check s none o).status := by
  intro s'
  have hfolder : projectFolder s'.files o.path = projectFolder s.files o.path :=
    projectFolder_adding h.room configBytes hpath
  have hbefore := check_eq s none o
  have hafter := check_eq s' none o
  rw [checkReport] at hbefore hafter
  rw [hfolder] at hafter
  rcases h.load_findConfig (projectFolder s.files o.path) with
    ⟨failure, hload, hload'⟩ | ⟨c, d, hload, hload', hagrees⟩
  · rw [hload] at hbefore
    rw [hload'] at hafter
    exact ⟨hafter.2.2.trans hbefore.2.2.symm, hafter.2.1.trans hbefore.2.1.symm⟩
  · have hreport : reportWith s'.files o.path o.exclude d (chosenRules d o.rules)
        = reportWith s.files o.path o.exclude c (chosenRules c o.rules) := by
      rw [chosenRules_of_agrees hagrees, reportWith_of_agrees hagrees]
      exact h.reportWith_adding hpath o.exclude c _
    rw [hload] at hbefore
    rw [hload'] at hafter
    dsimp only at hbefore hafter
    rw [hreport] at hafter
    cases hresult : reportWith s.files o.path o.exclude c (chosenRules c o.rules) with
    | error failure =>
      rw [hresult] at hbefore hafter
      exact ⟨hafter.2.2.trans hbefore.2.2.symm, hafter.2.1.trans hbefore.2.1.symm⟩
    | ok report =>
      rw [hresult] at hbefore hafter
      obtain ⟨-, hstatus, houtput⟩ := hbefore
      obtain ⟨-, hstatus', houtput'⟩ := hafter
      constructor
      · rw [houtput, houtput']
        -- what is shown of a violation was read before, so it is still read
        refine render_congr (fun v hv => ?_) o.format
        obtain ⟨text, htext⟩ := exists_sourceOf_of_mem h.absolute hordinary hresult hv
        exact (sourceOf_adding h.room configBytes htext).trans htext.symm
      · rw [hstatus, hstatus', statusOf, statusOf, hagrees.failOn]

/-! ## Writing the configuration -/

/-- Where there is no configuration, one is written into the working directory. -/
lemma exists_writes (hsound : s.files.IsSound) (hnone : s.IsUnconfigured) (force : Bool) :
    ∃ here, Writes s here ∧ init s.files force
      = { output := initText
          files := s.files.adding (here ++ [projectConfigName]) configBytes } := by
  obtain ⟨entries, hget⟩ := hsound.folder
  obtain ⟨here, hresolve, hfolder⟩ := FileSystem.get_eq_ok_iff.1 hget
  have hleads : s.files.top.follow (Path.firmParts s.files.workingDirectory) [] = .ok here := by
    rw [FileSystem.resolve, FileSystem.absolute_of_isAbsolute hsound.absolute] at hresolve
    split at hresolve
    · cases hresolve
    · exact FileTree.follow_filter hresolve
  have habsent := hnone.project projectConfigName List.mem_cons_self
  have hfree : s.files.top.at? (here ++ [projectConfigName]) = none := by
    refine Option.not_isSome_iff_eq_none.1 fun hsome => ?_
    have hfound := (FileSystem.contains_iff_of_join isBystander_projectConfigName.toIsName
      hsound.absolute rfl).2 ⟨here, hleads, hsome⟩
    rw [habsent] at hfound
    cases hfound
  refine ⟨here, ⟨hnone, hsound.absolute, ?_, hleads⟩, ?_⟩
  · exact ⟨hsound.ordinary.distinct, ⟨entries, hfolder⟩, hfree⟩
  · rw [init, habsent, Bool.false_and, if_neg (by simp), FileSystem.writeText, hresolve]
    dsimp only
    rw [hfree]
    rfl

/-- **Writing a configuration changes nothing that is reported.**  Where there is no configuration
for the working directory and none for all projects, one is written, and a check of any path there
is prints the same and has the same status as before, in every format and whatever rules and
patterns are given.  A configuration that is there already is kept unless the command is forced. -/
theorem check_after_init {s : Surroundings} (hsound : s.files.IsSound) (hnone : s.IsUnconfigured)
    (force : Bool) :
    let after : Surroundings := { s with files := (init s.files force).files }
    (init s.files force).failure = none ∧ (init s.files force).status = 0 ∧
      (∀ o : CheckOptions, s.files.contains o.path = true →
        (check after none o).output = (check s none o).output ∧
          (check after none o).status = (check s none o).status) ∧
      ∀ fs : FileSystem, fs.contains projectConfigName = true →
        (init fs false).failure.isSome ∧ (init fs false).status = 1 ∧
          (init fs false).files = fs := by
  intro after
  obtain ⟨here, hwrites, hinit⟩ := exists_writes hsound hnone force
  have hafter : after = s.adding (here ++ [projectConfigName]) configBytes := by
    change { s with files := (init s.files force).files } = _
    rw [hinit]
    rfl
  refine ⟨by rw [hinit], by rw [hinit], fun o hpath => ?_, fun fs hexists => ?_⟩
  · rw [hafter]
    exact hwrites.check_adding hsound.ordinary hpath
  · rw [init, hexists]
    exact ⟨rfl, rfl, rfl⟩

/-- A working directory with a folder that holds a view open to everybody. -/
def withoutConfig : Surroundings :=
  let view := "class V: permission_classes = []".toList
  { files := {
      top := .folder [("w".toList, .folder [("api".toList, .folder
        [("v.py".toList, .file (Utf8.encode view))])])]
      workingDirectory := "/w".toList } }

set_option maxRecDepth 100000 in
/-- What is written is found, and the view is reported as before. -/
theorem check_after_init_view :
    let after : Surroundings :=
      { withoutConfig with files := (init withoutConfig.files false).files }
    let line := "api/v.py:1:10: " ++ Permission.message ++ "\n"
    findConfig withoutConfig ['.'] none = .builtIn ∧
      findConfig after ['.'] none = .project "./drf-lint.toml".toList ∧
      (check withoutConfig none { format := .flake8 }).output = line ∧
      (check after none { format := .flake8 }).output = line ∧
      (init after.files false).files = after.files := by
  intro after line
  have hsound : withoutConfig.files.IsSound :=
    ⟨⟨⟨by decide +kernel, by decide +kernel⟩, by decide +kernel⟩, by decide +kernel, ⟨_, rfl⟩⟩
  have hnone : withoutConfig.IsUnconfigured := ⟨by decide +kernel, fun _ h => by cases h⟩
  obtain ⟨-, -, hsame, hkept⟩ := check_after_init hsound hnone false
  have hline : (check withoutConfig none { format := .flake8 }).output = line := by decide +kernel
  obtain ⟨houtput, -⟩ := hsame { format := .flake8 } (by decide +kernel)
  refine ⟨by decide +kernel, by decide +kernel, hline, houtput.trans hline, ?_⟩
  exact (hkept after.files (by decide +kernel)).2.2

end Command

end PermissionLint
