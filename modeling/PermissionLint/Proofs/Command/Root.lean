/-
Checking without a path.

What a command line checks is the one word behind the command, or the dot if there is none
(`path_of_parse`).  So the analyzer is always given a root, and never takes the one of the
configuration: without a path the report is that of the configuration with the dot for its root
(`run_without_path`).  Where the configured root is another one, this is not the report that the
configuration asks for (`run_without_path_elsewhere`).
-/
import PermissionLint.Proofs.Command.RuleList

namespace PermissionLint

/-- The configuration with another root. -/
def Config.withRoot (c : Config) (root : String) : Config :=
  { c with analyzer := { c.analyzer with root } }

namespace Analyzer

/-- The analyzer with another root in its configuration. -/
def withConfiguredRoot (root : String) (a : Analyzer) : Analyzer :=
  { a with config := a.config.withRoot root }

/-- A root that is given is as good as one that is configured. -/
lemma build_withRoot (workingDirectory : Path) (root : String) (rules : List Rule)
    (patterns : List String) (config : Config) (strict : Bool) :
    build workingDirectory none rules patterns (config.withRoot root) strict
      = (build workingDirectory (some root.toList) rules patterns config strict).map
          (withConfiguredRoot root) := by
  have hexclude : (config.withRoot root).analyzer.exclude = config.analyzer.exclude := rfl
  rw [build, build, hexclude]
  cases (patterns ++ config.analyzer.exclude).mapM Exclude.ofPattern with
  | error e => rfl
  | ok excludes => rfl

/-- Once there is an analyzer, the configured root does not matter. -/
lemma analyze_withConfiguredRoot (root : String) (a : Analyzer) (fs : FileSystem) :
    (a.withConfiguredRoot root).analyze fs = a.analyze fs := rfl

end Analyzer

namespace Command

open PermissionLint.Text

/-! ## The path of a command line -/

/-- The words among tokens. -/
def words (ts : List Token) : List String :=
  ts.filterMap fun
    | .word text _ => some text
    | _ => none

/-- The words behind the command: all that is neither an option nor the value of one. -/
def wordsBehind (arguments : List String) : List String :=
  match (splitCommand Flag.general none arguments).2 with
  | some (_, rest) => words (tokens (Flag.ofTopic .check) none rest)
  | none => []

namespace Settings

variable {topic : Option Topic} {s s' : Settings}

lemma path_setFlag {f : Flag} (h : s.setFlag topic f = .ok s') : s'.path = s.path := by
  cases f with
  | verbose | force =>
    rw [setFlag] at h
    split at h
    · cases h
    · cases h
      rfl
  | _ => cases h

lemma path_setValue {value : String} {f : Flag} (h : s.setValue value f = .ok s') :
    s'.path = s.path := by
  cases f with
  | config | rules =>
    rw [setValue] at h
    split at h
    · cases h
    · cases h
      rfl
  | format =>
    rw [setValue] at h
    split at h
    · cases h
      rfl
    · cases h
  | exclude =>
    cases h
    rfl
  | _ => cases h

/-- One token sets the path if it is a word and leaves it alone otherwise. -/
lemma path_apply {t : Token} (h : s.apply topic t = .ok s') :
    s'.path = s.path.or ((words [t]).head?.map String.toList) := by
  cases t with
  | flag f value =>
    have hpath : s'.path = s.path := by
      cases value with
      | none => exact path_setFlag h
      | some value => exact path_setValue h
    rw [hpath]
    exact (Option.or_none).symm
  | word text isBare =>
    rw [apply] at h
    split at h
    · next hfirst =>
      have hnone : s.path = none := by
        simp only [Bool.and_eq_true] at hfirst
        exact Option.isNone_iff_eq_none.1 hfirst.1.2
      cases h
      rw [hnone]
      rfl
    · cases h
  | wrong => cases h

/-- The path is the first word. -/
lemma path_foldlM {ts : List Token} (h : ts.foldlM (apply topic) s = .ok s') :
    s'.path = s.path.or ((words ts).head?.map String.toList) := by
  induction ts generalizing s with
  | nil =>
    cases h
    exact Option.or_none.symm
  | cons t ts ih =>
    rw [List.foldlM_cons] at h
    cases happly : s.apply topic t with
    | error e =>
      rw [happly] at h
      cases h
    | ok mid =>
      rw [happly] at h
      have hwords : words (t :: ts) = words [t] ++ words ts := by
        rw [words, words, words, ← List.filterMap_append, List.singleton_append]
      rw [ih h, path_apply happly, hwords, List.head?_append, Option.map_or, Option.or_assoc]

end Settings

/-- What a command line that is understood consists of. -/
lemma exists_settings_of_parse {arguments : List String} {i : Invocation}
    (h : parse arguments = .ok i) :
    ∃ before name rest topic general own,
      splitCommand Flag.general none arguments = (before, some (name, rest)) ∧
      Topic.ofName? name = some topic ∧ Settings.ofTokens none before = .ok general ∧
      Settings.ofTokens (some topic) (tokens (Flag.ofTopic topic) none rest) = .ok own ∧
      actionOf topic own = .ok i.action := by
  rw [parse] at h
  generalize splitCommand Flag.general none arguments = parted at h ⊢
  obtain ⟨before, command⟩ := parted
  dsimp only at h
  cases hgeneral : Settings.ofTokens none before with
  | error refusal =>
    rw [hgeneral] at h
    cases h
  | ok general =>
    rw [hgeneral] at h
    cases command with
    | none => cases h
    | some command =>
      obtain ⟨name, rest⟩ := command
      dsimp only [bind, Except.bind] at h
      cases htopic : Topic.ofName? name with
      | none =>
        rw [htopic] at h
        cases h
      | some topic =>
        rw [htopic] at h
        refine ⟨before, name, rest, topic, general, ?_⟩
        cases hown : Settings.ofTokens (some topic) (tokens (Flag.ofTopic topic) none rest) with
        | error refusal => cases topic <;> simp [hown] at h
        | ok own =>
          refine ⟨own, rfl, htopic, hgeneral, rfl, ?_⟩
          cases topic with
          | help => cases h
          | check | listRules | init =>
            dsimp only at h
            rw [hown] at h
            cases h
            rfl

/-- What is checked is the word behind the command, or the dot. -/
lemma path_of_parse {arguments : List String} {i : Invocation} {o : CheckOptions}
    (h : parse arguments = .ok i) (haction : i.action = .check o) :
    o.path = ((wordsBehind arguments).head?.map String.toList).getD ['.'] := by
  obtain ⟨before, name, rest, topic, general, own, hparted, -, -, hown, hchosen⟩ :=
    exists_settings_of_parse h
  rw [haction] at hchosen
  cases topic with
  | check =>
    have hpath : own.path = (wordsBehind arguments).head?.map String.toList := by
      rw [wordsBehind, hparted]
      exact Settings.path_foldlM hown
    cases hchosen
    rw [hpath]
  | listRules | init | help => cases hchosen

/-! ## The report without a path -/

/-- The report of the analyzer that is built from a configuration alone. -/
def configuredReport (fs : FileSystem) (o : CheckOptions) (config : Config) :
    Except Failure Report :=
  match Analyzer.build fs.workingDirectory none (chosenRules config o.rules) o.exclude config
    false with
  | .error e => .error (analysisFailure "Failed to build analyzer" e)
  | .ok a => (a.analyze fs).result.mapError (analysisFailure "Analysis failed")

/-- A path that is given is as good as a configured root. -/
lemma reportWith_eq_configuredReport (fs : FileSystem) {o : CheckOptions} (config : Config)
    {root : String} (hpath : o.path = root.toList) :
    reportWith fs o.path o.exclude config (chosenRules config o.rules)
      = configuredReport fs o (config.withRoot root) := by
  have hrules : chosenRules (config.withRoot root) o.rules = chosenRules config o.rules := by
    cases o.rules <;> rfl
  rw [reportWith, configuredReport, hrules, Analyzer.build_withRoot, hpath]
  cases Analyzer.build fs.workingDirectory (some root.toList) (chosenRules config o.rules) o.exclude
    config false with
  | error e => rfl
  | ok a =>
    change _ = ((a.withConfiguredRoot root).analyze fs).result.mapError _
    rw [Analyzer.analyze_withConfiguredRoot]

/-- The dot never leads to a file. -/
lemma projectFolder_dot (fs : FileSystem) : projectFolder fs ['.'] = ['.'] := by
  have hfile : fs.isFile ['.'] = false := by
    refine Bool.eq_false_iff.2 fun hfile => ?_
    obtain ⟨bytes, hget⟩ := FileSystem.exists_get_of_isFile hfile
    cases (FileSystem.lastPart_of_get hget).1
  rw [projectFolder, hfile]
  rfl

/-- **Without a path the report is that of the dot, whatever root is configured.**  A command line
with no word behind the command finds its configuration in the working directory and prints the
report of the analyzer that is built from the configuration with the dot for its root.  If this is
the configured root, it is the report that the configuration asks for. -/
theorem run_without_path (s : Surroundings) {arguments : List String} {i : Invocation}
    {o : CheckOptions} {config : Config} (hparse : parse arguments = .ok i)
    (haction : i.action = .check o) (hwords : wordsBehind arguments = [])
    (hconfig : (findConfig s ['.'] i.config).load s.files = .ok config) :
    let outcome := (run s arguments).1
    (match configuredReport s.files o (config.withRoot ".") with
      | .ok report =>
        outcome.failure = none ∧ outcome.status = statusOf config report ∧
          outcome.output = report.render (sourceOf s.files ['.']) o.format
      | .error failure =>
        outcome.failure = some failure ∧ outcome.status = 1 ∧ outcome.output = "") ∧
      (config.analyzer.root = "." →
        configuredReport s.files o (config.withRoot ".") = configuredReport s.files o config) := by
  intro outcome
  have hpath : o.path = ['.'] := by
    rw [path_of_parse hparse haction, hwords]
    rfl
  have hdot : o.path = ".".toList := hpath
  have houtcome : outcome = check s i.config o := run_check hparse haction s
  have hfolder : projectFolder s.files o.path = ['.'] := by rw [hpath, projectFolder_dot]
  have hreport : checkReport s i.config o
      = (configuredReport s.files o (config.withRoot ".")).map (Prod.mk config) := by
    rw [checkReport, hfolder, hconfig]
    dsimp only
    rw [reportWith_eq_configuredReport s.files config hdot]
  refine ⟨?_, fun hroot => ?_⟩
  · have hcheck := check_eq s i.config o
    rw [hreport, hfolder] at hcheck
    rw [houtcome]
    cases hconfigured : configuredReport s.files o (config.withRoot ".") with
    | error failure =>
      rw [hconfigured] at hcheck
      exact hcheck
    | ok report =>
      rw [hconfigured] at hcheck
      exact hcheck
  · rw [Config.withRoot, ← hroot]

/-- The lines that are printed for a report in the format `flake8`. -/
def flake8Lines (r : Except Failure Report) : Option (List String) :=
  r.toOption.map fun report => report.violations.map fun v => v.flake8 ++ "\n"

/-- A configuration, a folder that holds nothing and one that holds a view open to everybody. -/
def twoFolders (configuration : String) : Surroundings :=
  let view := "class V: permission_classes = []".toList
  { files := { top := .folder [
    ("drf-lint.toml".toList, .file (Utf8.encode configuration.toList)),
    ("api".toList, .folder []),
    ("other".toList, .folder [("views.py".toList, .file (Utf8.encode view))])] } }

set_option maxRecDepth 100000 in
/-- With the default root both folders are checked. -/
theorem run_without_path_default :
    let s := twoFolders "[analyzer]\nexclude = []\n"
    (run s ["check", "--format", "flake8"]).1.output
      = "other/views.py:1:10: " ++ Permission.message ++ "\n" := by
  intro s
  have hsome : ((findConfig s ['.'] none).load s.files).toOption.any (fun config =>
      flake8Lines (configuredReport s.files { format := .flake8 } (config.withRoot "."))
        = some ["other/views.py:1:10: " ++ Permission.message ++ "\n"]) = true := by
    decide +kernel
  cases hconfig : (findConfig s ['.'] none).load s.files with
  | error failure =>
    rw [hconfig] at hsome
    cases hsome
  | ok config =>
    rw [hconfig] at hsome
    have hlines := of_decide_eq_true hsome
    have hparse : parse ["check", "--format", "flake8"]
        = .ok { action := .check { format := .flake8 } } := rfl
    obtain ⟨houtcome, -⟩ := run_without_path s hparse rfl rfl hconfig
    cases hreport : configuredReport s.files { format := .flake8 } (config.withRoot ".") with
    | error failure =>
      rw [hreport] at hlines
      cases hlines
    | ok report =>
      rw [hreport] at hlines houtcome
      refine houtcome.2.2.trans ?_
      exact congrArg String.join (Option.some.inj hlines)

set_option maxRecDepth 100000 in
/-- The configuration asks for the folder that holds nothing, and the view in the other one is
reported. -/
theorem run_without_path_elsewhere :
    let s := twoFolders "[analyzer]\nroot = \"api\"\nexclude = []\n"
    ((findConfig s ['.'] none).load s.files).toOption.any (fun config =>
        config.analyzer.root = "api" ∧
          flake8Lines (configuredReport s.files { format := .flake8 } config) = some []) = true ∧
      (run s ["check", "--format", "flake8"]).1.output
        = "other/views.py:1:10: " ++ Permission.message ++ "\n" := by
  intro s
  refine ⟨by decide +kernel, ?_⟩
  decide +kernel

end Command

end PermissionLint
