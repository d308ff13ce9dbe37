/-
Reports lead back to the files.

A violation is reported at the path of its file below the folder that the analyzer takes paths from.
The command line works this folder out on its own, from the path as it is written, and finds one
with the same components (`innerComponents_base`).  So a reported path that is joined to the folder
of the command line has the components of the file, and what is read there is the text that was
checked (`check_leadsBack`).
-/
import PermissionLint.Proofs.Command.Flake8
import PermissionLint.Proofs.Command.RuleList
import PermissionLint.Proofs.Walk.Contents

namespace PermissionLint

open PermissionLint.Text PermissionLint.Model

/-! ## The folder of the command line -/

lemma FileSystem.isFile_absolute {fs : FileSystem} (h : fs.workingDirectory.isAbsolute = true)
    (p : Path) : fs.isFile (fs.absolute p) = fs.isFile p := by
  rw [Bool.eq_iff_iff]
  constructor
  · intro hfile
    obtain ⟨bytes, hget⟩ := exists_get_of_isFile hfile
    have hvoid := (lastPart_of_get hget).1
    rw [absolute, Path.lastPart_join] at hvoid
    have hleads := leads_of_get hget
    rw [absolute_of_isAbsolute (isAbsolute_absolute h p)] at hleads
    exact isFile_of_get (hleads.get hvoid)
  · intro hfile
    obtain ⟨bytes, hget⟩ := exists_get_of_isFile hfile
    exact isFile_of_get (get_absolute h hget)

/-- If the root is a file, paths are reported from the folder that it is in. -/
lemma Analyzer.base_of_file {a : Analyzer} {fs : FileSystem} {bytes : Contents}
    (hget : fs.get a.root = .ok (.file bytes)) :
    (a.base fs).isAbsolute = a.root.isAbsolute ∧
      a.root.innerComponents = (a.base fs).innerComponents ++ [.normal a.root.lastPart] := by
  obtain ⟨hvoid, hdots⟩ := FileSystem.lastPart_of_get hget
  obtain ⟨d, hd, habsolute, hinner⟩ := Path.exists_directory? hvoid hdots
  rw [base, FileSystem.isFile_of_get hget, if_pos rfl, hd]
  exact ⟨habsolute, hinner⟩

namespace Command

variable {fs : FileSystem} {path : Path}

/-- The folder of a file has all components of the file but the last one. -/
lemma innerComponents_projectFolder (h : fs.workingDirectory.isAbsolute = true)
    (hfile : fs.isFile path = true) :
    (fs.absolute path).innerComponents
      = (fs.absolute (projectFolder fs path)).innerComponents ++ [.normal path.lastPart] := by
  obtain ⟨bytes, hget⟩ := FileSystem.exists_get_of_isFile hfile
  obtain ⟨hvoid, hdots⟩ := FileSystem.lastPart_of_get hget
  obtain ⟨d, hd, habsolute, hinner⟩ := Path.exists_directory? hvoid hdots
  -- a dot stands for a folder that is not written
  have hproject : projectFolder fs path = if d.isEmpty then ['.'] else d := by
    rw [projectFolder, hfile, if_pos rfl, hd]
  have hsame : (projectFolder fs path).isAbsolute = path.isAbsolute ∧
      (projectFolder fs path).innerComponents = d.innerComponents := by
    rw [hproject, ← habsolute]
    cases d with
    | nil => exact ⟨rfl, rfl⟩
    | cons c cs => exact ⟨rfl, rfl⟩
  obtain ⟨hbegins, hfolder⟩ := hsame
  cases hpath : path.isAbsolute with
  | true =>
    rw [hpath] at hbegins
    rw [FileSystem.absolute_of_isAbsolute hpath, FileSystem.absolute_of_isAbsolute hbegins,
      hfolder, hinner]
  | false =>
    rw [hpath] at hbegins
    rw [FileSystem.absolute, FileSystem.absolute, Path.innerComponents_join h hpath,
      Path.innerComponents_join h hbegins, hfolder, hinner, List.append_assoc]

/-- The folder of the command line has the components of the one that paths are reported from. -/
lemma innerComponents_base {a : Analyzer} (h : fs.workingDirectory.isAbsolute = true)
    (hroot : a.root = fs.absolute path) :
    (a.base fs).isAbsolute = true ∧
      (a.base fs).innerComponents = (fs.absolute (projectFolder fs path)).innerComponents := by
  have habsolute : a.root.isAbsolute = true := by
    rw [hroot]
    exact FileSystem.isAbsolute_absolute h path
  cases hfile : fs.isFile path with
  | false =>
    have hbase : a.base fs = a.root := by
      rw [Analyzer.base, hroot, FileSystem.isFile_absolute h, hfile]
      rfl
    have hproject : projectFolder fs path = path := by
      rw [projectFolder, hfile]
      rfl
    rw [hbase, hproject, ← hroot]
    exact ⟨habsolute, rfl⟩
  | true =>
    have hfile' : fs.isFile a.root = true := by rw [hroot, FileSystem.isFile_absolute h, hfile]
    obtain ⟨bytes, hget⟩ := FileSystem.exists_get_of_isFile hfile'
    obtain ⟨hbegins, hinner⟩ := Analyzer.base_of_file hget
    have hlast : a.root.lastPart = path.lastPart := by
      rw [hroot]
      exact Path.lastPart_join _ _
    have hpath : a.root.innerComponents
        = (fs.absolute (projectFolder fs path)).innerComponents ++ [.normal path.lastPart] := by
      rw [hroot]
      exact innerComponents_projectFolder h hfile
    rw [hpath, hlast] at hinner
    exact ⟨hbegins.trans habsolute, (List.append_cancel_right hinner).symm⟩

/-! ## The files that are checked -/

/-- The file is where its path leads, and the path goes on from that of the folder. -/
structure IsBelow (fs : FileSystem) (folder : Path) (f : Found) : Prop where
  absolute : f.path.isAbsolute = true
  leads : fs.Leads f.path (.file f.bytes)
  below : ∃ ds, ds ≠ [] ∧ f.path.innerComponents = folder.innerComponents ++ ds

/-- The files that a run checks are below the folder that paths are reported from. -/
lemma isBelow_of_mem {a : Analyzer} {files : List Found} (hordinary : fs.top.IsOrdinary)
    (habsolute : a.root.isAbsolute = true) (hfiles : a.sourceFiles fs = .ok files) :
    ∀ f ∈ files, IsBelow fs (a.base fs) f := by
  rcases Analyzer.sourceFiles_cases hfiles with
    ⟨bytes, hget, rfl⟩ | ⟨entries, found, hget, hfound, rfl⟩
  · intro f hf
    obtain rfl := List.mem_singleton.1 hf
    have hleads := FileSystem.leads_of_get hget
    rw [FileSystem.absolute_of_isAbsolute habsolute] at hleads
    exact ⟨habsolute, hleads, [.normal a.root.lastPart], by simp, (Analyzer.base_of_file hget).2⟩
  · intro f hf
    rw [Analyzer.base_of_folder hget]
    have hf : f ∈ found := List.mem_of_mem_filter (List.mem_mergeSort.1 hf)
    obtain ⟨habsolute', hleads⟩ := leads_walk hordinary habsolute hfound f hf
    obtain ⟨ds, hds⟩ := (components_walk hordinary.toIsProper hfound).2 f hf
    rw [Path.components_of_isAbsolute habsolute, Path.components_of_isAbsolute habsolute',
      List.cons_append, List.cons.injEq] at hds
    refine ⟨habsolute', hleads, ds, ?_, hds.2.symm⟩
    -- the root is a folder, so the path of a file cannot end there
    rintro rfl
    have hroot := FileSystem.leads_of_get hget
    rw [FileSystem.absolute_of_isAbsolute habsolute] at hroot
    rw [List.append_nil] at hds
    cases (hroot.congr hds.2).unique hleads

/-- The path of such a file below the folder. -/
lemma IsBelow.pathBelow {folder : Path} {f : Found} (h : IsBelow fs folder f)
    (habsolute : folder.isAbsolute = true) :
    (Analyzer.pathBelow folder f).LeadsBelow ∧
      f.path.innerComponents
        = folder.innerComponents ++ (Analyzer.pathBelow folder f).components := by
  obtain ⟨ds, hne, hds⟩ := h.below
  obtain ⟨q, hq, hcomponents, hbegins, hends⟩ :=
    Path.exists_stripPrefix?_of_isAbsolute h.absolute habsolute hds
  have hnil : q ≠ [] := by
    rintro rfl
    exact hne hcomponents.symm
  rw [Analyzer.pathBelow, hq, Option.getD_some, hcomponents]
  exact ⟨⟨hbegins.resolve_left hnil, hends.resolve_left hnil⟩, hds⟩

/-! ## Reported paths -/

/-- The reported path of a violation leads back to the file. -/
structure LeadsBack (fs : FileSystem) (path : Path) (f : Found) (v : Violation) : Prop where
  /-- Joined to the working directory and the folder of the path, it is the path of the file. -/
  components : ((fs.workingDirectory.join (projectFolder fs path)).join
    v.location.file.toList).components = f.path.components
  relative : Path.isAbsolute v.location.file.toList = false
  /-- It does not begin with a dot of its own. -/
  undotted : Path.beginsCurrent v.location.file.toList = false
  /-- What is shown of the file is the text that was checked. -/
  source : ∃ text m, Analyzer.readFile f = .ok (text, m) ∧
    sourceOf fs (projectFolder fs path) v.location.file = some text

lemma exists_readFile_of_mem {c : Config} {base : Path} {f : Found} {r : Rule} {v : Violation}
    (hv : v ∈ Analyzer.ruleViolations c base f r) :
    ∃ text m, Analyzer.readFile f = .ok (text, m) := by
  rw [Analyzer.ruleViolations] at hv
  split at hv
  · next text m hread => exact ⟨text, m, hread⟩
  · exact absurd hv List.not_mem_nil

lemma sourceOf_of_get {folder : Path} {file : String} {f : Found} {text : List Char} {m : Module}
    (hget : fs.get (folder.join file.toList) = .ok (.file f.bytes))
    (hread : Analyzer.readFile f = .ok (text, m)) : sourceOf fs folder file = some text := by
  obtain ⟨bytes, hbytes, hmodule⟩ := Analyzer.readFile_eq_ok_iff.1 hread
  rw [Analyzer.readModule] at hmodule
  rw [sourceOf, FileSystem.readText, FileSystem.read_of_get hget, hbytes]
  dsimp only
  split at hmodule
  · cases hmodule
  · next text' hdecode =>
    rw [hdecode]
    split at hmodule
    · cases hmodule
    · cases hmodule
      rfl

lemma leadsBack_of_mem {a : Analyzer} {f : Found} {o : Permission.Options} {c : Config}
    {v : Violation} (h : fs.workingDirectory.isAbsolute = true) (hroot : a.root = fs.absolute path)
    (hf : IsBelow fs (a.base fs) f)
    (hv : v ∈ Analyzer.ruleViolations c (a.base fs) f (Permission.rule o)) :
    LeadsBack fs path f v := by
  obtain ⟨habsolute, hbase⟩ := innerComponents_base h hroot
  obtain ⟨hbelow, hpath⟩ := hf.pathBelow habsolute
  rw [← Analyzer.file_of_mem_ruleViolations hv] at hbelow hpath
  have hfolder := FileSystem.isAbsolute_absolute h (projectFolder fs path)
  have hinner : f.path.innerComponents
      = ((fs.absolute (projectFolder fs path)).join v.location.file.toList).innerComponents := by
    rw [hpath, hbase, Path.innerComponents_join hfolder hbelow.isAbsolute,
      Path.components_of_beginsFirm (.inr hbelow.begins)]
  refine ⟨?_, hbelow.isAbsolute, ?_, ?_⟩
  · change ((fs.absolute (projectFolder fs path)).join v.location.file.toList).components = _
    rw [Path.components_of_isAbsolute (Path.isAbsolute_join hfolder _),
      Path.components_of_isAbsolute hf.absolute, hinner]
  · have hbegins := hbelow.begins
    rw [Path.isVoid, Bool.or_eq_false_iff] at hbegins
    exact hbegins.2
  · obtain ⟨text, m, hread⟩ := exists_readFile_of_mem hv
    have hleads := hf.leads.congr hinner
    rw [FileSystem.absolute, Path.join_assoc _ _ hbelow.isAbsolute] at hleads
    have hend : Path.isVoid
        ((projectFolder fs path).join v.location.file.toList).lastPart = false := by
      rw [Path.lastPart_join]
      exact hbelow.ends
    exact ⟨text, m, hread, sourceOf_of_get (hleads.get hend) hread⟩

/-- Every rule that is chosen is the one for permissions. -/
lemma eq_of_mem_chosenRules {config : Config} {list : Option String} {r : Rule}
    (hr : r ∈ chosenRules config list) : r = Permission.rule (.ofConfig config) := by
  cases list with
  | none => exact List.mem_singleton.1 hr
  | some list =>
    rw [chosenRules, listedRules_eq] at hr
    exact List.eq_of_mem_replicate hr

/-- **Reported paths lead back to the files that were checked.**  The report on these is printed if
their bytes can be read.  Whatever path is checked, a violation in a file is reported at a path that
does not begin at the root or with a dot of its own.  Joined to the working directory and the folder
of the command line it has the components of the path of the file, and what is read there to be
shown is the text that was checked. -/
theorem check_leadsBack {s : Surroundings} {named : Option Path} {o : CheckOptions}
    {config : Config} {a : Analyzer} {files : List Found}
    (hfolder : s.files.workingDirectory.isAbsolute = true) (hordinary : s.files.top.IsOrdinary)
    (hconfig : (findConfig s (projectFolder s.files o.path) named).load s.files = .ok config)
    (hbuild : Analyzer.build s.files.workingDirectory (some o.path) (chosenRules config o.rules)
      o.exclude config false = .ok a)
    (hfiles : a.sourceFiles s.files = .ok files) :
    ((∀ f ∈ files, Analyzer.IsAccessible f) →
        (check s named o).output = (a.reportOn (a.base s.files) files).render
          (sourceOf s.files (projectFolder s.files o.path)) o.format) ∧
      ∀ f ∈ files, ∀ r ∈ a.rules, ∀ v ∈ Analyzer.ruleViolations a.config (a.base s.files) f r,
        LeadsBack s.files o.path f v := by
  have hanalyzer : a.root = s.files.absolute o.path ∧ a.rules = chosenRules config o.rules ∧
      a.strict = false := by
    rw [Analyzer.build] at hbuild
    split at hbuild
    · cases hbuild
    · cases hbuild
      exact ⟨rfl, rfl, rfl⟩
  obtain ⟨hroot, hrules, hlenient⟩ := hanalyzer
  constructor
  · intro haccess
    have hreport : checkReport s named o
        = .ok (config, a.reportOn (a.base s.files) files) := by
      rw [checkReport, hconfig]
      dsimp only [reportWith]
      rw [hbuild]
      dsimp only
      rw [Analyzer.result_analyze,
        Analyzer.reportedFiles_of_lenient hlenient haccess hfiles]
      rfl
    have hcheck := check_eq s named o
    rw [hreport] at hcheck
    exact hcheck.2.2
  · intro f hf r hr v hv
    have habsolute : a.root.isAbsolute = true := by
      rw [hroot]
      exact FileSystem.isAbsolute_absolute hfolder o.path
    rw [hrules] at hr
    rw [eq_of_mem_chosenRules hr] at hv
    exact leadsBack_of_mem hfolder hroot (isBelow_of_mem hordinary habsolute hfiles f hf) hv

/-- A working directory with another folder beside it, which holds a file. -/
def besides : FileSystem where
  top := .folder [("w".toList, .folder [("app".toList, .folder []), ("api".toList, .folder
    [("v.py".toList, .file (Utf8.encode "class V: permission_classes = []".toList))])])]
  workingDirectory := "/w/app".toList

/-- A file that is named by a path with two dots, a single one and repeated separators. -/
theorem check_leadsBack_dotted :
    let path : Path := "..//./api/v.py".toList
    let f : Found := ⟨"/w/app/..//./api/v.py".toList,
      Utf8.encode "class V: permission_classes = []".toList⟩
    ∃ v : Violation, v.location.file = "v.py" ∧ LeadsBack besides path f v := by
  intro path f
  obtain ⟨excludes, hbuild⟩ := exists_build besides.workingDirectory path (Rule.ofConfig {})
  have hjoin : besides.workingDirectory.join path = f.path := by decide +kernel
  rw [hjoin] at hbuild
  have hget : besides.get f.path = .ok (.file f.bytes) := rfl
  have hdirectory : f.path.directory? = some "/w/app/..//./api".toList := by decide +kernel
  let a : Analyzer := ⟨f.path, Rule.ofConfig {}, excludes, {}, false⟩
  have hfiles : a.sourceFiles besides = .ok [f] := by
    rw [Analyzer.sourceFiles, Analyzer.rootFile?_of_file hget]
  have hbase : a.base besides = "/w/app/..//./api".toList := by
    rw [Analyzer.base, FileSystem.isFile_of_get hget, if_pos rfl, hdirectory]
    rfl
  have hnames : (Analyzer.ruleViolations {} "/w/app/..//./api".toList f
      (Permission.rule (.ofConfig {}))).map (·.location.file) = ["v.py"] := by
    decide +kernel
  obtain ⟨v, hv, hname⟩ := List.mem_map.1 (hnames ▸ List.mem_singleton_self "v.py")
  rw [← hbase] at hv
  have hordinary : besides.top.IsOrdinary :=
    ⟨⟨by decide +kernel, by decide +kernel⟩, by decide +kernel⟩
  have hsource : findConfig ⟨besides, none⟩ (projectFolder besides path) none = .builtIn := by
    decide +kernel
  have hconfig : (findConfig ⟨besides, none⟩ (projectFolder besides path) none).load besides
      = .ok {} := by
    rw [hsource]
    rfl
  obtain ⟨-, hback⟩ := @check_leadsBack ⟨besides, none⟩ none { path } {} a [f] rfl hordinary hconfig
    hbuild hfiles
  have hrule : Permission.rule (.ofConfig {}) ∈ a.rules := List.mem_singleton_self _
  exact ⟨v, hname, hback f (List.mem_singleton_self f) _ hrule v hv⟩

end Command

end PermissionLint
