/-
Strict runs and lenient ones.

A strict run ends with the first file that has a fault: it is not text, or not well formed.  As the
files are in the order of their paths, that is the least of all files with a fault, in whatever order
they were found.  If there is none, then a strict run reports what a lenient one does, and a lenient
run reports the same after files with faults have been deleted (`strict_and_lenient`).
-/
import PermissionLint.Proofs.Analyzer.Result
import PermissionLint.Proofs.Walk.Deletion

namespace PermissionLint.Analyzer

open PermissionLint.Text PermissionLint.Syntax PermissionLint.Model PermissionLint.Ignore

/-! ## Faults -/

/-- The bytes can be read, they are text, and the text is well formed. -/
def IsWellFormed (contents : Contents) : Prop :=
  ∃ bytes text m, contents = .ok bytes ∧ Utf8.decode bytes = .ok text ∧
    Module.parse (String.ofList text) = .ok m

/-- What is wrong with bytes that are not text, or else with their text. -/
inductive HasFault : Contents → FileFault → Prop where
  | notText {bytes : List UInt8} {e : Utf8.DecodeError} (h : Utf8.decode bytes = .error e) :
    HasFault bytes (.notText e)
  | malformed {bytes : List UInt8} {text : List Char} {e : SyntaxError}
    (htext : Utf8.decode bytes = .ok text) (h : Module.parse (String.ofList text) = .error e) :
    HasFault bytes (.malformed e)

variable {f : Found} {contents : Contents}

lemma readModule_cases (bytes : List UInt8) :
    (∃ read, readModule bytes = .ok read ∧ IsWellFormed bytes) ∨
      ∃ fault, readModule bytes = .error fault ∧ HasFault bytes fault := by
  rw [readModule]
  cases hdecode : Utf8.decode bytes with
  | error e => exact .inr ⟨_, rfl, .notText hdecode⟩
  | ok text =>
    dsimp only
    cases hparse : Module.parse (String.ofList text) with
    | error e => exact .inr ⟨_, rfl, .malformed hdecode hparse⟩
    | ok m => exact .inl ⟨_, rfl, bytes, text, m, rfl, hdecode, hparse⟩

lemma HasFault.not_isWellFormed {fault : FileFault} (h : HasFault contents fault) :
    ¬IsWellFormed contents := by
  rintro ⟨bytes, text, m, rfl, htext, hm⟩
  cases h with
  | notText h => cases h.symm.trans htext
  | malformed htext' h =>
    cases htext'.symm.trans htext
    cases h.symm.trans hm

/-- What reading a file gives: a module, its fault, or the reason that it cannot be read. -/
lemma readFile_cases (f : Found) :
    (∃ read, readFile f = .ok read ∧ IsWellFormed f.bytes) ∨
      (∃ fault, readFile f = .error (.file f.path fault) ∧ HasFault f.bytes fault) ∨
      ∃ reason, readFile f = .error (.walk (.unreadable reason)) ∧ f.bytes = .error reason := by
  rw [readFile]
  cases f.bytes with
  | error reason => exact .inr (.inr ⟨reason, rfl, rfl⟩)
  | ok bytes =>
    dsimp only
    rcases readModule_cases bytes with ⟨read, hread, hwell⟩ | ⟨fault, hread, hfault⟩
    · rw [hread]
      exact .inl ⟨read, rfl, hwell⟩
    · rw [hread]
      exact .inr (.inl ⟨fault, rfl, hfault⟩)

lemma not_isWellFormed_of_error {reason : AccessError} (h : contents = .error reason) :
    ¬IsWellFormed contents := by
  rintro ⟨bytes, text, m, hbytes, -⟩
  cases hbytes.symm.trans h

lemma isReadable_iff_isWellFormed : isReadable f = true ↔ IsWellFormed f.bytes := by
  rw [isReadable]
  rcases readFile_cases f with ⟨read, hread, hwell⟩ | ⟨fault, hread, hfault⟩ | ⟨reason, hread, herror⟩
  · simp [hread, hwell, Except.isOk, Except.toBool]
  · simp [hread, hfault.not_isWellFormed, Except.isOk, Except.toBool]
  · simp [hread, not_isWellFormed_of_error herror, Except.isOk, Except.toBool]

/-! ## The least fault -/

variable {a : Analyzer} {fs : FileSystem} {files : List Found}

lemma fault?_of_isWellFormed (h : IsWellFormed f.bytes) : a.fault? f = none := by
  rw [fault?]
  rcases readFile_cases f with ⟨read, hread, -⟩ | ⟨fault, hread, hfault⟩ | ⟨reason, hread, herror⟩
  · rw [hread]
  · exact absurd h hfault.not_isWellFormed
  · exact absurd h (not_isWellFormed_of_error herror)

lemma isWellFormed_of_fault? (hstrict : a.strict = true) (h : a.fault? f = none) :
    IsWellFormed f.bytes := by
  rw [fault?, hstrict] at h
  rcases readFile_cases f with ⟨read, -, hwell⟩ | ⟨fault, hread, -⟩ | ⟨reason, hread, -⟩
  · exact hwell
  · rw [hread] at h
    cases h
  · rw [hread] at h
    cases h

lemma exists_hasFault (haccess : IsAccessible f) {e : AnalysisError} (h : a.fault? f = some e) :
    ∃ fault, e = .file f.path fault ∧ HasFault f.bytes fault := by
  rw [fault?] at h
  rcases readFile_cases f with ⟨read, hread, -⟩ | ⟨fault, hread, hfault⟩ | ⟨reason, -, herror⟩
  · rw [hread] at h
    cases h
  · rw [hread] at h
    dsimp only at h
    split at h
    · exact ⟨fault, (Option.some.inj h).symm, hfault⟩
    · cases h
  · obtain ⟨bytes, hbytes⟩ := haccess
    cases hbytes.symm.trans herror

/-- The files of a run are in strict order. -/
lemma sourceFiles_sorted (hproper : fs.top.IsProper) (hfiles : a.sourceFiles fs = .ok files) :
    files.Pairwise fun f g => Path.compare f.path g.path = .lt := by
  rcases sourceFiles_cases hfiles with ⟨bytes, -, rfl⟩ | ⟨entries, found, -, hfound, rfl⟩
  · exact List.pairwise_singleton _ _
  · exact select_sorted (walksBelow_of_discover hproper hfound)

/-- A strict run accepts files that are all well formed. -/
lemma accept_of_isWellFormed (h : ∀ f ∈ files, IsWellFormed f.bytes) :
    a.accept files = .ok files :=
  accept_eq_ok_iff.2 ⟨rfl, fun f hf => fault?_of_isWellFormed (h f hf)⟩

/-- Otherwise it ends with the least file that is not. -/
lemma exists_least_fault (hstrict : a.strict = true)
    (hsorted : files.Pairwise fun f g => Path.compare f.path g.path = .lt)
    (haccess : ∀ f ∈ files, IsAccessible f) (h : ∃ g ∈ files, ¬IsWellFormed g.bytes) :
    ∃ f ∈ files, ∃ fault, HasFault f.bytes fault ∧
      a.accept files = .error (.file f.path fault) ∧
      ∀ g ∈ files, ¬IsWellFormed g.bytes → g = f ∨ Path.compare f.path g.path = .lt := by
  cases hfirst : files.findSome? a.fault? with
  | none =>
    obtain ⟨g, hg, hill⟩ := h
    have hnone := List.findSome?_eq_none_iff.1 hfirst g hg
    exact absurd (isWellFormed_of_fault? hstrict hnone) hill
  | some e =>
    obtain ⟨before, f, after, rfl, hf, hbefore⟩ := List.findSome?_eq_some_iff.1 hfirst
    obtain ⟨fault, rfl, hfault⟩ := exists_hasFault (haccess f (by simp)) hf
    refine ⟨f, by simp, fault, hfault, ?_, fun g hg hill => ?_⟩
    · rw [accept, hfirst]
    · -- all files before the first fault are well formed
      rcases List.mem_append.1 hg with hg | hg
      · exact absurd (isWellFormed_of_fault? hstrict (hbefore g hg)) hill
      · rcases List.mem_cons.1 hg with rfl | hg
        · exact .inl rfl
        · have hafter := (List.pairwise_append.1 hsorted).2.1
          exact .inr ((List.pairwise_cons.1 hafter).1 g hg)

/-! ## Deleting files with faults -/

/-- Only sources are gone, and only if they have a fault. -/
def DeletesFaulty (gone : List Name → Contents → Bool) : Prop :=
  ∀ names contents, gone names contents = true →
    (∃ folder name, names = folder ++ [name] ∧ isSource name = true) ∧
      ∃ fault, HasFault contents fault

/-- The bytes are not text, or the text is not well formed. -/
def isFaulty : Contents → Bool
  | .ok bytes => !(readModule bytes).isOk
  | .error _ => false

/-- Every source is gone that has a fault. -/
def faulty (names : List Name) (contents : Contents) : Bool :=
  names.getLast?.any isSource && isFaulty contents

variable {gone : List Name → Contents → Bool}

lemma isFaulty_iff : isFaulty contents = true ↔ ∃ fault, HasFault contents fault := by
  cases contents with
  | error reason =>
    constructor
    · intro h
      cases h
    · rintro ⟨fault, ⟨⟩⟩
  | ok bytes =>
    rw [isFaulty]
    rcases readModule_cases bytes with ⟨read, hread, hwell⟩ | ⟨fault, hread, hfault⟩
    · rw [hread]
      constructor
      · intro h
        cases h
      · rintro ⟨fault, hfault⟩
        exact absurd hwell hfault.not_isWellFormed
    · rw [hread]
      exact ⟨fun _ => ⟨fault, hfault⟩, fun _ => rfl⟩

lemma deletesFaulty_faulty : DeletesFaulty faulty := by
  intro names contents hgone
  rw [faulty, Bool.and_eq_true] at hgone
  obtain ⟨hsource, hill⟩ := hgone
  refine ⟨?_, isFaulty_iff.1 hill⟩
  rcases List.eq_nil_or_concat names with rfl | ⟨folder, name, rfl⟩
  · cases hsource
  · rw [List.concat_eq_append] at hsource ⊢
    rw [List.getLast?_concat] at hsource
    exact ⟨folder, name, rfl, hsource⟩

lemma isSource_of_mem_names : ∀ s : Source, ∀ name ∈ s.names, isSource name = false := by
  intro s
  cases s <;> decide +kernel

/-- Ignore files are no sources. -/
lemma DeletesFaulty.spares (h : DeletesFaulty gone) : Spares gone := by
  intro s name hname here bytes
  refine Bool.eq_false_iff.2 fun hgone => ?_
  obtain ⟨⟨folder, last, hnames, hsource⟩, -⟩ := h _ _ hgone
  obtain rfl : name = last := by simpa using (List.append_inj' hnames rfl).2
  rw [isSource_of_mem_names s name hname] at hsource
  cases hsource

lemma select_filter (p : Found → Bool) (found : List Found) :
    (a.select found).filter p = a.select (found.filter p) := by
  have hsort := (isOrder_comparePaths.isStableSort_mergeSort
    (found.filter fun f => isSource f.path && !a.isExcluded f.path)).filter p
  rw [select, select, List.filter_comm]
  exact hsort.eq_mergeSort isOrder_comparePaths

/-- The files without faults are still there, unless the root itself is gone. -/
lemma sourceFiles_without (h : DeletesFaulty gone)
    (hroot : ∀ bytes, fs.read a.root = .ok bytes → IsWellFormed bytes)
    (hfiles : a.sourceFiles fs = .ok files) :
    ∃ files', a.sourceFiles (fs.without gone) = .ok files' ∧
      files'.filter (!isFaulty ·.bytes) = files.filter (!isFaulty ·.bytes) ∧
      a.base (fs.without gone) = a.base fs := by
  rcases sourceFiles_cases hfiles with ⟨contents, hget, rfl⟩ | ⟨entries, found, hget, hfound, rfl⟩
  · obtain ⟨names, hresolve, hat⟩ := FileSystem.get_eq_ok_iff.1 hget
    have hkept : FileTree.isGone gone names (.file contents) = false := by
      refine Bool.eq_false_iff.2 fun hgone => ?_
      obtain ⟨-, fault, hfault⟩ := h names contents hgone
      have hwell : IsWellFormed contents := by
        cases contents with
        | error reason => cases hfault
        | ok bytes => exact hroot bytes (FileSystem.read_of_get hget)
      exact hfault.not_isWellFormed hwell
    have hget' : (fs.without gone).get a.root = .ok (.file contents) :=
      FileSystem.get_without hresolve hat hkept
    refine ⟨[⟨a.root, contents⟩], ?_, rfl, ?_⟩
    · rw [sourceFiles, rootFile?_of_file hget']
    · rw [base, base, FileSystem.isFile_of_get hget, FileSystem.isFile_of_get hget']
  · have hfaultless : Misses gone (!isFaulty ·.bytes) := fun here name contents path hgone => by
      have hfaulty : isFaulty contents = true := isFaulty_iff.2 (h _ contents hgone).2
      simp [hfaulty]
    obtain ⟨found', hfound', hfilter⟩ := filter_walk_without h.spares hfaultless hget hfound
    obtain ⟨names, hresolve, hat⟩ := FileSystem.get_eq_ok_iff.1 hget
    have hget' := @FileSystem.get_without fs gone _ _ _ hresolve hat rfl
    refine ⟨a.select found', ?_, ?_, ?_⟩
    · rw [sourceFiles, rootFile?_of_folder hget']
      exact congrArg (Except.map a.select) hfound'
    · rw [select_filter, select_filter, hfilter]
    · rw [base_of_folder hget, base_of_folder hget']

/-- Files with faults do not matter to a lenient run. -/
lemma map_accept_filter (hstrict : a.strict = false) (base : Path) (files : List Found) :
    (a.accept (files.filter (!isFaulty ·.bytes))).map (a.reportOn base)
      = (a.accept files).map (a.reportOn base) := by
  have hfault : ∀ f : Found, isFaulty f.bytes = true → a.fault? f = none := by
    intro f hfaulty
    obtain ⟨fault, hfault⟩ := isFaulty_iff.1 hfaulty
    cases hbytes : f.bytes with
    | error reason => rw [hbytes] at hfault; cases hfault
    | ok bytes => exact fault?_of_isAccessible hstrict ⟨bytes, hbytes⟩
  have hfirst : (files.filter (!isFaulty ·.bytes)).findSome? a.fault?
      = files.findSome? a.fault? := by
    induction files with
    | nil => rfl
    | cons f files ih =>
      cases hfaulty : isFaulty f.bytes with
      | true =>
        rw [List.filter_cons_of_neg (by simp [hfaulty]), List.findSome?_cons, hfault f hfaulty, ih]
      | false =>
        rw [List.filter_cons_of_pos (by simp [hfaulty]), List.findSome?_cons, List.findSome?_cons,
          ih]
  have hreport : a.reportOn base (files.filter (!isFaulty ·.bytes)) = a.reportOn base files := by
    rw [← reportOn_filter, ← reportOn_filter base files, List.filter_filter]
    refine congrArg (a.reportOn base) (List.filter_congr fun f _ => ?_)
    -- a readable file has no fault
    cases hread : isReadable f with
    | false => rfl
    | true =>
      have hwell := isReadable_iff_isWellFormed.1 hread
      have hfaulty : isFaulty f.bytes = false := Bool.eq_false_iff.2 fun hfaulty => by
        obtain ⟨fault, hfault⟩ := isFaulty_iff.1 hfaulty
        exact hfault.not_isWellFormed hwell
      rw [hfaulty]
      rfl
  rw [accept, accept, hfirst]
  cases files.findSome? a.fault? with
  | some e => rfl
  | none => exact congrArg Except.ok hreport

/-- **A lenient run ends alike after files with faults have been deleted.** -/
theorem result_analyze_without (hstrict : a.strict = false) (h : DeletesFaulty gone)
    (hroot : ∀ bytes, fs.read a.root = .ok bytes → IsWellFormed bytes)
    (hfiles : a.sourceFiles fs = .ok files) :
    (a.analyze (fs.without gone)).result = (a.analyze fs).result := by
  obtain ⟨files', hfiles', hfilter, hbase⟩ := sourceFiles_without h hroot hfiles
  rw [result_analyze, result_analyze, reportedFiles, reportedFiles, hfiles', hfiles, hbase]
  dsimp only
  rw [← map_accept_filter hstrict _ files', hfilter, map_accept_filter hstrict]

/-! ## Strict and lenient runs -/

/-- **Strict runs and lenient ones.**  A lenient run over files whose bytes can be read gives a
report.  A strict run gives the same one if every file is well formed, and otherwise the fault of the
least file that is not, in whatever order the files were found.  The report stays the same if sources
that are not well formed are deleted, unless that is the root itself. -/
theorem strict_and_lenient {a : Analyzer} {fs : FileSystem} {files : List Found}
    (hproper : fs.top.IsProper) (hfiles : a.sourceFiles fs = .ok files)
    (haccess : ∀ f ∈ files, IsAccessible f) :
    ∃ report, ({ a with strict := false }.analyze fs).result = .ok report ∧
      (({ a with strict := true }.analyze fs).result = .ok report ↔
        ∀ f ∈ files, IsWellFormed f.bytes) ∧
      ((∃ g ∈ files, ¬IsWellFormed g.bytes) → ∃ f ∈ files, ∃ fault, HasFault f.bytes fault ∧
        ({ a with strict := true }.analyze fs).result = .error (.file f.path fault) ∧
        ∀ g ∈ files, ¬IsWellFormed g.bytes → g = f ∨ Path.compare f.path g.path = .lt) ∧
      (∀ (strict : Bool) (entries : List (Name × FileTree)) (found order : List Found),
        fs.get a.root = .ok (.folder entries) → a.discover fs = .ok found → order.Perm found →
        ({ a with strict }.analyzeFiles fs (a.select order)).result
          = ({ a with strict }.analyze fs).result) ∧
      ∀ gone, DeletesFaulty gone →
        (∀ bytes, fs.read a.root = .ok bytes → IsWellFormed bytes) →
        ({ a with strict := false }.analyze (fs.without gone)).result = .ok report := by
  have hlenient : sourceFiles { a with strict := false } fs = .ok files := hfiles
  have hreport : ({ a with strict := false }.analyze fs).result
      = .ok (a.reportOn (a.base fs) files) := by
    rw [result_analyze, reportedFiles_of_lenient rfl haccess hlenient]
    rfl
  have hstrict : ({ a with strict := true }.analyze fs).result
      = (accept { a with strict := true } files).map (a.reportOn (a.base fs)) := by
    have hfiles' : sourceFiles { a with strict := true } fs = .ok files := hfiles
    rw [result_analyze, reportedFiles, hfiles']
    rfl
  have hfault := @exists_least_fault { a with strict := true } files rfl
    (sourceFiles_sorted hproper hfiles) haccess
  refine ⟨a.reportOn (a.base fs) files, hreport, ?_, ?_, ?_, ?_⟩
  · constructor
    · intro hok f hf
      by_contra hill
      obtain ⟨g, -, fault, -, herror, -⟩ := hfault ⟨f, hf, hill⟩
      rw [hstrict, herror] at hok
      cases hok
    · intro hwell
      rw [hstrict, accept_of_isWellFormed hwell]
      rfl
  · intro hill
    obtain ⟨f, hf, fault, hhas, herror, hleast⟩ := hfault hill
    refine ⟨f, hf, fault, hhas, ?_, hleast⟩
    rw [hstrict, herror]
    rfl
  · intro strict entries found order hget hfound hperm
    have hroot : rootFile? { a with strict } fs = none := rootFile?_of_folder hget
    have hselect := select_eq_of_perm (walksBelow_of_discover hproper hfound) hperm
    have hfiles' : sourceFiles { a with strict } fs = .ok (a.select found) := by
      rw [sourceFiles, hroot]
      exact congrArg (Except.map a.select) hfound
    rw [result_analyzeFiles_eq, result_analyze, reportedFiles, hfiles', hselect]
  · intro gone hgone hroot
    have hsame := @result_analyze_without { a with strict := false } fs _ gone rfl hgone hroot hlenient
    exact hsame.trans hreport

set_option maxRecDepth 100000 in
/-- Of three files, one is not text and one is not well formed; the first of these ends a strict
run, although it is found last. -/
theorem strict_and_lenient_three :
    let fs : FileSystem := { top := .folder [("p".toList, .folder
      [("c.py".toList, .file (Utf8.encode "x = 1".toList)),
        ("b.py".toList, .file (Utf8.encode "x = (".toList)),
        ("a".toList, .folder [("x.py".toList, .file (.ok [0xff]))])])] }
    let a : Analyzer := ⟨"/p".toList, Rule.ofConfig {}, [], {}, true⟩
    ∃ report e, ({ a with strict := false }.analyze fs).result = .ok report ∧
      (a.analyze fs).result = .error (.file "/p/a/x.py".toList (.notText e)) ∧
      ({ a with strict := false }.analyze (fs.without faulty)).result = .ok report ∧
      (fs.without faulty).read "/p/a/x.py".toList = .error .notFound := by
  intro fs a
  let text : Found := ⟨"/p/c.py".toList, Utf8.encode "x = 1".toList⟩
  let half : Found := ⟨"/p/b.py".toList, Utf8.encode "x = (".toList⟩
  let byte : Found := ⟨"/p/a/x.py".toList, .ok [0xff]⟩
  have hfiles : a.sourceFiles fs = .ok (a.select [text, half, byte]) := rfl
  have hperm : (a.select [text, half, byte]).Perm [text, half, byte] := by
    have hkept : [text, half, byte].filter (fun f => isSource f.path && !a.isExcluded f.path)
        = [text, half, byte] :=
      List.filter_eq_self.2 (by decide +kernel)
    rw [select, hkept]
    exact List.mergeSort_perm _ _
  have hill : ¬IsWellFormed byte.bytes := by
    rintro ⟨bytes, text, m, hbytes, htext, -⟩
    cases hbytes
    cases htext
  have hbyte : byte ∈ a.select [text, half, byte] := hperm.mem_iff.2 (by simp)
  have haccess : ∀ f ∈ a.select [text, half, byte], IsAccessible f := by
    intro f hf
    have hf := hperm.mem_iff.1 hf
    simp only [List.mem_cons, List.not_mem_nil, or_false] at hf
    obtain rfl | rfl | rfl := hf <;> exact ⟨_, rfl⟩
  obtain ⟨report, hlenient, -, hleast, -, hwithout⟩ := @strict_and_lenient a fs _
    ⟨by decide +kernel, by decide +kernel⟩ hfiles haccess
  obtain ⟨f, hf, fault, hhas, herror, hfirst⟩ := hleast ⟨byte, hbyte, hill⟩
  have hread : fs.read a.root = .error .isFolder := rfl
  have hdeleted := hwithout faulty deletesFaulty_faulty fun bytes hbytes => by
    rw [hread] at hbytes
    cases hbytes
  rcases hfirst byte hbyte hill with rfl | hlt
  · cases hhas with
    | notText h => exact ⟨report, _, hlenient, herror, hdeleted, by decide +kernel⟩
    | malformed htext h => cases htext
  · -- neither of the other two files is before this one
    have hbefore : ∀ g ∈ [text, half, byte], Path.compare g.path byte.path ≠ .lt := by
      decide +kernel
    exact absurd hlt (hbefore f (hperm.mem_iff.1 hf))

end PermissionLint.Analyzer
