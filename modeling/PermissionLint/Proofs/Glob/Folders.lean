/-
Patterns that leave out folders by their name.

Such a pattern is a name between double asterisks, as `**/venv/**`.  It covers the paths that have
the name as a part with another part behind it (`globMatches_folderPattern_iff`): the name has to be
the whole of a folder's name, and the name of a file does not count.  A path that contains the
pattern literally is one of these, so the second way of leaving out adds nothing
(`any_leavesOut_folderPatterns`).
-/
import PermissionLint.Config
import PermissionLint.Proofs.Glob.Exclude
import PermissionLint.Proofs.Text.Separator

namespace PermissionLint

namespace Path

/-! ## Folders of a path -/

/-- The parts of a path before its last one. -/
def folders (p : Path) : List (List Char) := p.parts.dropLast

lemma parts_part {part : List Char} (h : '/' ∉ part) : parts part = [part] :=
  List.splitOn_eq_singleton h

lemma folders_part {part : List Char} (h : '/' ∉ part) : folders part = [] := by
  rw [folders, parts_part h]
  rfl

/-- What stands before a separator are folders. -/
lemma folders_append (front rest : Path) :
    folders (front ++ '/' :: rest) = front.parts ++ rest.folders := by
  rw [folders, parts, List.splitOn_append_cons_self,
    List.dropLast_append_of_ne_nil (List.splitOn_ne_nil _ _)]
  rfl

/-- A folder stands at the front of a path or behind a separator, and in front of another one. -/
lemma mem_folders_iff {name : List Char} (hname : '/' ∉ name) {p : Path} :
    name ∈ p.folders ↔
      (∃ rest, p = name ++ '/' :: rest) ∨
        ∃ front rest, p = front ++ '/' :: (name ++ '/' :: rest) := by
  constructor
  · intro h
    induction p using Text.separatedInduction '/' with
    | last part hpart =>
      rw [folders_part hpart] at h
      cases h
    | next part rest hpart ih =>
      rw [folders_append, parts_part hpart, List.singleton_append, List.mem_cons] at h
      rcases h with rfl | h
      · exact .inl ⟨rest, rfl⟩
      · rcases ih h with ⟨rest, rfl⟩ | ⟨front, rest, rfl⟩
        · exact .inr ⟨part, rest, rfl⟩
        · exact .inr ⟨part ++ '/' :: front, rest, by simp⟩
  · rintro (⟨rest, rfl⟩ | ⟨front, rest, rfl⟩)
    · simp [folders_append, parts_part hname]
    · simp [folders_append, parts_part hname]

end Path

namespace Exclude

/-! ## Patterns for folders -/

/-- A name for a folder that can stand in a pattern as it is. -/
structure IsFolderName (name : String) : Prop where
  ne_empty : name ≠ ""
  literal : ∀ c ∈ name.toList, c ∉ ['*', '?', '[', ']', '/']

instance : DecidablePred IsFolderName := fun name =>
  decidable_of_iff (name ≠ "" ∧ name.toList.all (· ∉ ['*', '?', '[', ']', '/']) = true) <| by
    simp only [List.all_eq_true, decide_eq_true_eq]
    exact ⟨fun ⟨h, h'⟩ => ⟨h, h'⟩, fun ⟨h, h'⟩ => ⟨h, h'⟩⟩

/-- The pattern that leaves out the folders with a name. -/
def folderPattern (name : String) : String := "**/" ++ name ++ "/**"

lemma toList_folderPattern (name : String) :
    (folderPattern name).toList = '*' :: '*' :: '/' :: (name.toList ++ ['/', '*', '*']) := by
  simp [folderPattern]

/-- The pieces of the pattern. -/
def folderPieces (name : String) : List Piece :=
  .folders :: (name.toList.map .char ++ [.char '/', .folders])

/-- A character that is no wildcard stands for itself. -/
lemma parseFrom_char {c : Char} (hc : c ∉ ['*', '?', '[']) (position : Nat)
    (before : Option Char) (cs : List Char) :
    parseFrom position before (c :: cs)
      = (parseFrom (position + 1) (some c) cs).map (.char c :: ·) := by
  simp only [List.mem_cons, List.not_mem_nil, or_false, not_or] at hc
  obtain ⟨hstar, hmark, hbracket⟩ := hc
  rw [parseFrom]
  all_goals simp [hstar, hmark, hbracket]

lemma parseFrom_literal {cs : List Char} (h : ∀ c ∈ cs, c ∉ ['*', '?', '[', ']', '/'])
    (position : Nat) (before : Option Char) :
    parseFrom position before (cs ++ ['/', '*', '*'])
      = .ok (cs.map .char ++ [.char '/', .folders]) := by
  induction cs generalizing position before with
  | nil =>
    rw [List.nil_append, parseFrom_char (by decide)]
    rfl
  | cons c cs ih =>
    obtain ⟨hc, hcs⟩ := List.forall_mem_cons.1 h
    have hplain : c ∉ ['*', '?', '['] := by
      simp only [List.mem_cons, List.not_mem_nil, or_false, not_or] at hc ⊢
      exact ⟨hc.1, hc.2.1, hc.2.2.1⟩
    rw [List.cons_append, parseFrom_char hplain, ih hcs]
    rfl

lemma parse_folderPattern {name : String} (h : IsFolderName name) :
    parse (folderPattern name).toList = .ok (folderPieces name) := by
  rw [toList_folderPattern, parse, parseFrom]
  simp only [Option.all_none, if_true, parseFrom_literal h.literal]
  rfl

/-- The patterns are read. -/
lemma exists_mapM_folderPattern {names : List String} (h : ∀ name ∈ names, IsFolderName name) :
    ∃ excludes, (names.map folderPattern).mapM ofPattern = .ok excludes := by
  induction names with
  | nil => exact ⟨[], rfl⟩
  | cons name names ih =>
    obtain ⟨hname, hnames⟩ := List.forall_mem_cons.1 h
    obtain ⟨excludes, hexcludes⟩ := ih hnames
    refine ⟨⟨(folderPattern name).toList, folderPieces name⟩ :: excludes, ?_⟩
    rw [List.map_cons, List.mapM_cons, hexcludes, ofPattern, parse_folderPattern hname]
    rfl

/-! ## The paths that they cover -/

lemma covers_literal_append {cs : List Char} {ps : List Piece} {p : Path} :
    Covers (cs.map .char ++ ps) p ↔ ∃ rest, p = cs ++ rest ∧ Covers ps rest := by
  induction cs generalizing p with
  | nil => simp
  | cons c cs ih =>
    constructor
    · rintro ⟨⟩
      next h =>
      obtain ⟨rest, rfl, hrest⟩ := ih.1 h
      exact ⟨rest, rfl, hrest⟩
    · rintro ⟨rest, rfl, hrest⟩
      exact .char (ih.2 ⟨rest, rfl, hrest⟩)

lemma covers_folders_cons {ps : List Piece} (h : ps ≠ []) {p : Path} :
    Covers (.folders :: ps) p ↔
      Covers ps p ∨ ∃ front rest, p = front ++ '/' :: rest ∧ Covers ps rest := by
  constructor
  · intro hp
    cases hp with
    | noFolder hp => exact .inl hp
    | someFolders hp => exact .inr ⟨_, _, rfl, hp⟩
    | everything => exact absurd rfl h
  · rintro (hp | ⟨front, rest, rfl, hp⟩)
    · exact .noFolder hp
    · exact .someFolders hp

lemma covers_inside {p : Path} : Covers [.char '/', .folders] p ↔ ∃ rest, p = '/' :: rest := by
  constructor
  · rintro ⟨⟩
    exact ⟨_, rfl⟩
  · rintro ⟨rest, rfl⟩
    exact .char .everything

/-- The pattern covers the paths that have the name among their folders. -/
lemma globMatches_folderPattern_iff {name : String} (h : IsFolderName name) {p : Path} :
    GlobMatches (folderPattern name) p ↔ name.toList ∈ p.folders := by
  have hslash : '/' ∉ name.toList := fun hmem => h.literal '/' hmem (by decide)
  have hinside : ∀ q, Covers (name.toList.map .char ++ [.char '/', .folders]) q ↔
      ∃ rest, q = name.toList ++ '/' :: rest := by
    intro q
    rw [covers_literal_append]
    constructor
    · rintro ⟨_, rfl, hrest⟩
      obtain ⟨rest, rfl⟩ := covers_inside.1 hrest
      exact ⟨rest, rfl⟩
    · rintro ⟨rest, rfl⟩
      exact ⟨_, rfl, covers_inside.2 ⟨rest, rfl⟩⟩
  have hcovers : GlobMatches (folderPattern name) p ↔ Covers (folderPieces name) p := by
    rw [GlobMatches, parse_folderPattern h]
    simp
  rw [hcovers, Path.mem_folders_iff hslash, folderPieces, covers_folders_cons (by simp), hinside]
  refine or_congr Iff.rfl ?_
  simp only [hinside]
  constructor
  · rintro ⟨front, _, rfl, rest, rfl⟩
    exact ⟨front, rest, rfl⟩
  · rintro ⟨front, rest, rfl⟩
    exact ⟨front, _, rfl, rest, rfl⟩

lemma isEnclosed_folderPattern {name : String} (h : IsFolderName name) :
    IsEnclosed (folderPattern name) := by
  refine ⟨folderPieces name, by rw [parse_folderPattern h]; rfl, rfl, ?_, ?_⟩
  · rw [folderPieces, ← List.cons_append, List.getLast?_append]
    rfl
  · intro piece hpiece
    simp only [folderPieces, List.mem_cons, List.mem_append, List.mem_map, List.not_mem_nil,
      or_false] at hpiece
    rcases hpiece with rfl | ⟨c, -, rfl⟩ | rfl | rfl <;> rfl

/-- The pattern leaves out nothing but what it covers. -/
lemma leavesOut_folderPattern_iff {name : String} (h : IsFolderName name) {p : Path} :
    GlobMatches (folderPattern name) p ∨ FragmentOccurs (folderPattern name) p ↔
      name.toList ∈ p.folders := by
  rw [← globMatches_folderPattern_iff h, or_iff_left_iff_imp]
  exact covers_of_fragmentOccurs (isEnclosed_folderPattern h)

/-- **Patterns for folders leave out exactly the paths that have one of the names among their
folders**, and the patterns that are used unless others are configured are such patterns. -/
theorem any_leavesOut_folderPatterns :
    (∀ pattern ∈ ({} : AnalyzerSection).exclude,
        ∃ name, IsFolderName name ∧ pattern = folderPattern name) ∧
      ∀ names : List String, (∀ name ∈ names, IsFolderName name) → ∀ p : Path,
        ∃ excludes, (names.map folderPattern).mapM ofPattern = .ok excludes ∧
          (excludes.any (·.leavesOut p) = true ↔ ∃ name ∈ names, name.toList ∈ p.folders) := by
  refine ⟨?_, fun names h p => ?_⟩
  · simp only [List.forall_mem_cons]
    exact ⟨⟨".venv", by decide, rfl⟩, ⟨"venv", by decide, rfl⟩, ⟨"node_modules", by decide, rfl⟩,
      ⟨"migrations", by decide, rfl⟩, by simp⟩
  · obtain ⟨excludes, hexcludes⟩ := exists_mapM_folderPattern h
    refine ⟨excludes, hexcludes, ?_⟩
    rw [any_leavesOut hexcludes]
    constructor
    · rintro ⟨_, hpattern, hleaves⟩
      obtain ⟨name, hname, rfl⟩ := List.mem_map.1 hpattern
      exact ⟨name, hname, (leavesOut_folderPattern_iff (h name hname)).1 hleaves⟩
    · rintro ⟨name, hname, hfolder⟩
      exact ⟨_, List.mem_map_of_mem hname, (leavesOut_folderPattern_iff (h name hname)).2 hfolder⟩

/-- A folder is left out that has one of the names, and a folder and a file are kept whose names go
on with other letters. -/
theorem any_leavesOut_folderPatterns_venv :
    let names := ["venv", "migrations"]
    ∃ excludes, (names.map folderPattern).mapM ofPattern = .ok excludes ∧
      (∀ name ∈ names, IsFolderName name) ∧
      excludes.any (·.leavesOut "/p/venv/views.py".toList) = true ∧
      ¬excludes.any (·.leavesOut "/p/myvenv/migrations.d/venv".toList) = true := by
  intro names
  have hnames : ∀ name ∈ names, IsFolderName name := by decide
  obtain ⟨excludes, hexcludes, hvenv⟩ :=
    any_leavesOut_folderPatterns.2 names hnames "/p/venv/views.py".toList
  obtain ⟨excludes', hexcludes', hkept⟩ :=
    any_leavesOut_folderPatterns.2 names hnames "/p/myvenv/migrations.d/venv".toList
  cases hexcludes.symm.trans hexcludes'
  refine ⟨excludes, hexcludes, hnames, hvenv.2 ⟨"venv", by decide, by decide⟩, fun h => ?_⟩
  obtain ⟨name, hname, hfolder⟩ := hkept.1 h
  revert name
  decide

end Exclude

end PermissionLint
