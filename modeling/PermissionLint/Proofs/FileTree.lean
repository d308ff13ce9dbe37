/-
Paths that lead to files.

Every part of a path needs a folder to start from, and a part that is void or two dots leads to a
folder.  So the last part of a path that leads to a file is a name (`lastPart_of_get`).
-/
import PermissionLint.FileTree
import PermissionLint.Proofs.Path.Directory

namespace PermissionLint

namespace FileTree

lemma at?_append (tree : FileTree) (xs ys : List Name) :
    tree.at? (xs ++ ys) = (tree.at? xs).bind fun child => child.at? ys := by
  induction xs generalizing tree with
  | nil => rfl
  | cons x xs ih =>
    rw [List.cons_append, at?, at?]
    cases tree.child? x with
    | none => rfl
    | some child => exact ih child

/-- What passes from folders to their entries passes to all that is below. -/
lemma at?_induction {P : FileTree → Prop}
    (hentry : ∀ entries, P (folder entries) → ∀ e ∈ entries, P e.2) {tree child : FileTree}
    (h : P tree) {names : List Name} (hchild : tree.at? names = some child) : P child := by
  induction names generalizing tree with
  | nil =>
    cases hchild
    exact h
  | cons name names ih =>
    obtain ⟨next, hnext, hchild⟩ := Option.bind_eq_some_iff.1 hchild
    cases tree with
    | file bytes => cases hnext
    | folder entries =>
      obtain ⟨e, he, rfl⟩ := Option.map_eq_some_iff.1 hnext
      exact ih (hentry entries h e (List.mem_of_find?_eq_some he)) hchild

/-- What a folder is in is a folder. -/
lemma at?_dropLast {top : FileTree} {here : List Name} {entries : List (Name × FileTree)}
    (h : top.at? here = some (.folder entries)) :
    ∃ entries', top.at? here.dropLast = some (.folder entries') := by
  rcases List.eq_nil_or_concat here with rfl | ⟨outer, name, rfl⟩
  · exact ⟨entries, h⟩
  · rw [List.concat_eq_append, at?_append] at h
    rw [List.concat_eq_append, List.dropLast_concat]
    cases houter : top.at? outer with
    | none => simp [houter] at h
    | some tree =>
      cases tree with
      | folder entries' => exact ⟨entries', rfl⟩
      | file bytes => simp [houter, at?, child?] at h

/-- The last parts of a path are followed from where the others lead to. -/
lemma exists_follow_of_append {top : FileTree} {ps qs : List (List Char)} {here names : List Name}
    (h : top.follow (ps ++ qs) here = .ok names) : ∃ mid, top.follow qs mid = .ok names := by
  induction ps generalizing here with
  | nil => exact ⟨here, h⟩
  | cons p ps ih =>
    rw [List.cons_append, follow] at h
    split at h
    · split at h
      · exact ih h
      · split at h
        · exact ih h
        · split at h
          · exact ih h
          · cases h
    · cases h
    · cases h

/-- The last part of a path that leads to a file is a name. -/
lemma isName_of_follow {top : FileTree} {ps : List (List Char)} {part : List Char}
    {here names : List Name} {bytes : Contents} (h : top.follow (ps ++ [part]) here = .ok names)
    (hfile : top.at? names = some (.file bytes)) :
    Path.isVoid part = false ∧ part ≠ ['.', '.'] := by
  obtain ⟨mid, hlast⟩ := exists_follow_of_append h
  rw [follow] at hlast
  split at hlast
  · next entries hfolder =>
    split at hlast
    · -- a void part stays where it is, in a folder
      cases hlast
      rw [hfolder] at hfile
      cases hfile
    · next hvoid =>
      split at hlast
      · -- two dots lead to another folder
        obtain ⟨entries', hfolder'⟩ := at?_dropLast hfolder
        cases hlast
        rw [hfolder'] at hfile
        cases hfile
      · next hdots => exact ⟨by simpa using hvoid, by simpa using hdots⟩
  · cases hlast
  · cases hlast

end FileTree

namespace Path

lemma exists_parts_append (p : Path) : ∃ init, p.parts = init ++ [lastPart p] := by
  rcases lastPart_cases p with ⟨hp, hlast⟩ | ⟨front, part, rfl, hpart, hlast⟩
  · rw [hlast]
    exact ⟨[], by rw [parts, List.splitOn_eq_singleton hp]; rfl⟩
  · rw [hlast]
    exact ⟨parts front, by
      rw [parts, List.splitOn_append_cons_self, List.splitOn_eq_singleton hpart]; rfl⟩

/-- Joining a path to a folder keeps its last part. -/
lemma lastPart_join (folder p : Path) : lastPart (folder.join p) = lastPart p := by
  rw [join]
  split
  · rfl
  split
  · next hend =>
    rcases List.eq_nil_or_concat folder with rfl | ⟨front, c, rfl⟩
    · rfl
    · have hc : c = '/' := by simpa using hend
      rw [hc, List.concat_eq_append, List.append_assoc, List.singleton_append, lastPart_append]
  · exact lastPart_append folder p

lemma isAbsolute_join {folder : Path} (h : folder.isAbsolute = true) (p : Path) :
    (folder.join p).isAbsolute = true := by
  have hfolder : ∀ q, isAbsolute (folder ++ q) = true := by
    intro q
    cases folder with
    | nil => cases h
    | cons c cs => exact h
  rw [join]
  split
  · assumption
  split
  · exact hfolder p
  · exact hfolder ('/' :: p)

lemma join_of_isAbsolute {p : Path} (h : p.isAbsolute = true) (folder : Path) :
    folder.join p = p := by
  rw [join, if_pos h]

/-- A path whose last part is a name ends with that name. -/
lemma fileName?_of_lastPart {p : Path} (hvoid : isVoid (lastPart p) = false)
    (hdots : lastPart p ≠ ['.', '.']) : p.fileName? = some (lastPart p) := by
  obtain ⟨init, hinner⟩ := exists_innerComponents_append hvoid
  have hlast : componentOf (lastPart p) = .normal (lastPart p) := by
    rw [componentOf, if_neg (by simpa using hdots)]
  rw [fileName?, components, hinner, hlast, ← List.append_assoc, List.getLast?_append]
  rfl

end Path

namespace FileSystem

lemma get_eq_ok_iff {fs : FileSystem} {p : Path} {tree : FileTree} :
    fs.get p = .ok tree ↔ ∃ names, fs.resolve p = .ok names ∧ fs.top.at? names = some tree := by
  rw [get]
  constructor
  · intro h
    split at h
    · next names hresolve =>
      split at h
      · next tree' hat => exact ⟨names, hresolve, hat.trans (congrArg some (Except.ok.inj h))⟩
      · cases h
    · cases h
  · rintro ⟨names, hresolve, hat⟩
    rw [hresolve]
    dsimp only
    rw [hat]

/-- What is read at a path is what the file there holds. -/
lemma read_of_get {fs : FileSystem} {p : Path} {bytes : Contents}
    (h : fs.get p = .ok (.file bytes)) : fs.read p = bytes := by
  rw [read, h]

lemma read_eq_ok_iff {fs : FileSystem} {p : Path} {bytes : List UInt8} :
    fs.read p = .ok bytes ↔ fs.get p = .ok (.file (.ok bytes)) := by
  rw [read]
  cases fs.get p with
  | error e => simp
  | ok tree => cases tree <;> simp

lemma isFile_of_get {fs : FileSystem} {p : Path} {bytes : Contents}
    (h : fs.get p = .ok (.file bytes)) : fs.isFile p = true := by
  rw [isFile, h]

lemma exists_get_of_isFile {fs : FileSystem} {p : Path} (h : fs.isFile p = true) :
    ∃ bytes, fs.get p = .ok (.file bytes) := by
  rw [isFile] at h
  split at h
  · next bytes hget => exact ⟨bytes, hget⟩
  · cases h

lemma ne_nil_of_get {fs : FileSystem} {p : Path} {tree : FileTree} (h : fs.get p = .ok tree) :
    p ≠ [] := by
  rintro rfl
  obtain ⟨names, hresolve, -⟩ := get_eq_ok_iff.1 h
  cases hresolve

lemma isAbsolute_absolute {fs : FileSystem} (h : fs.workingDirectory.isAbsolute = true) (p : Path) :
    (fs.absolute p).isAbsolute = true :=
  Path.isAbsolute_join h p

/-- A path from the top stands for itself. -/
lemma absolute_of_isAbsolute {fs : FileSystem} {p : Path} (h : p.isAbsolute = true) :
    fs.absolute p = p :=
  Path.join_of_isAbsolute h _

/-- The path from the top leads where the path leads. -/
lemma resolve_absolute {fs : FileSystem} (h : fs.workingDirectory.isAbsolute = true) {p : Path}
    {names : List Name} (hresolve : fs.resolve p = .ok names) :
    fs.resolve (fs.absolute p) = .ok names := by
  have habsolute := isAbsolute_absolute h p
  have hne : (fs.absolute p).isEmpty = false := by
    cases hp : fs.absolute p with
    | nil => simp [hp, Path.isAbsolute] at habsolute
    | cons => rfl
  rw [resolve] at hresolve ⊢
  rw [hne, absolute_of_isAbsolute habsolute]
  split at hresolve
  · cases hresolve
  · exact hresolve

lemma get_absolute {fs : FileSystem} (h : fs.workingDirectory.isAbsolute = true) {p : Path}
    {tree : FileTree} (hget : fs.get p = .ok tree) : fs.get (fs.absolute p) = .ok tree := by
  obtain ⟨names, hresolve, hat⟩ := get_eq_ok_iff.1 hget
  exact get_eq_ok_iff.2 ⟨names, resolve_absolute h hresolve, hat⟩

/-- **The last part of a path that leads to a file is a name.** -/
theorem lastPart_of_get {fs : FileSystem} {p : Path} {bytes : Contents}
    (hget : fs.get p = .ok (.file bytes)) :
    Path.isVoid p.lastPart = false ∧ p.lastPart ≠ ['.', '.'] := by
  obtain ⟨names, hresolve, hat⟩ := get_eq_ok_iff.1 hget
  obtain ⟨init, hparts⟩ := Path.exists_parts_append (fs.absolute p)
  rw [resolve] at hresolve
  split at hresolve
  · cases hresolve
  · rw [hparts, absolute, Path.lastPart_join] at hresolve
    exact FileTree.isName_of_follow hresolve hat

end FileSystem

end PermissionLint
