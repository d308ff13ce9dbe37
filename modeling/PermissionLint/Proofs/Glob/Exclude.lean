/-
Which paths patterns leave out.

`Covers` says piece by piece which paths a pattern stands for as a glob, and `coversPath` decides it.
Beside that a pattern leaves out every path that contains it literally, its double asterisks removed
(`FragmentOccurs`).  So patterns leave out what one of them covers, and what contains one of them
(`any_leavesOut_iff`).

A pattern that has no wildcard but double asterisks, and begins and ends with them, as `**/venv/**`
does, covers every path that contains it (`covers_of_fragmentOccurs`), and these are the patterns
that the second way of leaving out is meant for.  It is open to all others as well, and there it
leaves out paths that no pattern covers (`leavesOut_of_plain_word`).
-/
import Mathlib.Data.List.Basic
import PermissionLint.Glob.Exclude
import PermissionLint.Text.Utf8

namespace PermissionLint.Exclude

open PermissionLint.Text

/-! ## Patterns as globs -/

/-- The paths that the pieces of a pattern stand for.  Folders come with the separator after each of
them; at the end of a pattern they stand for everything. -/
inductive Covers : List Piece → Path → Prop where
  | nil : Covers [] []
  | char {c : Char} {ps : List Piece} {p : Path} : Covers ps p → Covers (.char c :: ps) (c :: p)
  | anyChar {c : Char} {ps : List Piece} {p : Path} : Covers ps p → Covers (.anyChar :: ps) (c :: p)
  | oneOf {ranges : List (Char × Char)} {c : Char} {ps : List Piece} {p : Path} :
      inRanges ranges c = true → Covers ps p → Covers (.oneOf ranges :: ps) (c :: p)
  | noneOf {ranges : List (Char × Char)} {c : Char} {ps : List Piece} {p : Path} :
      inRanges ranges c = false → Covers ps p → Covers (.noneOf ranges :: ps) (c :: p)
  | anyText {text : List Char} {ps : List Piece} {p : Path} :
      Covers ps p → Covers (.anyText :: ps) (text ++ p)
  | noFolder {ps : List Piece} {p : Path} : Covers ps p → Covers (.folders :: ps) p
  | someFolders {text : List Char} {ps : List Piece} {p : Path} :
      Covers ps p → Covers (.folders :: ps) (text ++ '/' :: p)
  | everything {p : Path} : Covers [.folders] p

lemma matches_one_append {q : Char → Bool} {g : Glob Char} {p : Path} :
    (Glob.append (.one q) g).Matches p ↔ ∃ c rest, p = c :: rest ∧ q c = true ∧ g.Matches rest := by
  constructor
  · rintro ⟨⟩
    next hone hg =>
    cases hone with
    | one hc => exact ⟨_, _, rfl, hc, hg⟩
  · rintro ⟨c, rest, rfl, hc, hg⟩
    change (Glob.append (.one q) g).Matches ([c] ++ rest)
    exact .append (.one hc) hg

lemma matches_anything_append {g : Glob Char} {p : Path} :
    (Glob.append (.many fun _ => true) g).Matches p ↔
      ∃ text rest, p = text ++ rest ∧ g.Matches rest := by
  constructor
  · rintro ⟨⟩
    next htext hg => exact ⟨_, _, rfl, hg⟩
  · rintro ⟨text, rest, rfl, hg⟩
    exact .append (.many fun _ _ => rfl) hg

lemma matches_anyFolders_append {g : Glob Char} {p : Path} :
    (Glob.append anyFolders g).Matches p ↔
      g.Matches p ∨ ∃ text rest, p = text ++ '/' :: rest ∧ g.Matches rest := by
  constructor
  · rintro ⟨⟩
    next hfolders hg =>
    cases hfolders with
    | left hempty =>
      cases hempty
      exact .inl hg
    | right hsome =>
      obtain ⟨text, rest, rfl, hslash⟩ := matches_anything_append.1 hsome
      cases hslash with
      | one hc =>
        refine .inr ⟨text, _, ?_, hg⟩
        rw [List.append_assoc, List.singleton_append, beq_iff_eq.1 hc]
  · rintro (hg | ⟨text, rest, rfl, hg⟩)
    · change (Glob.append anyFolders g).Matches ([] ++ p)
      exact .append (.left .empty) hg
    · rw [List.append_cons]
      exact .append (.right (matches_anything_append.2 ⟨text, _, rfl, .one rfl⟩)) hg

/-- The glob of a pattern matches the paths that its pieces stand for. -/
lemma matches_glob_iff (ps : List Piece) (p : Path) : (glob ps).Matches p ↔ Covers ps p := by
  induction ps generalizing p with
  | nil =>
    constructor
    · rintro ⟨⟩
      exact .nil
    · rintro ⟨⟩
      exact .empty
  | cons piece ps ih =>
    cases piece with
    | char c =>
      rw [glob, matches_one_append]
      constructor
      · rintro ⟨d, rest, rfl, hd, hg⟩
        obtain rfl := beq_iff_eq.1 hd
        exact .char ((ih rest).1 hg)
      · rintro ⟨⟩
        next h => exact ⟨c, _, rfl, beq_self_eq_true c, (ih _).2 h⟩
    | anyChar =>
      rw [glob, matches_one_append]
      constructor
      · rintro ⟨d, rest, rfl, -, hg⟩
        exact .anyChar ((ih rest).1 hg)
      · rintro ⟨⟩
        next h => exact ⟨_, _, rfl, rfl, (ih _).2 h⟩
    | oneOf ranges =>
      rw [glob, matches_one_append]
      constructor
      · rintro ⟨d, rest, rfl, hd, hg⟩
        exact .oneOf hd ((ih rest).1 hg)
      · rintro ⟨⟩
        next hd h => exact ⟨_, _, rfl, hd, (ih _).2 h⟩
    | noneOf ranges =>
      rw [glob, matches_one_append]
      constructor
      · rintro ⟨d, rest, rfl, hd, hg⟩
        exact .noneOf (by simpa using hd) ((ih rest).1 hg)
      · rintro ⟨⟩
        next hd h => exact ⟨_, _, rfl, by simpa using hd, (ih _).2 h⟩
    | anyText =>
      rw [glob, matches_anything_append]
      constructor
      · rintro ⟨text, rest, rfl, hg⟩
        exact .anyText ((ih rest).1 hg)
      · rintro ⟨⟩
        next h => exact ⟨_, _, rfl, (ih _).2 h⟩
    | folders =>
      cases ps with
      | nil =>
        rw [glob]
        exact ⟨fun _ => .everything, fun _ => .many fun _ _ => rfl⟩
      | cons next ps =>
        rw [glob, matches_anyFolders_append]
        · constructor
          · rintro (hg | ⟨text, rest, rfl, hg⟩)
            · exact .noFolder ((ih p).1 hg)
            · exact .someFolders ((ih rest).1 hg)
          · rintro ⟨⟩
            · next h => exact .inl ((ih p).2 h)
            · next h => exact .inr ⟨_, _, rfl, (ih _).2 h⟩
        · simp

/-- A pattern covers the paths that it stands for. -/
lemma coversPath_iff {e : Exclude} {p : Path} : e.coversPath p = true ↔ Covers e.pieces p := by
  rw [coversPath, Glob.accepts_iff, matches_glob_iff]

/-! ## Patterns as fragments -/

lemma containsText_iff {part : List Char} {text : List Char} :
    containsText part text = true ↔ part <:+: text := by
  induction text with
  | nil => rw [containsText, List.isEmpty_iff, List.infix_nil]
  | cons c cs ih =>
    rw [containsText, Bool.or_eq_true, List.isPrefixOf_iff_prefix, ih, List.infix_cons_iff]

/-- The path matches the pattern as a glob. -/
def GlobMatches (pattern : String) (p : Path) : Prop :=
  ∃ pieces, parse pattern.toList = .ok pieces ∧ Covers pieces p

/-- The path contains the pattern without its double asterisks, of which more than one byte is
left. -/
def FragmentOccurs (pattern : String) (p : Path) : Prop :=
  1 < (Utf8.encode (fragment pattern.toList)).length ∧ fragment pattern.toList <:+: p

/-- What a pattern that has been read leaves out. -/
lemma leavesOut_iff {pattern : String} {e : Exclude} (h : ofPattern pattern = .ok e) (p : Path) :
    e.leavesOut p = true ↔ GlobMatches pattern p ∨ FragmentOccurs pattern p := by
  rw [ofPattern] at h
  cases hparse : parse pattern.toList with
  | error fault =>
    rw [hparse] at h
    cases h
  | ok pieces =>
    rw [hparse] at h
    cases h
    rw [leavesOut, Bool.or_eq_true, coversPath_iff, occursIn, Bool.and_eq_true, containsText_iff,
      decide_eq_true_iff, ← Utf8.length_encode]
    refine or_congr ⟨fun hcovers => ⟨pieces, hparse, hcovers⟩, ?_⟩ Iff.rfl
    rintro ⟨pieces', hparse', hcovers⟩
    cases hparse.symm.trans hparse'
    exact hcovers

/-- What patterns leave out that have all been read. -/
lemma any_leavesOut {patterns : List String} {excludes : List Exclude}
    (h : patterns.mapM ofPattern = .ok excludes) (p : Path) :
    excludes.any (·.leavesOut p) = true ↔
      ∃ pattern ∈ patterns, GlobMatches pattern p ∨ FragmentOccurs pattern p := by
  induction patterns generalizing excludes with
  | nil =>
    cases h
    simp
  | cons pattern patterns ih =>
    rw [List.mapM_cons] at h
    cases hpattern : ofPattern pattern with
    | error fault =>
      rw [hpattern] at h
      cases h
    | ok e =>
      cases hpatterns : patterns.mapM ofPattern with
      | error fault =>
        rw [hpattern, hpatterns] at h
        cases h
      | ok es =>
        rw [hpattern, hpatterns] at h
        cases h
        rw [List.any_cons, Bool.or_eq_true, leavesOut_iff hpattern, ih hpatterns]
        simp

/-! ## Patterns without other wildcards -/

/-- The piece is a character, or it stands for folders. -/
def Piece.isPlain : Piece → Bool
  | char _ | folders => true
  | anyChar | oneOf _ | noneOf _ | anyText => false

/-- The pattern begins and ends with folders, and between them there is no wildcard but folders. -/
def IsEnclosed (pattern : String) : Prop :=
  ∃ pieces ∈ (parse pattern.toList).toOption, pieces.head? = some .folders ∧
    pieces.getLast? = some .folders ∧ ∀ piece ∈ pieces, piece.isPlain = true

instance : DecidablePred IsEnclosed := fun pattern =>
  inferInstanceAs (Decidable (∃ pieces ∈ (parse pattern.toList).toOption,
    pieces.head? = some .folders ∧ pieces.getLast? = some .folders ∧
      ∀ piece ∈ pieces, piece.isPlain = true))

lemma map_cons_eq_ok {x : Except PatternError (List Piece)} {piece piece' : Piece}
    {ps : List Piece} (h : x.map (piece :: ·) = .ok (piece' :: ps)) :
    piece = piece' ∧ x = .ok ps := by
  cases x with
  | error e => cases h
  | ok qs =>
    cases h
    exact ⟨rfl, rfl⟩

/-- A set of characters is no plain piece. -/
lemma not_isPlain_of_parseSet {position : Nat} {negated : Bool} {found cs : List Char}
    {piece : Piece} {ps : List Piece} (h : parseSet position negated found cs = .ok (piece :: ps)) :
    piece.isPlain = false := by
  induction cs generalizing position found with
  | nil =>
    rw [parseSet] at h
    cases h
  | cons c cs ih =>
    rw [parseSet] at h
    split at h
    · rw [← (map_cons_eq_ok h).1]
      split <;> rfl
    · exact ih h

/-- How a pattern begins whose first piece is plain. -/
lemma parseFrom_plain {position : Nat} {before : Option Char} {cs : List Char} {piece : Piece}
    {ps : List Piece} (h : parseFrom position before cs = .ok (piece :: ps))
    (hplain : piece.isPlain = true) :
    (cs = ['*', '*'] ∧ piece = .folders ∧ ps = []) ∨
      (∃ rest, cs = '*' :: '*' :: '/' :: rest ∧ piece = .folders ∧
        parseFrom (position + 3) (some '/') rest = .ok ps) ∨
      ∃ c rest, cs = c :: rest ∧ c ≠ '*' ∧ piece = .char c ∧
        parseFrom (position + 1) (some c) rest = .ok ps := by
  unfold parseFrom at h
  split at h
  · cases h
  · obtain ⟨rfl, -⟩ := map_cons_eq_ok h
    cases hplain
  · cases h
  · split at h
    · cases h
      exact .inl ⟨rfl, rfl, rfl⟩
    · cases h
  · split at h
    · obtain ⟨rfl, hrest⟩ := map_cons_eq_ok h
      exact .inr (.inl ⟨_, rfl, rfl, hrest⟩)
    · cases h
  · split at h <;> cases h
  · obtain ⟨rfl, -⟩ := map_cons_eq_ok h
    cases hplain
  · split at h
    · rw [not_isPlain_of_parseSet h] at hplain
      cases hplain
    · cases h
  · split at h
    · rw [not_isPlain_of_parseSet h] at hplain
      cases hplain
    · cases h
  · cases h
  · next c rest _ _ _ _ _ hstar _ _ _ =>
    obtain ⟨rfl, hrest⟩ := map_cons_eq_ok h
    exact .inr (.inr ⟨c, rest, rfl, hstar, rfl, hrest⟩)

lemma fragment_cons {c : Char} (h : c ≠ '*') (cs : List Char) :
    fragment (c :: cs) = c :: fragment cs := by
  rw [fragment]
  intro _ hc
  exact absurd hc h

lemma fragment_folders (cs : List Char) :
    fragment ('*' :: '*' :: '/' :: cs) = '/' :: fragment cs := by
  rw [fragment, fragment_cons (by decide)]

/-- The end of a pattern without other wildcards covers what begins with it literally. -/
lemma covers_fragment_append {position : Nat} {before : Option Char} {cs : List Char}
    {pieces : List Piece} (h : parseFrom position before cs = .ok pieces)
    (hlast : pieces.getLast? = some .folders) (hplain : ∀ piece ∈ pieces, piece.isPlain = true)
    (rest : Path) : Covers pieces (fragment cs ++ rest) := by
  induction pieces generalizing position before cs with
  | nil => cases hlast
  | cons piece ps ih =>
    obtain ⟨hpiece, hps⟩ := List.forall_mem_cons.1 hplain
    rcases parseFrom_plain h hpiece with
      ⟨rfl, rfl, rfl⟩ | ⟨cs, rfl, rfl, hcs⟩ | ⟨c, cs, rfl, hc, rfl, hcs⟩
    · exact .everything
    · cases ps with
      | nil => exact .everything
      | cons piece' ps' =>
        -- the separator behind the folders is that of a single empty one
        rw [fragment_folders]
        change Covers _ ([] ++ '/' :: (fragment cs ++ rest))
        exact .someFolders (ih hcs (by simpa using hlast) hps)
    · cases ps with
      | nil => cases hlast
      | cons piece' ps' =>
        rw [fragment_cons hc, List.cons_append]
        exact .char (ih hcs (by simpa using hlast) hps)

/-- **A pattern that begins and ends with folders, without other wildcards between them, covers every
path that contains it literally.** -/
theorem covers_of_fragmentOccurs {pattern : String} {p : Path} (h : IsEnclosed pattern)
    (hoccurs : FragmentOccurs pattern p) : GlobMatches pattern p := by
  obtain ⟨pieces, hpieces, hhead, hlast, hplain⟩ := h
  obtain ⟨-, front, rest, rfl⟩ := hoccurs
  have hparse : parse pattern.toList = .ok pieces := by
    cases hparse : parse pattern.toList with
    | error fault =>
      rw [hparse] at hpieces
      cases hpieces
    | ok pieces' =>
      rw [hparse] at hpieces
      cases hpieces
      rfl
  refine ⟨pieces, hparse, ?_⟩
  cases pieces with
  | nil => cases hhead
  | cons piece ps =>
    obtain ⟨hpiece, hps⟩ := List.forall_mem_cons.1 hplain
    rcases parseFrom_plain hparse hpiece with
      ⟨-, rfl, rfl⟩ | ⟨cs, hcs, rfl, hrest⟩ | ⟨c, cs, -, -, rfl, -⟩
    · exact .everything
    · cases ps with
      | nil => exact .everything
      | cons piece' ps' =>
        have hcovers := covers_fragment_append hrest (by simpa using hlast) hps rest
        rw [hcs, fragment_folders, List.append_assoc]
        exact .someFolders hcovers
    · cases hhead

/-- **Patterns leave out the paths that one of them matches as a glob, and the paths that contain one
of them literally.**  The second sort adds nothing for a pattern that begins and ends with folders and
has no other wildcard. -/
theorem any_leavesOut_iff {patterns : List String} {excludes : List Exclude}
    (h : patterns.mapM ofPattern = .ok excludes) (p : Path) :
    (excludes.any (·.leavesOut p) = true ↔
        ∃ pattern ∈ patterns, GlobMatches pattern p ∨ FragmentOccurs pattern p) ∧
      ∀ pattern ∈ patterns, IsEnclosed pattern → FragmentOccurs pattern p →
        GlobMatches pattern p :=
  ⟨any_leavesOut h p, fun _ _ => covers_of_fragmentOccurs⟩

/-- One of the patterns that are used unless others are configured. -/
theorem any_leavesOut_iff_venv :
    let patterns := ["**/venv/**", "api"]
    let p : Path := "/p/venv/x.py".toList
    ∃ excludes, patterns.mapM ofPattern = .ok excludes ∧ IsEnclosed "**/venv/**" ∧
      FragmentOccurs "**/venv/**" p ∧ GlobMatches "**/venv/**" p ∧
        excludes.any (·.leavesOut p) = true := by
  intro patterns p
  obtain ⟨excludes, hexcludes⟩ : ∃ excludes, patterns.mapM ofPattern = .ok excludes := ⟨_, rfl⟩
  have henclosed : IsEnclosed "**/venv/**" := by decide
  have hoccurs : FragmentOccurs "**/venv/**" p :=
    ⟨by decide, "/p".toList, "x.py".toList, rfl⟩
  obtain ⟨hany, hfragment⟩ := any_leavesOut_iff hexcludes p
  have hglob := hfragment "**/venv/**" List.mem_cons_self henclosed hoccurs
  exact ⟨excludes, hexcludes, henclosed, hoccurs, hglob,
    hany.2 ⟨_, List.mem_cons_self, .inl hglob⟩⟩

/-- A plain word leaves out a path that contains it, although as a glob it matches no path but
itself. -/
theorem leavesOut_of_plain_word :
    let p : Path := "/p/rapid/views.py".toList
    ∃ excludes, ["api"].mapM ofPattern = .ok excludes ∧ excludes.any (·.leavesOut p) = true ∧
      ¬∃ pattern ∈ ["api"], GlobMatches pattern p := by
  refine ⟨[⟨"api".toList, [.char 'a', .char 'p', .char 'i']⟩], rfl, by decide, ?_⟩
  rintro ⟨pattern, hpattern, pieces, hparse, hcovers⟩
  obtain rfl := List.mem_singleton.1 hpattern
  cases hparse
  cases hcovers

end PermissionLint.Exclude
