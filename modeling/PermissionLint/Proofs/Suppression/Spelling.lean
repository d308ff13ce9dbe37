/-
What suppression does not see: the case of letters and the way lines end.

Of a line only two things matter, whether it goes on and which directive it holds; `sight` is both,
and texts whose lines look alike in this sense decide alike (`decide_congr`).  A line looks as it
does in small letters (`sight_lowerCase`), and white space at its end makes no difference
(`sight_concat`).  With a carriage return before each line feed a line has at most one more at its
end, for the one that is taken off with the line feed is the new one (`sight_chomp_withReturns`).
-/
import PermissionLint.Proofs.Suppression.Directive

namespace PermissionLint.Suppression

open PermissionLint.Text

/-! ## What matters of a line -/

/-- What matters of a line: whether it goes on, and the directive on it. -/
def sight (line : List Char) : Bool × Option Directive := (continues line, parseDirective line)

/-- Lines that look alike have the same directive, on the first one or on those it is continued
onto. -/
lemma findSome?_chain_congr {ls ls' : List (List Char)} (h : ls.map sight = ls'.map sight) :
    (chain ls).findSome? parseDirective = (chain ls').findSome? parseDirective := by
  induction ls generalizing ls' with
  | nil => rw [List.map_eq_nil_iff.1 h.symm]
  | cons line ls ih =>
    obtain ⟨line', ls', rfl, hline, hls⟩ := List.map_eq_cons_iff.1 h.symm
    obtain ⟨hcontinues, hdirective⟩ := Prod.mk.inj hline
    rw [chain, chain, hcontinues]
    split
    · rw [List.findSome?_cons, List.findSome?_cons, hdirective, ih hls.symm]
    · rw [List.findSome?_singleton, List.findSome?_singleton, hdirective]

/-- **Texts whose lines look alike decide alike.** -/
theorem decide_congr {text text' code code' : List Char}
    (htext : (lines text).map sight = (lines text').map sight)
    (hcode : upperCase code = upperCase code') (n : Nat) :
    decide text n code = decide text' n code' := by
  cases n with
  | zero => rfl
  | succ n =>
    have hdrop : ((lines text).drop n).map sight = ((lines text').drop n).map sight := by
      rw [List.map_drop, htext, List.map_drop]
    rw [decide_succ, decide_succ, findSome?_chain_congr hdrop]
    cases (chain ((lines text').drop n)).findSome? parseDirective with
    | none => rfl
    | some d =>
      cases d with
      | all => rfl
      | codes cs => rw [decisionOf, decisionOf, Directive.decide, Directive.decide, hcode]

/-! ## Small letters -/

/-- The text in small letters, as far as its letters are those of ASCII. -/
def lowerCase (cs : List Char) : List Char := cs.map Char.toLower

/-- The character is no letter of ASCII. -/
def IsNoLetter (c : Char) : Prop :=
  c.toNat < 0x41 ∨ 0x5A < c.toNat ∧ c.toNat < 0x61 ∨ 0x7A < c.toNat

instance : DecidablePred IsNoLetter := fun c =>
  inferInstanceAs (Decidable (c.toNat < 0x41 ∨ 0x5A < c.toNat ∧ c.toNat < 0x61 ∨ 0x7A < c.toNat))

lemma toLower_eq_iff {c d : Char} (hd : IsNoLetter d) : c.toLower = d ↔ c = d := by
  rw [← Char.toNat_inj, ← Char.toNat_inj, toNat_toLower]
  simp only [IsNoLetter] at hd
  split <;> omega

lemma toLower_beq {d : Char} (hd : IsNoLetter d) (c : Char) : (c.toLower == d) = (c == d) := by
  rw [Bool.eq_iff_iff, beq_iff_eq, beq_iff_eq, toLower_eq_iff hd]

@[simp]
lemma isBlank_toLower (c : Char) : isBlank c.toLower = isBlank c := by
  simp only [isBlank, toNat_toLower]
  split
  · rw [Bool.eq_iff_iff]
    simp
    omega
  · rfl

lemma isAlpha_iff {c : Char} :
    c.isAlpha = true ↔ 0x41 ≤ c.toNat ∧ c.toNat ≤ 0x5A ∨ 0x61 ≤ c.toNat ∧ c.toNat ≤ 0x7A := by
  change (('A'.val ≤ c.val ∧ c.val ≤ 'Z'.val) || ('a'.val ≤ c.val && c.val ≤ 'z'.val)) = true ↔ _
  simp [UInt32.le_iff_toNat_le]

lemma isDigit_iff {c : Char} : c.isDigit = true ↔ 0x30 ≤ c.toNat ∧ c.toNat ≤ 0x39 := by
  simp [Char.isDigit, UInt32.le_iff_toNat_le]

@[simp]
lemma isAlpha_toLower (c : Char) : c.toLower.isAlpha = c.isAlpha := by
  rw [Bool.eq_iff_iff, isAlpha_iff, isAlpha_iff, toNat_toLower]
  split <;> omega

@[simp]
lemma isDigit_toLower (c : Char) : c.toLower.isDigit = c.isDigit := by
  rw [Bool.eq_iff_iff, isDigit_iff, isDigit_iff, toNat_toLower]
  split <;> omega

lemma toNat_toUpper (c : Char) :
    c.toUpper.toNat = if 0x61 ≤ c.toNat ∧ c.toNat ≤ 0x7A then c.toNat - 0x20 else c.toNat := by
  have hsmall : ('a'.val ≤ c.val ∧ c.val ≤ 'z'.val) ↔ 0x61 ≤ c.toNat ∧ c.toNat ≤ 0x7A := by
    rw [UInt32.le_iff_toNat_le, UInt32.le_iff_toNat_le]
    rfl
  by_cases h : 'a'.val ≤ c.val ∧ c.val ≤ 'z'.val
  · have hbounds := hsmall.1 h
    have hupper : c.toUpper = ⟨c.val + ('A'.val - 'a'.val), _⟩ := dif_pos h
    have hval : c.val.toNat = c.toNat := rfl
    have hdistance : ('A'.val - 'a'.val).toNat = 0xFFFFFFE0 := by decide
    rw [if_pos hbounds]
    change c.toUpper.val.toNat = c.toNat - 0x20
    rw [hupper, UInt32.toNat_add, hval, hdistance]
    omega
  · have hupper : c.toUpper = c := dif_neg h
    rw [hupper, if_neg (fun hc => h (hsmall.2 hc))]

@[simp]
lemma toUpper_toLower (c : Char) : c.toLower.toUpper = c.toUpper := by
  rw [← Char.toNat_inj, toNat_toUpper, toNat_toUpper, toNat_toLower]
  grind

lemma toLower_toLower (c : Char) : c.toLower.toLower = c.toLower := by
  rw [← Char.toNat_inj, toNat_toLower, toNat_toLower]
  grind

lemma upperCase_lowerCase (cs : List Char) : upperCase (lowerCase cs) = upperCase cs := by
  rw [upperCase, upperCase, lowerCase, List.map_map]
  exact List.map_congr_left fun c _ => toUpper_toLower c

/-! ## Directives in small letters -/

lemma isSeparator_toLower {c : Char} : IsSeparator c.toLower ↔ IsSeparator c := by
  rw [IsSeparator, IsSeparator, isBlank_toLower, toLower_eq_iff (by decide)]

lemma HasTokens.lowerCase {text : List Char} {ts : List (List Char)} (h : HasTokens text ts) :
    HasTokens (lowerCase text) (ts.map Suppression.lowerCase) := by
  induction h with
  | nil => exact .nil
  | separator hc h ih => exact .separator (isSeparator_toLower.2 hc) ih
  | @token token text ts hne htoken htext h ih =>
    rw [Suppression.lowerCase, List.map_append, List.map_cons]
    refine .token (fun hnil => hne (List.map_eq_nil_iff.1 hnil)) ?_ ?_ ih
    · exact List.forall_mem_map.2 fun c hc hlower => htoken c hc (isSeparator_toLower.1 hlower)
    · intro d hd
      rw [List.head?_map] at hd
      obtain ⟨c, hc, rfl⟩ := Option.map_eq_some_iff.1 hd
      exact isSeparator_toLower.2 (htext c hc)

lemma tokens_lowerCase (text : List Char) : tokens (lowerCase text) = (tokens text).map lowerCase :=
  hasTokens_iff.1 (hasTokens_iff.2 rfl).lowerCase

lemma isCode_lowerCase (token : List Char) : isCode (lowerCase token) = isCode token := by
  have halpha : Char.isAlpha ∘ Char.toLower = Char.isAlpha := funext isAlpha_toLower
  have hdigit : Char.isDigit ∘ Char.toLower = Char.isDigit := funext isDigit_toLower
  simp only [isCode, lowerCase, List.takeWhile_map, List.dropWhile_map, halpha, List.isEmpty_map,
    List.all_map, hdigit]

lemma parseCodes_lowerCase (after : List Char) :
    parseCodes (lowerCase after) = parseCodes after := by
  cases after with
  | nil => rfl
  | cons c list =>
    by_cases hc : c = ':'
    · subst hc
      have hcode : isCode ∘ lowerCase = isCode := funext isCode_lowerCase
      have hupper : upperCase ∘ lowerCase = upperCase := funext upperCase_lowerCase
      have hcodes : ((tokens (lowerCase list)).takeWhile isCode).map upperCase
          = ((tokens list).takeWhile isCode).map upperCase := by
        rw [tokens_lowerCase, List.takeWhile_map, hcode, List.map_map, hupper]
      change parseCodes (':' :: lowerCase list) = _
      rw [parseCodes, parseCodes, hcodes]
    · have hc' : c.toLower ≠ ':' := fun h => hc ((toLower_eq_iff (by decide)).1 h)
      change parseCodes (c.toLower :: lowerCase list) = _
      rw [parseCodes, parseCodes]
      · exact fun list' h => hc (List.cons.inj h).1
      · exact fun list' h => hc' (List.cons.inj h).1

lemma trimStart_lowerCase (cs : List Char) :
    trimStart (lowerCase cs) = lowerCase (trimStart cs) := by
  have hblank : isBlank ∘ Char.toLower = isBlank := funext isBlank_toLower
  rw [trimStart, lowerCase, List.dropWhile_map, hblank]
  rfl

lemma trimEnd_lowerCase (cs : List Char) : trimEnd (lowerCase cs) = lowerCase (trimEnd cs) := by
  have hreverse : (lowerCase cs).reverse = lowerCase cs.reverse := List.map_reverse.symm
  have htrim : (lowerCase cs.reverse).dropWhile isBlank = lowerCase (cs.reverse.dropWhile isBlank) :=
    trimStart_lowerCase cs.reverse
  rw [trimEnd, hreverse, htrim]
  exact List.map_reverse.symm

lemma afterWord?_lowerCase (comment : List Char) :
    afterWord? (lowerCase comment) = (afterWord? comment).map lowerCase := by
  have hlower : Char.toLower ∘ Char.toLower = Char.toLower := funext toLower_toLower
  simp only [afterWord?, trimStart_lowerCase]
  rw [lowerCase, ← List.map_take, List.map_map, hlower, ← List.map_drop]
  split <;> rfl

lemma parseDirective_lowerCase (line : List Char) :
    parseDirective (lowerCase line) = parseDirective line := by
  induction line with
  | nil => rfl
  | cons c line ih =>
    change parseDirective (c.toLower :: lowerCase line) = _
    rw [parseDirective, parseDirective, toLower_beq (by decide), ih, afterWord?_lowerCase]
    split
    · cases afterWord? line with
      | none => rfl
      | some after => exact congrArg some (parseCodes_lowerCase after)
    · rfl

lemma continues_lowerCase (line : List Char) : continues (lowerCase line) = continues line := by
  have hlast : (lowerCase (trimEnd line)).getLast? = some '\\'
      ↔ (trimEnd line).getLast? = some '\\' := by
    rw [lowerCase, List.getLast?_map, Option.map_eq_some_iff]
    simp only [toLower_eq_iff (show IsNoLetter '\\' by decide), exists_eq_right]
  have hhash : '#' ∈ lowerCase line ↔ '#' ∈ line := by
    rw [lowerCase, List.mem_map]
    simp only [toLower_eq_iff (show IsNoLetter '#' by decide), exists_eq_right]
  rw [Bool.eq_iff_iff]
  simp only [continues, trimEnd_lowerCase, Bool.and_eq_true, beq_iff_eq, hlast, Bool.not_eq_true',
    List.contains_eq_mem, decide_eq_false_iff_not, hhash]

/-- A line looks as it does in small letters. -/
lemma sight_lowerCase (line : List Char) : sight (lowerCase line) = sight line := by
  rw [sight, sight, continues_lowerCase, parseDirective_lowerCase]

/-! ## Lines in small letters -/

lemma linesInclusive_lowerCase (text : List Char) :
    linesInclusive (lowerCase text) = (linesInclusive text).map lowerCase := by
  induction text with
  | nil => rfl
  | cons c text ih =>
    change linesInclusive (c.toLower :: lowerCase text) = _
    rw [linesInclusive, linesInclusive, toLower_beq (by decide), ih]
    split
    · next hc =>
      obtain rfl := beq_iff_eq.1 hc
      rfl
    · cases linesInclusive text with
      | nil => rfl
      | cons line ls => rfl

/-! ### The ends of lines -/

lemma chomp_return_feed (body : List Char) : chomp (body ++ ['\r', '\n']) = body := by
  simp [chomp]

lemma chomp_feed {body : List Char} (h : body.getLast? ≠ some '\r') :
    chomp (body ++ ['\n']) = body := by
  rw [chomp, List.reverse_concat]
  split
  · next rest hrest =>
    have hbody : body.reverse = '\r' :: rest := (List.cons.inj hrest).2
    rw [← List.head?_reverse, hbody] at h
    exact absurd rfl h
  · next rest _ hrest =>
    have hbody : body.reverse = rest := (List.cons.inj hrest).2
    rw [← hbody, List.reverse_reverse]
  · next hfeed => exact absurd rfl (hfeed body.reverse)

lemma chomp_of_getLast?_ne {line : List Char} (h : line.getLast? ≠ some '\n') :
    chomp line = line := by
  rw [← List.head?_reverse] at h
  rw [chomp]
  split
  · next hrest => rw [hrest] at h; exact absurd rfl h
  · next hrest => rw [hrest] at h; exact absurd rfl h
  · rfl

/-- A line ends with a line feed, with a carriage return and a line feed, or with neither. -/
lemma ending_cases (line : List Char) :
    (∃ body, line = body ++ ['\r', '\n']) ∨
      (∃ body, line = body ++ ['\n'] ∧ body.getLast? ≠ some '\r') ∨
      line.getLast? ≠ some '\n' := by
  by_cases hfeed : line.getLast? = some '\n'
  · obtain ⟨body, rfl⟩ := List.getLast?_eq_some_iff.1 hfeed
    by_cases hreturn : body.getLast? = some '\r'
    · obtain ⟨body, rfl⟩ := List.getLast?_eq_some_iff.1 hreturn
      exact .inl ⟨body, by simp⟩
    · exact .inr (.inl ⟨body, rfl, hreturn⟩)
  · exact .inr (.inr hfeed)

lemma getLast?_lowerCase_ne {d : Char} (hd : IsNoLetter d) {cs : List Char}
    (h : cs.getLast? ≠ some d) : (lowerCase cs).getLast? ≠ some d := by
  rw [lowerCase, List.getLast?_map, Ne, Option.map_eq_some_iff]
  rintro ⟨c, hc, hlower⟩
  exact h (hc.trans (congrArg some ((toLower_eq_iff hd).1 hlower)))

lemma chomp_lowerCase (line : List Char) : chomp (lowerCase line) = lowerCase (chomp line) := by
  rcases ending_cases line with ⟨body, rfl⟩ | ⟨body, rfl, hreturn⟩ | hfeed
  · have happend : lowerCase (body ++ ['\r', '\n']) = lowerCase body ++ ['\r', '\n'] :=
      List.map_append
    rw [happend, chomp_return_feed, chomp_return_feed]
  · have happend : lowerCase (body ++ ['\n']) = lowerCase body ++ ['\n'] := List.map_append
    rw [happend, chomp_feed hreturn, chomp_feed (getLast?_lowerCase_ne (by decide) hreturn)]
  · rw [chomp_of_getLast?_ne hfeed, chomp_of_getLast?_ne (getLast?_lowerCase_ne (by decide) hfeed)]

lemma lines_lowerCase (text : List Char) :
    lines (lowerCase text) = (lines text).map lowerCase := by
  rw [lines, lines, linesInclusive_lowerCase, List.map_map, List.map_map]
  exact List.map_congr_left fun line _ => chomp_lowerCase line

/-- The lines of a text look as they do in small letters. -/
lemma map_sight_lines_lowerCase (text : List Char) :
    (lines (lowerCase text)).map sight = (lines text).map sight := by
  rw [lines_lowerCase, List.map_map]
  exact List.map_congr_left fun line _ => sight_lowerCase line

/-! ## White space at the end of a line -/

section

variable {c : Char} (hc : isBlank c = true)

include hc

lemma continues_concat (line : List Char) : continues (line ++ [c]) = continues line := by
  have htrim : trimEnd (line ++ [c]) = trimEnd line := by
    rw [trimEnd, List.reverse_concat, List.dropWhile_cons_of_pos hc, trimEnd]
  have hhash : ¬ '#' ∈ [c] := by
    rw [List.mem_singleton]
    rintro rfl
    exact Bool.false_ne_true hc
  rw [continues, continues, htrim, List.contains_eq_mem, List.contains_eq_mem]
  simp only [List.mem_append, hhash, or_false]

lemma tokens_concat (text : List Char) : tokens (text ++ [c]) = tokens text := by
  have hseparator : (c == ',' || isBlank c) = true := by rw [hc, Bool.or_true]
  rw [tokens, List.splitOnP_append_cons (p := fun c => c == ',' || isBlank c) text [] hseparator,
    List.filter_append, List.splitOnP_nil]
  exact List.append_nil _

lemma parseCodes_concat (after : List Char) : parseCodes (after ++ [c]) = parseCodes after := by
  have hcolon : c ≠ ':' := by
    rintro rfl
    exact Bool.false_ne_true hc
  cases after with
  | nil =>
    rw [List.nil_append, parseCodes, parseCodes]
    · simp
    · exact fun list h => hcolon (List.cons.inj h).1
  | cons d list =>
    by_cases hd : d = ':'
    · subst hd
      rw [List.cons_append, parseCodes, parseCodes, tokens_concat hc]
    · rw [List.cons_append, parseCodes, parseCodes]
      · exact fun list' h => hd (List.cons.inj h).1
      · exact fun list' h => hd (List.cons.inj h).1

/-- White space is none of the four letters of the word. -/
lemma length_of_take_concat {text : List Char}
    (h : ((text ++ [c]).take 4).map Char.toLower = ['n', 'o', 'q', 'a']) : 4 ≤ text.length := by
  by_contra hlength
  rw [List.take_of_length_le (by rw [List.length_append, List.length_singleton]; omega),
    List.map_append] at h
  have hsplit : text.map Char.toLower ++ [c.toLower] = ['n', 'o', 'q'] ++ ['a'] := h
  have hlast : [c.toLower] = ['a'] := (List.append_inj' hsplit rfl).2
  rw [← isBlank_toLower, (List.cons.inj hlast).1] at hc
  exact Bool.false_ne_true hc

/-- White space behind a comment is behind the word, if that is there at all. -/
lemma afterWord?_concat (comment : List Char) :
    afterWord? (comment ++ [c]) = (afterWord? comment).map (· ++ [c]) := by
  have htrim : trimStart (comment ++ [c])
      = if (trimStart comment).isEmpty then [] else trimStart comment ++ [c] := by
    rw [trimStart, trimStart, List.dropWhile_append, List.dropWhile_cons_of_pos hc,
      List.dropWhile_nil]
  simp only [afterWord?, htrim]
  generalize trimStart comment = text
  by_cases hlength : 4 ≤ text.length
  · have hne : ¬ text.isEmpty = true := by
      rw [List.isEmpty_iff_length_eq_zero]
      omega
    rw [if_neg hne, List.take_append_of_le_length hlength, List.drop_append_of_le_length hlength]
    split <;> rfl
  · have hword : ¬ (text.take 4).map Char.toLower = ['n', 'o', 'q', 'a'] := by
      intro h
      have hcount : min 4 text.length = 4 := by simpa using congrArg List.length h
      omega
    rw [if_neg (c := ((text.take 4).map Char.toLower == _) = true) (by rwa [beq_iff_eq])]
    split
    · rfl
    · refine if_neg fun h => hlength (length_of_take_concat hc ?_)
      rwa [beq_iff_eq] at h

lemma parseDirective_concat (line : List Char) :
    parseDirective (line ++ [c]) = parseDirective line := by
  induction line with
  | nil =>
    refine parseDirective_of_not_mem ?_
    rw [List.nil_append, List.mem_singleton]
    rintro rfl
    exact Bool.false_ne_true hc
  | cons d line ih =>
    rw [List.cons_append, parseDirective, parseDirective, ih, afterWord?_concat hc]
    split
    · cases afterWord? line with
      | none => rfl
      | some after => exact congrArg some (parseCodes_concat hc after)
    · rfl

/-- White space at the end of a line makes no difference. -/
lemma sight_concat (line : List Char) : sight (line ++ [c]) = sight line := by
  rw [sight, sight, continues_concat hc, parseDirective_concat hc]

end

/-! ## Carriage returns -/

/-- The text with a carriage return put before each line feed. -/
def withReturns (text : List Char) : List Char :=
  text.flatMap fun c => if c = '\n' then ['\r', '\n'] else [c]

lemma withReturns_cons {c : Char} (hc : c ≠ '\n') (text : List Char) :
    withReturns (c :: text) = c :: withReturns text := by
  rw [withReturns, List.flatMap_cons, if_neg hc]
  rfl

lemma withReturns_append (text text' : List Char) :
    withReturns (text ++ text') = withReturns text ++ withReturns text' := List.flatMap_append

lemma withReturns_of_not_mem {text : List Char} (h : '\n' ∉ text) : withReturns text = text := by
  induction text with
  | nil => rfl
  | cons c text ih =>
    obtain ⟨hc, htext⟩ := not_or.1 (List.mem_cons.not.1 h)
    rw [withReturns_cons (Ne.symm hc), ih htext]

/-- A line keeps its line feed, so the lines of the text are the lines there were. -/
lemma linesInclusive_withReturns (text : List Char) :
    linesInclusive (withReturns text) = (linesInclusive text).map withReturns := by
  induction text with
  | nil => rfl
  | cons c text ih =>
    by_cases hc : c = '\n'
    · subst hc
      change linesInclusive ('\r' :: '\n' :: withReturns text) = _
      rw [linesInclusive, linesInclusive, linesInclusive, ih]
      rfl
    · rw [withReturns_cons hc, linesInclusive, linesInclusive, if_neg (by simpa using hc),
        if_neg (by simpa using hc), ih]
      cases linesInclusive text with
      | nil =>
        rw [List.map_nil, List.map_singleton, withReturns_cons hc]
        rfl
      | cons line ls => rw [List.map_cons, List.map_cons, withReturns_cons hc]

/-- A line feed is at the end of its line. -/
lemma not_mem_dropLast_of_mem_linesInclusive {text line : List Char}
    (h : line ∈ linesInclusive text) : line ≠ [] ∧ '\n' ∉ line.dropLast := by
  induction text generalizing line with
  | nil => exact absurd h List.not_mem_nil
  | cons c text ih =>
    rw [linesInclusive] at h
    split at h
    · rcases List.mem_cons.1 h with rfl | h
      · exact ⟨List.cons_ne_nil _ _, List.not_mem_nil⟩
      · exact ih h
    · next hc =>
      rw [beq_iff_eq] at hc
      cases hlines : linesInclusive text with
      | nil =>
        rw [hlines] at h
        rw [List.mem_singleton.1 h]
        exact ⟨List.cons_ne_nil _ _, List.not_mem_nil⟩
      | cons first ls =>
        rw [hlines] at h ih
        rcases List.mem_cons.1 h with rfl | h
        · obtain ⟨hne, hfirst⟩ := ih List.mem_cons_self
          rw [List.dropLast_cons_of_ne_nil hne]
          exact ⟨List.cons_ne_nil _ _, List.not_mem_cons_of_ne_of_not_mem (Ne.symm hc) hfirst⟩
        · exact ih (List.mem_cons_of_mem _ h)

/-- A line that ends with a carriage return and a line feed keeps a carriage return; any other is
the line it was. -/
lemma sight_chomp_withReturns {line : List Char} (h : '\n' ∉ line.dropLast) :
    sight (chomp (withReturns line)) = sight (chomp line) := by
  rcases ending_cases line with ⟨body, rfl⟩ | ⟨body, rfl, hreturn⟩ | hfeed
  · have hsplit : body ++ ['\r', '\n'] = (body ++ ['\r']) ++ ['\n'] := by simp
    rw [hsplit, List.dropLast_concat] at h
    have hline : withReturns (body ++ ['\r', '\n']) = (body ++ ['\r']) ++ ['\r', '\n'] := by
      rw [hsplit, withReturns_append, withReturns_of_not_mem h]
      rfl
    rw [hline, chomp_return_feed, chomp_return_feed, sight_concat (by decide)]
  · rw [List.dropLast_concat] at h
    have hline : withReturns (body ++ ['\n']) = body ++ ['\r', '\n'] := by
      rw [withReturns_append, withReturns_of_not_mem h]
      rfl
    rw [hline, chomp_return_feed, chomp_feed hreturn]
  · have hline : '\n' ∉ line := by
      rcases List.eq_nil_or_concat' line with rfl | ⟨body, c, rfl⟩
      · exact List.not_mem_nil
      · rw [List.dropLast_concat] at h
        rw [List.getLast?_concat, Ne, Option.some_inj] at hfeed
        rw [List.mem_append, List.mem_singleton]
        exact not_or.2 ⟨h, Ne.symm hfeed⟩
    rw [withReturns_of_not_mem hline]

lemma map_sight_lines_withReturns (text : List Char) :
    (lines (withReturns text)).map sight = (lines text).map sight := by
  rw [lines, lines, linesInclusive_withReturns, List.map_map, List.map_map, List.map_map]
  exact List.map_congr_left fun line hline =>
    sight_chomp_withReturns (not_mem_dropLast_of_mem_linesInclusive hline).2

/-! ## Spelling -/

/-- The texts differ at most in the case of letters of ASCII. -/
def SameButCase (text text' : List Char) : Prop := lowerCase text = lowerCase text'

instance (text text' : List Char) : Decidable (SameButCase text text') :=
  inferInstanceAs (Decidable (lowerCase text = lowerCase text'))

/-- **Spelling does not matter.**  The decision, with the codes it reports, is the same for texts
and codes that differ in the case of letters, and for a text whose line feeds have each got a
carriage return in front. -/
theorem decide_spelling (text code : List Char) (n : Nat) :
    (∀ text' code', SameButCase text text' → SameButCase code code' →
        decide text n code = decide text' n code') ∧
      decide (withReturns text) n code = decide text n code := by
  refine ⟨fun text' code' htext hcode => decide_congr ?_ ?_ n,
    decide_congr (map_sight_lines_withReturns text) rfl n⟩
  · rw [← map_sight_lines_lowerCase text, htext, map_sight_lines_lowerCase]
  · rw [← upperCase_lowerCase code, hcode, upperCase_lowerCase]

/-- A continued line with a directive in capital letters, and lines of which one ends with a
carriage return already. -/
theorem decide_spelling_continued :
    let text := "x = \\\r\n[]  # NOQA: pdr0, E501\n".toList
    let text' := "X = \\\r\n[]  # noqa: PDR0, e501\n".toList
    let decision := Decision.suppressed (some ["PDR0".toList, "E501".toList])
    SameButCase text text' ∧ SameButCase "PDR001".toList "pdr001".toList ∧
      withReturns text = "x = \\\r\r\n[]  # NOQA: pdr0, E501\r\n".toList ∧
      decide text 1 "PDR001".toList = decision ∧ decide text' 1 "pdr001".toList = decision ∧
      decide (withReturns text) 1 "PDR001".toList = decision := by
  intro text text' decision
  have hdecide : decide text 1 "PDR001".toList = decision := by decide
  have hcase : SameButCase text text' := by decide
  have hcode : SameButCase "PDR001".toList "pdr001".toList := by decide
  obtain ⟨hsame, hreturns⟩ := decide_spelling text "PDR001".toList 1
  exact ⟨hcase, hcode, by decide, hdecide, (hsame text' _ hcase hcode).symm.trans hdecide,
    hreturns.trans hdecide⟩

end PermissionLint.Suppression
