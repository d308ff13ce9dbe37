/-
The grammar of directives.

A directive is a hash, white space and four bytes that spell the word in upper or lower case.  These
bytes are whole characters, so what follows them is a text (`exists_after_of_spellsWord`).  Of several
directives on a line the leftmost one is read (`parseDirective_eq_some_iff`).  Behind the word there
may be a colon and a list of codes, which reaches as far as its tokens are codes
(`parseCodes_eq_codes_iff`); tokens are what stands between commas and white space (`hasTokens_iff`).
The main result, `parseDirective_grammar`, puts this together and says what it means for a text of
one line.
-/
import Mathlib.Data.List.TakeWhile
import Mathlib.Data.Nat.Find
import PermissionLint.Proofs.Suppression
import PermissionLint.Proofs.Text.Utf8

namespace PermissionLint

open PermissionLint.Text

namespace Suppression

/-! ## The word -/

/-- The byte, with a capital letter of ASCII made small. -/
def lowerByte (b : UInt8) : UInt8 :=
  if 0x41 ≤ b.toNat ∧ b.toNat ≤ 0x5A then UInt8.ofNat (b.toNat + 0x20) else b

/-- The first four bytes of the text spell the word `noqa` in upper or lower case. -/
def SpellsWord (text : List Char) : Prop :=
  ((Utf8.encode text).take 4).map lowerByte = Utf8.encode "noqa".toList

/-- A small letter of ASCII. -/
def IsSmall (c : Char) : Prop := 0x61 ≤ c.toNat ∧ c.toNat ≤ 0x7A

lemma toNat_toLower (c : Char) :
    c.toLower.toNat = if 0x41 ≤ c.toNat ∧ c.toNat ≤ 0x5A then c.toNat + 0x20 else c.toNat := by
  have hcapital : (c.val ≥ 'A'.val ∧ c.val ≤ 'Z'.val) ↔ 0x41 ≤ c.toNat ∧ c.toNat ≤ 0x5A := by
    rw [ge_iff_le, UInt32.le_iff_toNat_le, UInt32.le_iff_toNat_le]
    rfl
  by_cases h : c.val ≥ 'A'.val ∧ c.val ≤ 'Z'.val
  · have hbounds := hcapital.1 h
    have hlower : c.toLower.val = c.val + ('a'.val - 'A'.val) := congrArg Char.val (dif_pos h)
    rw [if_pos hbounds]
    change c.toLower.val.toNat = c.toNat + 0x20
    rw [hlower, UInt32.toNat_add]
    change (c.toNat + 0x20) % 2 ^ 32 = _
    omega
  · have hlower : c.toLower = c := dif_neg h
    rw [hlower, if_neg (fun hc => h (hcapital.2 hc))]

lemma lowerByte_eq_iff {c d : Char} (hc : c.toNat < 0x80) (hd : IsSmall d) :
    lowerByte (UInt8.ofNat c.toNat) = UInt8.ofNat d.toNat ↔ c.toLower = d := by
  have hchar : c.toLower = d ↔ c.toLower.toNat = d.toNat := Char.toNat_inj.symm
  obtain ⟨hlow, hhigh⟩ := hd
  have hbyte : c.toNat % 2 ^ 8 = c.toNat := by omega
  rw [hchar, toNat_toLower, ← UInt8.toNat_inj, lowerByte, UInt8.toNat_ofNat', hbyte]
  split <;> rw [UInt8.toNat_ofNat'] <;> simp <;> omega

/-- Bytes spell a word of small letters if and only if they are characters that do. -/
lemma map_lowerByte_eq_iff {word : List Char} (hword : ∀ d ∈ word, IsSmall d) (text : List Char) :
    ((Utf8.encode text).take word.length).map lowerByte = Utf8.encode word ↔
      (text.take word.length).map Char.toLower = word := by
  induction word generalizing text with
  | nil => simp [Utf8.encode]
  | cons d word ih =>
    obtain ⟨hd, hword⟩ := List.forall_mem_cons.1 hword
    have hsmall : String.utf8EncodeChar d = [UInt8.ofNat d.toNat] := by
      rcases Utf8.utf8EncodeChar_cases d with ⟨-, hd'⟩ | ⟨hd', -⟩
      · exact hd'
      · have hhigh := hd.2
        omega
    rw [Utf8.encode_cons d, hsmall, List.singleton_append, List.length_cons]
    cases text with
    | nil => simp [Utf8.encode]
    | cons c text =>
      rw [Utf8.encode_cons c]
      rcases Utf8.utf8EncodeChar_cases c with ⟨hc, hbytes⟩ | ⟨hc, b, bs, hbytes, hb⟩
      · rw [hbytes, List.singleton_append, List.take_succ_cons, List.map_cons, List.take_succ_cons,
          List.map_cons, List.cons.injEq, List.cons.injEq, lowerByte_eq_iff hc hd, ih hword]
      · -- neither the character nor its first byte is one of ASCII
        have hbyte : lowerByte b ≠ UInt8.ofNat d.toNat := by
          rw [lowerByte, if_neg (by omega), Ne, ← UInt8.toNat_inj, UInt8.toNat_ofNat']
          have := hd.2
          omega
        have hchar : c.toLower ≠ d := by
          rw [Ne, ← Char.toNat_inj, toNat_toLower, if_neg (by omega)]
          have := hd.2
          omega
        rw [hbytes, List.cons_append, List.take_succ_cons, List.map_cons, List.take_succ_cons,
          List.map_cons, List.cons.injEq, List.cons.injEq]
        simp only [hbyte, hchar, false_and]

lemma spellsWord_iff {text : List Char} :
    SpellsWord text ↔ (text.take 4).map Char.toLower = ['n', 'o', 'q', 'a'] := by
  have hsmall : ∀ d ∈ ['n', 'o', 'q', 'a'], IsSmall d := by simp [IsSmall]
  exact map_lowerByte_eq_iff hsmall text

/-- The four bytes are those of four characters. -/
lemma encode_drop_of_spellsWord {text : List Char} (h : SpellsWord text) :
    Utf8.encode (text.drop 4) = (Utf8.encode text).drop 4 := by
  refine (Utf8.encode_take_of_ascii fun c hc => ?_).2
  have hmem : c.toLower ∈ ['n', 'o', 'q', 'a'] := by
    rw [← spellsWord_iff.1 h]
    exact List.mem_map_of_mem hc
  have hlower : c.toLower.toNat < 0x80 := by
    generalize c.toLower = d at hmem
    simp only [List.mem_cons, List.not_mem_nil, or_false] at hmem
    rcases hmem with rfl | rfl | rfl | rfl <;> decide
  rw [toNat_toLower] at hlower
  split at hlower <;> omega

/-! ## Directives -/

/-- The text behind a hash is a directive: after white space come the four bytes of the word, and
`after` is the text that the remaining bytes are. -/
def IsDirective (comment after : List Char) : Prop :=
  ∃ blanks text, comment = blanks ++ text ∧ (∀ c ∈ blanks, isBlank c = true) ∧ SpellsWord text ∧
    Utf8.encode after = (Utf8.encode text).drop 4

/-- The word does not begin with white space. -/
lemma trimStart_of_spellsWord {text : List Char} (h : SpellsWord text) : trimStart text = text := by
  rw [spellsWord_iff] at h
  cases text with
  | nil => rfl
  | cons c text =>
    have hc : c.toLower = 'n' := (List.cons.inj h).1
    have hnat : c.toLower.toNat = 0x6E := by rw [hc]; rfl
    have hblank : isBlank c = false := by
      rw [toNat_toLower] at hnat
      simp only [isBlank]
      split at hnat <;> simp <;> omega
    rw [trimStart, List.dropWhile_cons_of_neg (by simp [hblank])]

lemma trimStart_append {blanks text : List Char} (hblanks : ∀ c ∈ blanks, isBlank c = true)
    (h : SpellsWord text) : trimStart (blanks ++ text) = text := by
  rw [trimStart, List.dropWhile_append_of_pos hblanks]
  exact trimStart_of_spellsWord h

lemma afterWord?_eq_some_iff {comment after : List Char} :
    afterWord? comment = some after ↔ IsDirective comment after := by
  constructor
  · intro h
    rw [afterWord?] at h
    split at h
    · next hword =>
      have hspells : SpellsWord (trimStart comment) := spellsWord_iff.2 (by simpa using hword)
      refine ⟨comment.takeWhile isBlank, trimStart comment, ?_, ?_, hspells, ?_⟩
      · exact List.takeWhile_append_dropWhile.symm
      · exact fun c hc => List.mem_takeWhile_imp hc
      · rw [← Option.some.inj h]
        exact encode_drop_of_spellsWord hspells
    · cases h
  · rintro ⟨blanks, text, rfl, hblanks, hspells, hafter⟩
    have hword := spellsWord_iff.1 hspells
    have hdrop : after = text.drop 4 :=
      Utf8.encode_injective (hafter.trans (encode_drop_of_spellsWord hspells).symm)
    simp only [afterWord?, trimStart_append hblanks hspells, hword, hdrop, BEq.rfl, if_true]

/-- There is a directive at the end of the line, behind a front. -/
def DirectiveBehind (line front after : List Char) : Prop :=
  ∃ comment, line = front ++ '#' :: comment ∧ IsDirective comment after

/-- What is behind the word of the leftmost directive of a line. -/
def LeftmostDirective (line after : List Char) : Prop :=
  ∃ front, DirectiveBehind line front after ∧
    ∀ front' after', DirectiveBehind line front' after' → front.length ≤ front'.length

/-- A directive behind at least one character is one of the rest of the line. -/
lemma directiveBehind_cons {c : Char} {line front after : List Char} :
    DirectiveBehind (c :: line) (c :: front) after ↔ DirectiveBehind line front after := by
  simp only [DirectiveBehind, List.cons_append, List.cons.injEq, true_and]

lemma directiveBehind_nil {c : Char} {line after : List Char} :
    DirectiveBehind (c :: line) [] after ↔ c = '#' ∧ afterWord? line = some after := by
  rw [afterWord?_eq_some_iff]
  simp only [DirectiveBehind, List.nil_append, List.cons.injEq]
  constructor
  · rintro ⟨comment, ⟨rfl, rfl⟩, h⟩
    exact ⟨rfl, h⟩
  · rintro ⟨rfl, h⟩
    exact ⟨line, ⟨rfl, rfl⟩, h⟩

/-- A directive that is not at the front of the line is behind the first character. -/
lemma exists_of_directiveBehind {c : Char} {line front after : List Char}
    (h : DirectiveBehind (c :: line) front after)
    (hfirst : ¬ DirectiveBehind (c :: line) [] after) :
    ∃ front', front = c :: front' ∧ DirectiveBehind line front' after := by
  cases front with
  | nil => exact absurd h hfirst
  | cons d front =>
    obtain ⟨comment, hline, hcomment⟩ := h
    obtain ⟨rfl, rfl⟩ := List.cons.inj hline
    exact ⟨front, rfl, comment, rfl, hcomment⟩

/-- Without a directive at its front, a line has the leftmost directive of the rest. -/
lemma leftmostDirective_cons {c : Char} {line after : List Char}
    (hfirst : ∀ after, ¬ DirectiveBehind (c :: line) [] after) :
    LeftmostDirective (c :: line) after ↔ LeftmostDirective line after := by
  constructor
  · rintro ⟨front, hfront, hleast⟩
    obtain ⟨rest, rfl, hrest⟩ := exists_of_directiveBehind hfront (hfirst after)
    refine ⟨rest, hrest, fun front' after' h => ?_⟩
    exact Nat.le_of_succ_le_succ (hleast (c :: front') after' (directiveBehind_cons.2 h))
  · rintro ⟨front, hfront, hleast⟩
    refine ⟨c :: front, directiveBehind_cons.2 hfront, fun front' after' h => ?_⟩
    obtain ⟨rest, rfl, hrest⟩ := exists_of_directiveBehind h (hfirst after')
    exact Nat.succ_le_succ (hleast rest after' hrest)

/-- A directive at the front of a line is the leftmost one. -/
lemma leftmostDirective_of_first {line after after' : List Char}
    (hfirst : DirectiveBehind line [] after) : LeftmostDirective line after' ↔ after = after' := by
  constructor
  · rintro ⟨front, hfront, hleast⟩
    obtain rfl : front = [] := List.length_eq_zero_iff.1 (Nat.le_zero.1 (hleast [] after hfirst))
    cases line with
    | nil => cases hfirst.choose_spec.1
    | cons c line =>
      exact Option.some.inj ((directiveBehind_nil.1 hfirst).2.symm.trans
        (directiveBehind_nil.1 hfront).2)
  · rintro rfl
    exact ⟨[], hfirst, fun front' _ _ => Nat.zero_le front'.length⟩

/-- **The leftmost directive of a line is read.** -/
theorem parseDirective_eq_some_iff {line : List Char} {d : Directive} :
    parseDirective line = some d ↔ ∃ after, LeftmostDirective line after ∧ parseCodes after = d := by
  induction line with
  | nil => simp [parseDirective, LeftmostDirective, DirectiveBehind]
  | cons c line ih =>
    rw [parseDirective]
    by_cases hc : c = '#'
    · rw [if_pos (by simpa using hc)]
      cases hafter : afterWord? line with
      | some after =>
        have hfirst := directiveBehind_nil.2 ⟨hc, hafter⟩
        simp only [leftmostDirective_of_first hfirst, exists_eq_left', Option.some.injEq]
      | none =>
        have hfirst : ∀ after, ¬ DirectiveBehind (c :: line) [] after := by
          intro after h
          rw [(directiveBehind_nil.1 h).2] at hafter
          cases hafter
        simp only [leftmostDirective_cons hfirst, ih]
    · have hfirst : ∀ after, ¬ DirectiveBehind (c :: line) [] after :=
        fun after h => hc (directiveBehind_nil.1 h).1
      rw [if_neg (by simpa using hc)]
      simp only [leftmostDirective_cons hfirst, ih]

/-! ## Lists of codes -/

/-- The character stands between tokens. -/
def IsSeparator (c : Char) : Prop := c = ',' ∨ isBlank c = true

/-- The tokens of a text are its longest runs of characters that are no separators. -/
inductive HasTokens : List Char → List (List Char) → Prop
  | nil : HasTokens [] []
  | separator {c : Char} {text : List Char} {ts : List (List Char)} (hc : IsSeparator c)
    (h : HasTokens text ts) : HasTokens (c :: text) ts
  | token {token text : List Char} {ts : List (List Char)} (hne : token ≠ [])
    (htoken : ∀ c ∈ token, ¬ IsSeparator c) (htext : ∀ c ∈ text.head?, IsSeparator c)
    (h : HasTokens text ts) : HasTokens (token ++ text) (token :: ts)

lemma isSeparator_iff {c : Char} : (c == ',' || isBlank c) = true ↔ IsSeparator c := by
  rw [Bool.or_eq_true, beq_iff_eq, IsSeparator]

lemma separator_eq_false {c : Char} (h : ¬ IsSeparator c) : (c == ',' || isBlank c) = false :=
  Bool.eq_false_iff.2 (mt isSeparator_iff.1 h)

lemma tokens_cons {c : Char} (hc : IsSeparator c) (text : List Char) :
    tokens (c :: text) = tokens text := by
  rw [tokens, List.splitOnP_cons_eq_if_modifyHead, if_pos (isSeparator_iff.2 hc), List.filter_cons_of_neg (by simp)]
  rfl

lemma tokens_append {token text : List Char} (hne : token ≠ [])
    (htoken : ∀ c ∈ token, ¬ IsSeparator c) (htext : ∀ c ∈ text.head?, IsSeparator c) :
    tokens (token ++ text) = token :: tokens text := by
  have hpieces := fun c hc => separator_eq_false (htoken c hc)
  cases text with
  | nil =>
    rw [List.append_nil, tokens, List.splitOnP_eq_singleton hpieces,
      List.filter_cons_of_pos (by simp [hne])]
    rfl
  | cons c text =>
    have hc : IsSeparator c := htext c rfl
    rw [tokens_cons hc, tokens, List.splitOnP_append_cons_of_forall_mem hpieces c
      (isSeparator_iff.2 hc), List.filter_cons_of_pos (by simp [hne])]
    rfl

lemma HasTokens.eq {text : List Char} {ts : List (List Char)} (h : HasTokens text ts) :
    tokens text = ts := by
  induction h with
  | nil => rfl
  | separator hc h ih => rw [tokens_cons hc, ih]
  | token hne htoken htext h ih => rw [tokens_append hne htoken htext, ih]

/-- Every text has tokens: it begins with a separator, or with a token up to the next one. -/
lemma exists_hasTokens (text : List Char) : ∃ ts, HasTokens text ts := by
  induction hn : text.length using Nat.strong_induction_on generalizing text with
  | _ n ih =>
    cases text with
    | nil => exact ⟨[], .nil⟩
    | cons c rest =>
      by_cases hc : IsSeparator c
      · obtain ⟨ts, hts⟩ := ih rest.length (by simp [← hn]) rest rfl
        exact ⟨ts, .separator hc hts⟩
      · let p : Char → Bool := fun c => !(c == ',' || isBlank c)
        have hp : ∀ c, p c = true ↔ ¬ IsSeparator c := by
          intro c
          rw [Bool.not_eq_true', Bool.eq_false_iff, Ne, isSeparator_iff]
        have hfirst := List.takeWhile_append_dropWhile (p := p) (l := c :: rest)
        have hne : (c :: rest).takeWhile p ≠ [] := by
          rw [List.takeWhile_cons_of_pos ((hp c).2 hc)]
          exact List.cons_ne_nil _ _
        have hlength : ((c :: rest).dropWhile p).length < n := by
          have hsum := congrArg List.length hfirst
          rw [List.length_append] at hsum
          have hpos := List.length_pos_iff.2 hne
          omega
        obtain ⟨ts, hts⟩ := ih _ hlength _ rfl
        rw [← hfirst]
        refine ⟨_, .token hne (fun d hd => (hp d).1 (List.mem_takeWhile_imp hd)) ?_ hts⟩
        intro d hd
        by_contra hd'
        have hstop := List.head?_dropWhile_not p (c :: rest)
        rw [hd] at hstop
        exact Bool.false_ne_true (hstop.symm.trans ((hp d).2 hd'))

/-- **The tokens that are read are those of the text.** -/
theorem hasTokens_iff {text : List Char} {ts : List (List Char)} :
    HasTokens text ts ↔ tokens text = ts := by
  refine ⟨HasTokens.eq, ?_⟩
  rintro rfl
  obtain ⟨ts, hts⟩ := exists_hasTokens text
  rwa [hts.eq]

/-- A code is ASCII letters and then digits, at least one of each. -/
def IsCode (token : List Char) : Prop :=
  ∃ letters digits, token = letters ++ digits ∧ letters ≠ [] ∧ digits ≠ [] ∧
    (∀ c ∈ letters, c.isAlpha = true) ∧ ∀ c ∈ digits, c.isDigit = true

lemma isAlpha_of_isDigit {c : Char} (h : c.isDigit = true) : c.isAlpha = false := by
  have halpha : c.isAlpha = (Decidable.decide (c.val ≥ 'A'.val ∧ c.val ≤ 'Z'.val)
      || (Decidable.decide (c.val ≥ 'a'.val) && Decidable.decide (c.val ≤ 'z'.val))) := rfl
  rw [halpha]
  simp [Char.isDigit, UInt32.le_iff_toNat_le] at h ⊢
  omega

lemma isCode_iff {token : List Char} : isCode token = true ↔ IsCode token := by
  simp only [isCode, Bool.and_eq_true, Bool.not_eq_true', List.isEmpty_eq_false_iff,
    List.all_eq_true]
  constructor
  · rintro ⟨⟨hletters, hdigits⟩, hall⟩
    exact ⟨_, _, List.takeWhile_append_dropWhile.symm, hletters, hdigits,
      fun c hc => List.mem_takeWhile_imp hc, hall⟩
  · rintro ⟨letters, digits, rfl, hletters, hdigits, halpha, hdigit⟩
    -- the letters end where the digits begin
    have hstop : digits.takeWhile Char.isAlpha = [] ∧ digits.dropWhile Char.isAlpha = digits := by
      cases digits with
      | nil => exact absurd rfl hdigits
      | cons d digits =>
        have hd : d.isAlpha = false := isAlpha_of_isDigit (hdigit d List.mem_cons_self)
        exact ⟨List.takeWhile_cons_of_neg (by simp [hd]), List.dropWhile_cons_of_neg (by simp [hd])⟩
    rw [List.takeWhile_append_of_pos halpha, List.dropWhile_append_of_pos halpha, hstop.1, hstop.2,
      List.append_nil]
    exact ⟨⟨hletters, hdigits⟩, hdigit⟩

/-- The longest run of codes at the front of tokens. -/
def LeadingCodes (ts codes : List (List Char)) : Prop :=
  ∃ rest, ts = codes ++ rest ∧ (∀ t ∈ codes, IsCode t) ∧ ∀ t ∈ rest.head?, ¬ IsCode t

lemma leadingCodes_iff {ts codes : List (List Char)} :
    LeadingCodes ts codes ↔ ts.takeWhile isCode = codes := by
  constructor
  · rintro ⟨rest, rfl, hcodes, hrest⟩
    have hstop : rest.takeWhile isCode = [] := by
      cases rest with
      | nil => rfl
      | cons t rest =>
        exact List.takeWhile_cons_of_neg fun ht => hrest t rfl (isCode_iff.1 ht)
    rw [List.takeWhile_append_of_pos fun t ht => isCode_iff.2 (hcodes t ht), hstop, List.append_nil]
  · rintro rfl
    refine ⟨ts.dropWhile isCode, List.takeWhile_append_dropWhile.symm,
      fun t ht => isCode_iff.1 (List.mem_takeWhile_imp ht), fun t ht hcode => ?_⟩
    have hstop := List.head?_dropWhile_not isCode ts
    rw [ht] at hstop
    exact Bool.false_ne_true (hstop.symm.trans (isCode_iff.2 hcode))

/-- What is behind the word lists codes: a colon, and tokens of which the leading ones are the codes
in upper or lower case. -/
def ListsCodes (after : List Char) (cs : List (List Char)) : Prop :=
  ∃ list ts codes, after = ':' :: list ∧ HasTokens list ts ∧ LeadingCodes ts codes ∧
    codes ≠ [] ∧ cs = codes.map upperCase

lemma parseCodes_eq_codes_iff {after : List Char} {cs : List (List Char)} :
    parseCodes after = .codes cs ↔ ListsCodes after cs := by
  constructor
  · intro h
    unfold parseCodes at h
    split at h
    · next list =>
      split at h
      · cases h
      · next hne =>
        obtain rfl := Directive.codes.inj h
        refine ⟨list, _, _, rfl, hasTokens_iff.2 rfl, leadingCodes_iff.2 rfl, fun hnil => ?_, rfl⟩
        exact hne (by rw [hnil]; rfl)
    · cases h
  · rintro ⟨list, ts, codes, rfl, hts, hcodes, hne, rfl⟩
    rw [parseCodes, hasTokens_iff.1 hts, leadingCodes_iff.1 hcodes]
    split
    · next hnil => exact absurd (List.map_eq_nil_iff.1 hnil) hne
    · rfl

lemma parseCodes_eq_all_iff {after : List Char} :
    parseCodes after = .all ↔ ∀ cs, ¬ ListsCodes after cs := by
  simp only [← parseCodes_eq_codes_iff]
  cases parseCodes after with
  | all => simp
  | codes cs => simp

/-! ## The main result -/

/-- Some directive is the leftmost one. -/
lemma exists_leftmostDirective {line front after : List Char}
    (h : DirectiveBehind line front after) : ∃ after', LeftmostDirective line after' := by
  classical
  have hlength : ∃ n front after, front.length = n ∧ DirectiveBehind line front after :=
    ⟨front.length, front, after, rfl, h⟩
  obtain ⟨front', after', hfront', hbehind⟩ := Nat.find_spec hlength
  refine ⟨after', front', hbehind, fun front'' after'' h'' => ?_⟩
  rw [hfront']
  exact Nat.find_min' hlength ⟨front'', after'', rfl, h''⟩

lemma isSome_parseDirective_iff {line : List Char} :
    (parseDirective line).isSome = true ↔ ∃ front after, DirectiveBehind line front after := by
  constructor
  · intro h
    obtain ⟨d, hd⟩ := Option.isSome_iff_exists.1 h
    obtain ⟨after, ⟨front, hbehind, -⟩, -⟩ := parseDirective_eq_some_iff.1 hd
    exact ⟨front, after, hbehind⟩
  · rintro ⟨front, after, h⟩
    obtain ⟨after', hleftmost⟩ := exists_leftmostDirective h
    rw [parseDirective_eq_some_iff.2 ⟨after', hleftmost, rfl⟩]
    rfl

/-- On a text of one line the directive of the line decides. -/
lemma decide_of_lines_eq {text line : List Char} (h : lines text = [line]) (code : List Char) :
    decide text 1 code = decisionOf code (parseDirective line) := by
  have hchain : chain [line] = [line] := by
    rw [chain]
    split <;> rfl
  rw [decide_succ, h, List.drop_zero, hchain, List.findSome?_singleton]

/-- **The grammar of directives.**  Where four bytes spell the word, cutting them off leaves a text.
A line has a directive exactly if it has a hash with white space and the word behind it, and the
leftmost such hash counts.  The directive is about codes exactly if a colon and at least one code
follow at once, and then about the longest run of codes there, in upper case; otherwise it is about
everything.  On a text of one line it suppresses all codes, or those that one of its codes is the
beginning of. -/
theorem parseDirective_grammar (line : List Char) :
    (∀ text, SpellsWord text → ∃ after, Utf8.encode after = (Utf8.encode text).drop 4) ∧
      ((parseDirective line).isSome = true ↔
        ∃ front blanks text, line = front ++ '#' :: (blanks ++ text) ∧
          (∀ c ∈ blanks, isBlank c = true) ∧ SpellsWord text) ∧
      (∀ cs, parseDirective line = some (.codes cs) ↔
        ∃ after, LeftmostDirective line after ∧ ListsCodes after cs) ∧
      (parseDirective line = some .all ↔
        ∃ after, LeftmostDirective line after ∧ ∀ cs, ¬ ListsCodes after cs) ∧
      ∀ text code, lines text = [line] →
        (parseDirective line = some .all → decide text 1 code = .suppressed none) ∧
        (∀ cs, parseDirective line = some (.codes cs) →
          ((∃ c ∈ cs, c <+: upperCase code) → decide text 1 code = .suppressed (some cs)) ∧
          ((∀ c ∈ cs, ¬ c <+: upperCase code) → decide text 1 code = .active)) ∧
        (parseDirective line = none → decide text 1 code = .active) := by
  have hcut : ∀ text, SpellsWord text → ∃ after, Utf8.encode after = (Utf8.encode text).drop 4 :=
    fun text h => ⟨text.drop 4, encode_drop_of_spellsWord h⟩
  refine ⟨hcut, ?_, fun cs => ?_, ?_, fun text code hlines => ?_⟩
  · rw [isSome_parseDirective_iff]
    constructor
    · rintro ⟨front, after, comment, rfl, blanks, text, rfl, hblanks, hspells, -⟩
      exact ⟨front, blanks, text, rfl, hblanks, hspells⟩
    · rintro ⟨front, blanks, text, rfl, hblanks, hspells⟩
      obtain ⟨after, hafter⟩ := hcut text hspells
      exact ⟨front, after, blanks ++ text, rfl, blanks, text, rfl, hblanks, hspells, hafter⟩
  · simp only [parseDirective_eq_some_iff, parseCodes_eq_codes_iff]
  · simp only [parseDirective_eq_some_iff, parseCodes_eq_all_iff]
  · rw [decide_of_lines_eq hlines]
    refine ⟨fun h => by rw [h]; rfl, fun cs h => ?_, fun h => by rw [h]; rfl⟩
    rw [h, decisionOf, Directive.decide]
    constructor
    · rintro ⟨c, hc, hprefix⟩
      have hany : (cs.any fun c => c.isPrefixOf (upperCase code)) = true :=
        List.any_eq_true.2 ⟨c, hc, List.isPrefixOf_iff_prefix.2 hprefix⟩
      exact if_pos hany
    · intro hnone
      refine if_neg fun hany => ?_
      obtain ⟨c, hc, hprefix⟩ := List.any_eq_true.1 hany
      exact hnone c hc (List.isPrefixOf_iff_prefix.1 hprefix)

/-- A hash before a character of two bytes, and then a directive behind white space of two bytes, in
mixed case, with two codes before a token that is none. -/
theorem parseDirective_grammar_mixed :
    let line := "x  # no\u00e9qa #\u00a0NoQA:pdr001 ,e5 why W1".toList
    let text := line ++ ['\r', '\n']
    let codes := ["PDR001".toList, "E5".toList]
    (∃ after, Utf8.encode after = (Utf8.encode "NOqa\u00e9".toList).drop 4) ∧
      (∃ after, LeftmostDirective line after ∧ ListsCodes after codes) ∧
      decide text 1 "pdr0017".toList = .suppressed (some codes) ∧
      decide text 1 "W1".toList = .active := by
  intro line text codes
  obtain ⟨hcut, -, hcodes, -, hone⟩ := parseDirective_grammar line
  have hline : parseDirective line = some (.codes codes) := by decide
  have htext : lines text = [line] := by decide
  have hspells : SpellsWord "NOqa\u00e9".toList := by
    rw [SpellsWord]
    decide
  refine ⟨hcut _ hspells, (hcodes codes).1 hline, ?_, ?_⟩
  · obtain ⟨-, hsome, -⟩ := hone text "pdr0017".toList htext
    exact (hsome codes hline).1 ⟨"PDR001".toList, by decide, by decide⟩
  · obtain ⟨-, hsome, -⟩ := hone text "W1".toList htext
    exact (hsome codes hline).2 (by decide)

end Suppression

end PermissionLint
