/-
What is written as JSON is read back.

A text reads as a value if it is read as that value whatever comes after it (`ReadsAs`).  There is
one lemma for each way in which values are put together, with any white space between the parts, so
both ways of writing are covered: on one line (`readsAs_render`) and over several lines
(`readsAs_prettyAt`).  Numbers that are no integers are kept as they were written and are left out
here.
-/
import Mathlib.Data.List.Forall2
import PermissionLint.Json.Reader
import PermissionLint.Json.Writer

namespace PermissionLint.Json

/-! ## Strings -/

lemma hexValue?_hexDigit {n : Nat} (h : n < 16) : hexValue? (hexDigit n) = some n := by
  have hall : ∀ n < 16, hexValue? (hexDigit n) = some n := by decide
  exact hall n h

/-- An escape of one letter is read as the character it stands for. -/
lemma readChars_short {c e : Char} (hc : c ≠ 'u') (h : shortEscape? c = some e) (cs : List Char) :
    readChars ('\\' :: c :: cs) = (readChars cs).map fun (s, r) => (e :: s, r) := by
  rw [readChars, h]
  rintro a b c' d cs' rfl -
  exact hc rfl

/-- An escape by number is read as the character with that number. -/
lemma readChars_numbered {c : Char} (h : c.toNat < 32) (cs : List Char) :
    readChars ('\\' :: 'u' :: '0' :: '0'
        :: hexDigit (c.toNat / 16) :: hexDigit (c.toNat % 16) :: cs)
      = (readChars cs).map fun (s, r) => (c :: s, r) := by
  have hunit : hex4? '0' '0' (hexDigit (c.toNat / 16)) (hexDigit (c.toNat % 16))
      = some c.toNat := by
    have hzero : hexValue? '0' = some 0 := rfl
    rw [hex4?, hzero, hexValue?_hexDigit (by omega), hexValue?_hexDigit (by omega)]
    refine congrArg some ?_
    omega
  rw [readChars, hunit]
  dsimp only
  rw [if_neg (by simp; omega), if_neg (by simp; omega), Char.ofNat_toNat]

/-- A character that needs no escape is read as it is. -/
lemma readChars_plain {c : Char} (hquote : c ≠ '"') (hslash : c ≠ '\\') (h : ¬c.toNat < 32)
    (cs : List Char) :
    readChars (c :: cs) = (readChars cs).map fun (s, r) => (c :: s, r) := by
  rw [readChars, if_neg (by simp [hslash, h])]
  · exact hquote
  · rintro a b c' d cs' rfl -
    exact hslash rfl
  · rintro d cs' rfl -
    exact hslash rfl

/-- A character is read as it is written. -/
lemma readChars_escapeChar (c : Char) (cs : List Char) :
    readChars (escapeChar c ++ cs) = (readChars cs).map fun (s, r) => (c :: s, r) := by
  have hshort : ∀ {d : Char}, d ≠ 'u' → shortEscape? d = some c →
      readChars (['\\', d] ++ cs) = (readChars cs).map fun (s, r) => (c :: s, r) :=
    fun hd h => readChars_short hd h cs
  by_cases hquote : c = '"'
  · subst hquote
    exact hshort (by decide) rfl
  by_cases hslash : c = '\\'
  · subst hslash
    exact hshort (by decide) rfl
  by_cases hline : c = '\n'
  · subst hline
    exact hshort (by decide) rfl
  by_cases hreturn : c = '\r'
  · subst hreturn
    exact hshort (by decide) rfl
  by_cases htab : c = '\t'
  · subst htab
    exact hshort (by decide) rfl
  by_cases hback : c = '\x08'
  · subst hback
    exact hshort (by decide) rfl
  by_cases hfeed : c = '\x0c'
  · subst hfeed
    exact hshort (by decide) rfl
  rw [escapeChar]
  simp only [beq_iff_eq, hquote, hslash, hline, hreturn, htab, hback, hfeed, if_false]
  split
  · next hcontrol => exact readChars_numbered hcontrol cs
  · next hplain => exact readChars_plain hquote hslash hplain cs

/-- **A string is read as it is written.** -/
theorem readChars_flatMap_escapeChar (s rest : List Char) :
    readChars (s.flatMap escapeChar ++ '"' :: rest) = some (s, rest) := by
  induction s with
  | nil => rfl
  | cons c s ih =>
    rw [List.flatMap_cons, List.append_assoc, readChars_escapeChar, ih]
    rfl

lemma toList_quote (s : String) :
    (quote s).toList = '"' :: (s.toList.flatMap escapeChar ++ ['"']) :=
  String.toList_ofList

/-! ## Numbers -/

lemma head?_toDigits {n : Nat} (h : n ≠ 0) : (Nat.toDigits 10 n).head? ≠ some '0' := by
  induction n using Nat.strongRecOn with
  | _ n ih =>
    rcases Nat.lt_or_ge n 10 with hlt | hge
    · rw [Nat.toDigits_of_lt_base hlt, List.head?_singleton]
      have hall : ∀ d < 10, d ≠ 0 → some d.digitChar ≠ some '0' := by decide
      exact hall n hlt h
    · rw [Nat.toDigits_of_base_le (by decide) hge,
        List.head?_append_of_ne_nil _ Nat.toDigits_ne_nil]
      exact ih (n / 10) (by omega) (by omega)

lemma digits?_toDigits (n : Nat) : digits? (Nat.toDigits 10 n) = some n := by
  have hdigits : (Nat.toDigits 10 n).all Char.isDigit = true :=
    List.all_eq_true.2 fun c hc => Nat.isDigit_of_mem_toDigits (by decide) (by decide) hc
  have hempty : (Nat.toDigits 10 n).isEmpty = false := by simp [Nat.toDigits_ne_nil]
  have hzero : ((Nat.toDigits 10 n).length != 1 && (Nat.toDigits 10 n).head? == some '0')
      = false := by
    rcases eq_or_ne n 0 with rfl | hne
    · rfl
    · simp [head?_toDigits hne]
  have hvalue := @Nat.ofDigitChars_ten_toDigits n
  rw [Nat.ofDigitChars_eq_foldl] at hvalue
  rw [digits?, hdigits, hempty, hzero]
  simp only [Nat.mul_comm _ 10]
  exact congrArg some hvalue

/-- An integer is written with the characters of numbers, and read as it is written. -/
lemma ofNumber_toString (n : Int) :
    (∀ c ∈ (toString n).toList, isNumberChar c = true) ∧
      ofNumber (toString n).toList = some (int n) := by
  have hchars : ∀ k : Nat, ∀ c ∈ Nat.toDigits 10 k, c.isDigit = true :=
    fun k c hc => Nat.isDigit_of_mem_toDigits (by decide) (by decide) hc
  cases n with
  | ofNat k =>
    have htext : (toString (Int.ofNat k)).toList = Nat.toDigits 10 k := by
      change (Nat.repr k).toList = _
      rw [Nat.repr_eq_ofList_toDigits, String.toList_ofList]
    rw [htext]
    refine ⟨fun c hc => by simp [isNumberChar, hchars k c hc], ?_⟩
    rw [ofNumber, digits?_toDigits]
    · rfl
    · intro ds hds
      have hminus := hchars k '-' (by rw [hds]; exact List.mem_cons_self)
      cases hminus
  | negSucc k =>
    have htext : (toString (Int.negSucc k)).toList = '-' :: Nat.toDigits 10 (k + 1) := by
      change ("-" ++ Nat.repr (k + 1)).toList = _
      rw [Nat.repr_eq_ofList_toDigits, String.toList_append,
        @String.toList_ofList (Nat.toDigits 10 (k + 1))]
      rfl
    rw [htext]
    refine ⟨?_, ?_⟩
    · intro c hc
      rcases List.mem_cons.1 hc with rfl | hc
      · rfl
      · simp [isNumberChar, hchars _ c hc]
    · rw [ofNumber, digits?_toDigits]
      rfl

/-! ## White space -/

/-- The text is white space. -/
def IsBlank (cs : List Char) : Prop := ∀ c ∈ cs, isSpace c = true

/-- The text does not go on with a character of numbers. -/
def EndsNumber (rest : List Char) : Prop := ∀ c ∈ rest.head?, isNumberChar c = false

variable {gap close : List Char}

lemma isSpace_of_isNumberChar {c : Char} (h : isNumberChar c = true) : isSpace c = false := by
  rw [Bool.eq_false_iff]
  intro hspace
  simp only [isSpace, Bool.or_eq_true, beq_iff_eq] at hspace
  rcases hspace with ((rfl | rfl) | rfl) | rfl <;> cases h

lemma endsNumber_cons {c : Char} (h : isNumberChar c = false) (cs : List Char) :
    EndsNumber (c :: cs) := by
  intro d hd
  obtain rfl : c = d := by simpa using hd
  exact h

lemma endsNumber_append (hgap : IsBlank gap) {cs : List Char} (hcs : EndsNumber cs) :
    EndsNumber (gap ++ cs) := by
  cases gap with
  | nil => exact hcs
  | cons c gap =>
    refine endsNumber_cons ?_ _
    rw [Bool.eq_false_iff]
    intro hnumber
    cases (isSpace_of_isNumberChar hnumber).symm.trans (hgap c List.mem_cons_self)

lemma skipSpace_append (hgap : IsBlank gap) (cs : List Char) :
    skipSpace (gap ++ cs) = skipSpace cs :=
  List.dropWhile_append_of_pos hgap

lemma skipSpace_cons {c : Char} (h : isSpace c = false) (cs : List Char) :
    skipSpace (c :: cs) = c :: cs :=
  List.dropWhile_cons_of_neg (by simp [h])

lemma skipSpace_skipSpace (cs : List Char) : skipSpace (skipSpace cs) = skipSpace cs := by
  induction cs with
  | nil => rfl
  | cons c cs ih =>
    cases hc : isSpace c with
    | true =>
      have hskip : skipSpace (c :: cs) = skipSpace cs := List.dropWhile_cons_of_pos hc
      rw [hskip, ih]
    | false => rw [skipSpace_cons hc, skipSpace_cons hc]

/-- White space before a value does not count. -/
lemma readValue_skipSpace (fuel : Nat) (cs : List Char) :
    readValue fuel (skipSpace cs) = readValue fuel cs := by
  cases fuel with
  | zero => rw [readValue, readValue]
  | succ fuel => rw [readValue, readValue, skipSpace_skipSpace]

lemma readValue_append (hgap : IsBlank gap) (fuel : Nat) (cs : List Char) :
    readValue fuel (gap ++ cs) = readValue fuel cs := by
  rw [← readValue_skipSpace, skipSpace_append hgap, readValue_skipSpace]

lemma readItems_skipSpace (fuel : Nat) (cs : List Char) :
    readItems fuel (skipSpace cs) = readItems fuel cs := by
  cases fuel with
  | zero => rw [readItems, readItems]
  | succ fuel => rw [readItems, readItems, readValue_skipSpace]

lemma readMembers_skipSpace (fuel : Nat) (cs : List Char) :
    readMembers fuel (skipSpace cs) = readMembers fuel cs := by
  cases fuel with
  | zero => rw [readMembers, readMembers]
  | succ fuel => rw [readMembers, readMembers, skipSpace_skipSpace]

/-! ## Single values -/

/-- The text is read as the value, whatever comes after it; only a number has to end somewhere.  It
begins with a character that is neither white space nor the end of an array. -/
structure ReadsAs (text : List Char) (v : Json) : Prop where
  begins : ∃ c cs, text = c :: cs ∧ isSpace c = false ∧ c ≠ ']'
  reads : ∀ fuel rest, text.length < fuel → EndsNumber rest →
    readValue fuel (text ++ rest) = some (v, rest)

lemma ReadsAs.length_pos {text : List Char} {v : Json} (h : ReadsAs text v) : 0 < text.length := by
  obtain ⟨c, cs, rfl, -⟩ := h.begins
  exact Nat.succ_pos _

/-- It is enough to read the text with one step more than nothing. -/
lemma ReadsAs.of_cons {c : Char} {cs : List Char} {v : Json} (hspace : isSpace c = false)
    (hclose : c ≠ ']')
    (h : ∀ fuel rest, cs.length < fuel → EndsNumber rest →
      readValue (fuel + 1) (c :: (cs ++ rest)) = some (v, rest)) :
    ReadsAs (c :: cs) v := by
  refine ⟨⟨c, cs, rfl, hspace, hclose⟩, fun fuel rest hfuel hrest => ?_⟩
  cases fuel with
  | zero => exact absurd hfuel (Nat.not_lt_zero _)
  | succ fuel => exact h fuel rest (Nat.lt_of_succ_lt_succ hfuel) hrest

lemma readsAs_null : ReadsAs "null".toList null :=
  .of_cons rfl (by decide) fun _ _ _ _ => rfl

lemma readsAs_bool (b : Bool) : ReadsAs (if b then "true" else "false").toList (bool b) := by
  cases b with
  | true => exact .of_cons rfl (by decide) fun _ _ _ _ => rfl
  | false => exact .of_cons rfl (by decide) fun _ _ _ _ => rfl

lemma readValue_number {c : Char} (hc : isNumberChar c = true) (fuel : Nat) (cs : List Char) :
    readValue (fuel + 1) (c :: cs)
      = (ofNumber ((c :: cs).takeWhile isNumberChar)).map
          fun v => (v, (c :: cs).dropWhile isNumberChar) := by
  rw [readValue, skipSpace_cons (isSpace_of_isNumberChar hc)]
  -- the first character is none of those that other values begin with
  split
  case h_7 => rfl
  all_goals
    next h =>
      cases h
      cases hc

lemma readsAs_int (n : Int) : ReadsAs (toString n).toList (int n) := by
  obtain ⟨hchars, hnumber⟩ := ofNumber_toString n
  generalize (toString n).toList = text at hchars hnumber
  cases text with
  | nil => cases hnumber
  | cons c cs =>
    have hc := hchars c List.mem_cons_self
    refine .of_cons (isSpace_of_isNumberChar hc) (by rintro rfl; cases hc) ?_
    intro fuel rest _ hrest
    have hends : rest.takeWhile isNumberChar = [] ∧ rest.dropWhile isNumberChar = rest := by
      cases rest with
      | nil => exact ⟨rfl, rfl⟩
      | cons d rest =>
        have hd : ¬isNumberChar d = true := by simpa using hrest d rfl
        exact ⟨List.takeWhile_cons_of_neg hd, List.dropWhile_cons_of_neg hd⟩
    rw [readValue_number hc, ← List.cons_append, List.takeWhile_append_of_pos hchars,
      List.dropWhile_append_of_pos hchars, hends.1, hends.2, List.append_nil, hnumber]
    rfl

lemma readsAs_str (s : String) : ReadsAs (quote s).toList (str s) := by
  rw [toList_quote]
  refine .of_cons rfl (by decide) fun fuel rest _ _ => ?_
  change (readChars _).map _ = _
  rw [List.append_assoc, List.singleton_append, readChars_flatMap_escapeChar, Option.map_some]
  dsimp only
  rw [String.ofList_toList]

/-! ## Arrays and objects -/

/-- Texts with commas between them and white space in front of each. -/
def listed (gap : List Char) : List (List Char) → List Char
  | [] => []
  | [text] => gap ++ text
  | text :: texts => gap ++ text ++ ',' :: listed gap texts

lemma listed_cons_cons (text text' : List Char) (texts : List (List Char)) :
    listed gap (text :: text' :: texts) = gap ++ (text ++ ',' :: listed gap (text' :: texts)) :=
  List.append_assoc _ _ _

/-- How items or members are read: one with another one behind it, and the last one.  Each of them
takes one step, and there are as many steps left as its text is long. -/
structure ReadsEach {α : Type} (read : Nat → List Char → Option (List α × List Char))
    (Spells : List Char → α → Prop) (gap ending : List Char) : Prop where
  pos : ∀ {text x}, Spells text x → 0 < text.length
  comma : ∀ {text x} fuel rest, Spells text x → text.length < fuel →
    read (fuel + 1) (gap ++ (text ++ ',' :: rest))
      = (read fuel rest).map fun (xs, r) => (x :: xs, r)
  last : ∀ {text x} fuel rest, Spells text x → text.length < fuel →
    read (fuel + 1) (gap ++ (text ++ (ending ++ rest))) = some ([x], rest)

/-- Items or members are read one after the other. -/
lemma ReadsEach.listed {α : Type} {read : Nat → List Char → Option (List α × List Char)}
    {Spells : List Char → α → Prop} {ending : List Char} (h : ReadsEach read Spells gap ending)
    {texts : List (List Char)} {xs : List α} (htexts : List.Forall₂ Spells texts xs)
    (hne : xs ≠ []) (fuel : Nat) (rest : List Char)
    (hfuel : (Json.listed gap texts).length + 1 < fuel) :
    read fuel (Json.listed gap texts ++ (ending ++ rest)) = some (xs, rest) := by
  induction htexts generalizing fuel with
  | nil => exact absurd rfl hne
  | @cons text x texts xs htext htexts ih =>
    obtain ⟨fuel, rfl⟩ := Nat.exists_eq_add_one_of_ne_zero (Nat.ne_of_gt (Nat.zero_lt_of_lt hfuel))
    have hpos := h.pos htext
    cases htexts with
    | nil =>
      rw [Json.listed, List.length_append] at hfuel
      rw [Json.listed, List.append_assoc, h.last fuel rest htext (by omega)]
    | @cons text' x' texts xs htext' htexts =>
      rw [listed_cons_cons] at hfuel ⊢
      simp only [List.length_append, List.length_cons] at hfuel
      rw [List.append_assoc, List.append_assoc, List.cons_append,
        h.comma fuel _ htext (by omega), ih (by simp) fuel (by omega)]
      rfl

lemma readsEach_items (hgap : IsBlank gap) (hclose : IsBlank close) :
    ReadsEach readItems ReadsAs gap (close ++ [']']) where
  pos := ReadsAs.length_pos
  comma fuel rest htext hfuel := by
    rw [readItems, readValue_append hgap, htext.reads fuel _ hfuel (endsNumber_cons rfl _)]
    rfl
  last fuel rest htext hfuel := by
    rw [List.append_assoc, List.singleton_append, readItems, readValue_append hgap,
      htext.reads fuel _ hfuel (endsNumber_append hclose (endsNumber_cons rfl rest))]
    dsimp only
    rw [skipSpace_append hclose]
    rfl

/-- The text of a member of an object: its key and a text that reads as its value. -/
def MemberReadsAs (text : List Char) (m : String × Json) : Prop :=
  ∃ gap value, IsBlank gap ∧ ReadsAs value m.2 ∧
    text = (quote m.1).toList ++ ':' :: (gap ++ value)

/-- What is read behind a member: more members or the end of the object. -/
def afterMember (fuel : Nat) (m : String × Json) (rest : List Char) :
    Option (List (String × Json) × List Char) :=
  match skipSpace rest with
  | ',' :: rest => (readMembers fuel rest).map fun (ms, r) => (m :: ms, r)
  | '}' :: rest => some ([m], rest)
  | _ => none

/-- A member is read up to the end of its value. -/
lemma readMembers_member (hgap : IsBlank gap) {text : List Char} {m : String × Json}
    (h : MemberReadsAs text m) {fuel : Nat} (hfuel : text.length < fuel) {rest : List Char}
    (hrest : EndsNumber rest) :
    readMembers (fuel + 1) (gap ++ (text ++ rest)) = afterMember fuel m rest := by
  obtain ⟨key, v⟩ := m
  obtain ⟨space, value, hspace, hvalue, htext⟩ := h
  rw [toList_quote] at htext
  subst htext
  dsimp only at hvalue ⊢
  simp only [List.length_append, List.length_cons] at hfuel
  have htext : '"' :: (key.toList.flatMap escapeChar ++ ['"']) ++ ':' :: (space ++ value) ++ rest
      = '"' :: (key.toList.flatMap escapeChar ++ '"' :: ':' :: (space ++ (value ++ rest))) := by
    simp
  rw [htext, readMembers, skipSpace_append hgap, skipSpace_cons rfl]
  simp only [readChars_flatMap_escapeChar]
  rw [skipSpace_cons rfl]
  simp only [readValue_append hspace, hvalue.reads fuel rest (by omega) hrest,
    String.ofList_toList]
  rfl

lemma readsEach_members (hgap : IsBlank gap) (hclose : IsBlank close) :
    ReadsEach readMembers MemberReadsAs gap (close ++ ['}']) where
  pos := by
    rintro text m ⟨space, value, -, -, htext⟩
    rw [htext, List.length_append, List.length_cons]
    omega
  comma fuel rest htext hfuel := by
    rw [readMembers_member hgap htext hfuel (endsNumber_cons rfl _)]
    rfl
  last fuel rest htext hfuel := by
    rw [List.append_assoc, List.singleton_append, readMembers_member hgap htext hfuel
      (endsNumber_append hclose (endsNumber_cons rfl rest)), afterMember, skipSpace_append hclose]
    rfl

/-- What is listed begins, after white space, with its first text. -/
lemma exists_skipSpace_listed (hgap : IsBlank gap) {c : Char} (hc : isSpace c = false)
    (cs : List Char) (texts : List (List Char)) (rest : List Char) :
    ∃ cs', skipSpace (listed gap ((c :: cs) :: texts) ++ rest) = c :: cs' := by
  cases texts with
  | nil =>
    rw [listed, List.append_assoc, skipSpace_append hgap]
    exact ⟨_, skipSpace_cons hc _⟩
  | cons text texts =>
    rw [listed_cons_cons, List.append_assoc, skipSpace_append hgap]
    exact ⟨_, skipSpace_cons hc _⟩

/-- What is read behind an opening bracket: the end of the array or its items. -/
def afterBracket (fuel : Nat) (cs : List Char) : Option (Json × List Char) :=
  match skipSpace cs with
  | ']' :: rest => some (arr [], rest)
  | rest => (readItems fuel rest).map fun (vs, r) => (arr vs, r)

lemma readValue_bracket (fuel : Nat) (cs : List Char) :
    readValue (fuel + 1) ('[' :: cs) = afterBracket fuel cs := rfl

/-- An array is read by its items. -/
lemma readsAs_arr (hgap : IsBlank gap) (hclose : IsBlank close) {texts : List (List Char)}
    {vs : List Json} (h : List.Forall₂ ReadsAs texts vs) :
    ReadsAs ('[' :: (listed gap texts ++ (close ++ [']']))) (arr vs) := by
  refine .of_cons rfl (by decide) fun fuel rest hfuel _ => ?_
  rw [readValue_bracket, List.append_assoc]
  cases h with
  | nil =>
    rw [listed, List.nil_append, List.append_assoc, afterBracket, skipSpace_append hclose]
    rfl
  | @cons text v texts vs htext htexts =>
    have hitems := (readsEach_items hgap hclose).listed (.cons htext htexts) (by simp) fuel
      rest (by simp only [List.length_append, List.length_cons] at hfuel; omega)
    obtain ⟨c, cs, rfl, hspace, hne⟩ := htext.begins
    obtain ⟨cs', hskip⟩ := exists_skipSpace_listed hgap hspace cs texts ((close ++ [']']) ++ rest)
    rw [← readItems_skipSpace, hskip] at hitems
    rw [afterBracket, hskip]
    split
    · next hend => exact absurd (List.cons.inj hend).1 hne
    · rw [hitems]
      rfl

/-- What is read behind an opening brace: the end of the object or its members. -/
def afterBrace (fuel : Nat) (cs : List Char) : Option (Json × List Char) :=
  match skipSpace cs with
  | '}' :: rest => some (obj [], rest)
  | rest => (readMembers fuel rest).map fun (ms, r) => (obj ms, r)

lemma readValue_brace (fuel : Nat) (cs : List Char) :
    readValue (fuel + 1) ('{' :: cs) = afterBrace fuel cs := rfl

/-- An object is read by its members. -/
lemma readsAs_obj (hgap : IsBlank gap) (hclose : IsBlank close) {texts : List (List Char)}
    {ms : List (String × Json)} (h : List.Forall₂ MemberReadsAs texts ms) :
    ReadsAs ('{' :: (listed gap texts ++ (close ++ ['}']))) (obj ms) := by
  refine .of_cons rfl (by decide) fun fuel rest hfuel _ => ?_
  rw [readValue_brace, List.append_assoc]
  cases h with
  | nil =>
    rw [listed, List.nil_append, List.append_assoc, afterBrace, skipSpace_append hclose]
    rfl
  | @cons text m texts ms htext htexts =>
    have hmembers := (readsEach_members hgap hclose).listed (.cons htext htexts) (by simp) fuel
      rest (by simp only [List.length_append, List.length_cons] at hfuel; omega)
    obtain ⟨space, value, -, -, htext⟩ := htext
    rw [toList_quote, List.cons_append] at htext
    subst htext
    obtain ⟨cs', hskip⟩ := exists_skipSpace_listed hgap (c := '"') rfl _ texts
      ((close ++ ['}']) ++ rest)
    rw [← readMembers_skipSpace, hskip] at hmembers
    rw [afterBrace, hskip]
    change (readMembers fuel ('"' :: cs')).map _ = _
    rw [hmembers]
    rfl

/-! ## What is written -/

mutual

/-- All numbers in the value are integers. -/
def isExact : Json → Bool
  | real _ => false
  | arr items => areExact items
  | obj members => haveExactValues members
  | _ => true

/-- All numbers in the items are integers. -/
def areExact : List Json → Bool
  | [] => true
  | v :: vs => v.isExact && areExact vs

/-- All numbers in the values of the members are integers. -/
def haveExactValues : List (String × Json) → Bool
  | [] => true
  | (_, v) :: ms => v.isExact && haveExactValues ms

end

/-- Texts that are joined are listed. -/
lemma listed_map_toList (gap : String) {texts : List String} (hne : texts ≠ []) :
    listed gap.toList (texts.map String.toList) = (gap ++ joined ("," ++ gap) texts).toList := by
  induction texts with
  | nil => exact absurd rfl hne
  | cons text texts ih =>
    cases texts with
    | nil => exact (String.toList_append).symm
    | cons text' texts =>
      have hjoined : joined ("," ++ gap) (text :: text' :: texts)
          = text ++ ("," ++ gap) ++ joined ("," ++ gap) (text' :: texts) := rfl
      have hrest := ih (by simp)
      rw [List.map_cons] at hrest
      rw [List.map_cons, List.map_cons, listed_cons_cons, hrest, hjoined]
      simp only [String.toList_append, List.append_assoc]
      rfl

/-- What stands between brackets on one line. -/
lemma toList_joined (texts : List String) :
    (joined "," texts).toList = listed [] (texts.map String.toList) := by
  cases texts with
  | nil => rfl
  | cons text texts =>
    have hlisted := listed_map_toList "" (List.cons_ne_nil text texts)
    rw [String.append_empty, String.empty_append] at hlisted
    exact hlisted.symm

lemma isBlank_nil : IsBlank [] := fun _ hc => absurd hc List.not_mem_nil

lemma isBlank_lineBreak (level : Nat) : IsBlank (lineBreak level).toList := by
  intro c hc
  rw [lineBreak, String.toList_ofList] at hc
  rcases List.mem_cons.1 hc with rfl | hc
  · rfl
  · rw [List.eq_of_mem_replicate hc]
    rfl

/-- What stands between brackets over several lines. -/
lemma exists_toList_enclosed (opening closing : String) (level : Nat) (lines : List String) :
    ∃ close, IsBlank close ∧ (enclosed opening closing level lines).toList
      = opening.toList ++ (listed (lineBreak (level + 1)).toList (lines.map String.toList)
        ++ (close ++ closing.toList)) := by
  cases lines with
  | nil => exact ⟨[], isBlank_nil, String.toList_append⟩
  | cons line lines =>
    refine ⟨(lineBreak level).toList, isBlank_lineBreak level, ?_⟩
    rw [listed_map_toList _ (List.cons_ne_nil line lines), enclosed]
    · simp only [String.toList_append, List.append_assoc]
    · exact List.cons_ne_nil line lines

mutual

/-- A value on one line is read back. -/
theorem readsAs_render : ∀ v : Json, v.isExact = true → ReadsAs (render v).toList v
  | null, _ => readsAs_null
  | bool b, _ => readsAs_bool b
  | int n, _ => readsAs_int n
  | real _, h => by cases h
  | str s, _ => readsAs_str s
  | arr items, h => by
    have hitems := readsAs_arr isBlank_nil isBlank_nil (readsAs_renderItems items h)
    rw [← toList_joined] at hitems
    simpa [render] using hitems
  | obj members, h => by
    have hmembers := readsAs_obj isBlank_nil isBlank_nil (readsAs_renderMembers members h)
    rw [← toList_joined] at hmembers
    simpa [render] using hmembers

theorem readsAs_renderItems : ∀ vs : List Json, areExact vs = true →
    List.Forall₂ ReadsAs ((renderItems vs).map String.toList) vs
  | [], _ => .nil
  | v :: vs, h => by
    rw [areExact, Bool.and_eq_true] at h
    exact .cons (readsAs_render v h.1) (readsAs_renderItems vs h.2)

theorem readsAs_renderMembers : ∀ ms : List (String × Json), haveExactValues ms = true →
    List.Forall₂ MemberReadsAs ((renderMembers ms).map String.toList) ms
  | [], _ => .nil
  | (k, v) :: ms, h => by
    rw [haveExactValues, Bool.and_eq_true] at h
    refine .cons ⟨[], _, isBlank_nil, readsAs_render v h.1, ?_⟩ (readsAs_renderMembers ms h.2)
    simp

end

mutual

/-- A value over several lines is read back. -/
theorem readsAs_prettyAt : ∀ (v : Json) (level : Nat), v.isExact = true →
    ReadsAs (prettyAt level v).toList v
  | null, _, _ => readsAs_null
  | bool b, _, _ => readsAs_bool b
  | int n, _, _ => readsAs_int n
  | real _, _, h => by cases h
  | str s, _, _ => readsAs_str s
  | arr items, level, h => by
    obtain ⟨close, hclose, htext⟩ :=
      exists_toList_enclosed "[" "]" level (prettyItems (level + 1) items)
    rw [prettyAt, htext]
    exact readsAs_arr (isBlank_lineBreak _) hclose (readsAs_prettyItems items (level + 1) h)
  | obj members, level, h => by
    obtain ⟨close, hclose, htext⟩ :=
      exists_toList_enclosed "\x7b" "\x7d" level (prettyMembers (level + 1) members)
    rw [prettyAt, htext]
    exact readsAs_obj (isBlank_lineBreak _) hclose (readsAs_prettyMembers members (level + 1) h)

theorem readsAs_prettyItems : ∀ (vs : List Json) (level : Nat), areExact vs = true →
    List.Forall₂ ReadsAs ((prettyItems level vs).map String.toList) vs
  | [], _, _ => .nil
  | v :: vs, level, h => by
    rw [areExact, Bool.and_eq_true] at h
    exact .cons (readsAs_prettyAt v level h.1) (readsAs_prettyItems vs level h.2)

theorem readsAs_prettyMembers : ∀ (ms : List (String × Json)) (level : Nat),
    haveExactValues ms = true →
    List.Forall₂ MemberReadsAs ((prettyMembers level ms).map String.toList) ms
  | [], _, _ => .nil
  | (k, v) :: ms, level, h => by
    rw [haveExactValues, Bool.and_eq_true] at h
    refine .cons ⟨[' '], _, ?_, readsAs_prettyAt v level h.1, ?_⟩
      (readsAs_prettyMembers ms level h.2)
    · intro c hc
      rw [List.mem_singleton.1 hc]
      rfl
    · simp

end

/-- A text that reads as a value spells that value, also with white space behind it. -/
lemma ReadsAs.parse? {text blanks : String} {v : Json} (h : ReadsAs text.toList v)
    (hblanks : IsBlank blanks.toList) : parse? (text ++ blanks) = some v := by
  have hends : EndsNumber blanks.toList := by
    rw [← List.append_nil blanks.toList]
    exact endsNumber_append hblanks fun c hc => absurd hc (by simp)
  have hskip : skipSpace blanks.toList = [] := by
    rw [← List.append_nil blanks.toList]
    exact skipSpace_append hblanks []
  have hfuel : text.toList.length < (text ++ blanks).toList.length + 1 := by
    rw [String.toList_append, List.length_append]
    omega
  have hread := h.reads _ blanks.toList hfuel hends
  rw [← String.toList_append] at hread
  rw [Json.parse?, hread]
  dsimp only
  rw [hskip]
  rfl

/-- **A value that is written on one line is read back.** -/
theorem parse?_render {v : Json} (h : v.isExact = true) : Json.parse? v.render = some v := by
  have hread := @ReadsAs.parse? v.render "" v (readsAs_render v h) isBlank_nil
  rwa [String.append_empty] at hread

/-- **A value that is written over several lines is read back**, also with a line break at the
end. -/
theorem parse?_pretty {v : Json} (h : v.isExact = true) :
    Json.parse? (v.pretty ++ "\n") = some v := by
  refine (readsAs_prettyAt v 0 h).parse? ?_
  intro c hc
  rw [List.mem_singleton.1 hc]
  rfl

end PermissionLint.Json
