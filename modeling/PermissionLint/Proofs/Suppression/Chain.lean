/-
Continued lines are read as one.

A line that ends in a backslash and has no hash goes on in the next one, so of the lines of a chain
only the last may hold a hash.  Looking for the first directive on each line of the chain is thus
looking for it on all of them joined (`findSome?_parseDirective_chain`).  The main result,
`decide_joined`, says that nothing else of the text matters.
-/
import Mathlib.Data.List.TakeWhile
import PermissionLint.Proofs.Suppression

namespace PermissionLint.Suppression

open PermissionLint.Text

/-! ## Chains of lines -/

/-- The line goes on in the next one: it has no hash, and a backslash is the last of its characters
that is not white space. -/
def GoesOn (line : List Char) : Prop :=
  '#' ∉ line ∧ ∃ front blanks, line = front ++ '\\' :: blanks ∧ ∀ c ∈ blanks, isBlank c = true

lemma getLast?_trimEnd_eq_some_iff {line : List Char} {c : Char} (hc : isBlank c = false) :
    (trimEnd line).getLast? = some c ↔
      ∃ front blanks, line = front ++ c :: blanks ∧ ∀ d ∈ blanks, isBlank d = true := by
  rw [trimEnd, List.getLast?_reverse]
  constructor
  · intro h
    obtain ⟨rest, hrest⟩ := List.head?_eq_some_iff.1 h
    refine ⟨rest.reverse, (line.reverse.takeWhile isBlank).reverse, ?_, ?_⟩
    · have hline := congrArg List.reverse
        (List.takeWhile_append_dropWhile (p := isBlank) (l := line.reverse))
      rw [hrest, List.reverse_reverse, List.reverse_append, List.reverse_cons, List.append_assoc]
        at hline
      exact hline.symm
    · exact fun d hd => List.mem_takeWhile_imp (List.mem_reverse.1 hd)
  · rintro ⟨front, blanks, rfl, hblanks⟩
    have hreverse : (front ++ c :: blanks).reverse = blanks.reverse ++ c :: front.reverse := by simp
    rw [hreverse, List.dropWhile_append_of_pos fun d hd => hblanks d (List.mem_reverse.1 hd),
      List.dropWhile_cons_of_neg (by simp [hc])]
    rfl

lemma continues_iff {line : List Char} : continues line = true ↔ GoesOn line := by
  rw [continues, Bool.and_eq_true, beq_iff_eq, getLast?_trimEnd_eq_some_iff (by decide), GoesOn,
    and_comm]
  simp

/-- The lines from the given one, numbered from one, to the first that does not go on, or to the
last one of the text. -/
def IsChain (text : List Char) (n : Nat) (ls : List (List Char)) : Prop :=
  ∃ joined last rest, (lines text).drop (n - 1) = joined ++ last :: rest ∧ ls = joined ++ [last] ∧
    (∀ line ∈ joined, GoesOn line) ∧ (GoesOn last → rest = [])

lemma chain_append_cons {joined : List (List Char)} (hjoined : ∀ line ∈ joined, GoesOn line)
    {last : List Char} {rest : List (List Char)} (hlast : GoesOn last → rest = []) :
    chain (joined ++ last :: rest) = joined ++ [last] := by
  induction joined with
  | nil =>
    rw [List.nil_append, chain]
    split
    · next h => rw [hlast (continues_iff.1 h)]; rfl
    · rfl
  | cons line joined ih =>
    obtain ⟨hline, hjoined⟩ := List.forall_mem_cons.1 hjoined
    rw [List.cons_append, chain, if_pos (continues_iff.2 hline), ih hjoined]
    rfl

lemma exists_chain {ls : List (List Char)} (h : ls ≠ []) :
    ∃ joined last rest, ls = joined ++ last :: rest ∧ (∀ line ∈ joined, GoesOn line) ∧
      (GoesOn last → rest = []) := by
  induction ls with
  | nil => exact absurd rfl h
  | cons line ls ih =>
    by_cases hline : GoesOn line ∧ ls ≠ []
    · obtain ⟨joined, last, rest, rfl, hjoined, hlast⟩ := ih hline.2
      exact ⟨line :: joined, last, rest, rfl, List.forall_mem_cons.2 ⟨hline.1, hjoined⟩, hlast⟩
    · exact ⟨[], line, ls, rfl, by simp, fun hgoes => by_contra fun hne => hline ⟨hgoes, hne⟩⟩

variable {text : List Char} {n : Nat} {ls : List (List Char)}

lemma IsChain.eq (h : IsChain text n ls) : chain ((lines text).drop (n - 1)) = ls := by
  obtain ⟨joined, last, rest, hlines, rfl, hjoined, hlast⟩ := h
  rw [hlines, chain_append_cons hjoined hlast]

/-! ## Directives on joined lines -/

/-- What comes before the first hash does not matter. -/
lemma parseDirective_append {front : List Char} (h : '#' ∉ front) (line : List Char) :
    parseDirective (front ++ line) = parseDirective line := by
  induction front with
  | nil => rfl
  | cons c front ih =>
    obtain ⟨hc, hfront⟩ := not_or.1 (List.mem_cons.not.1 h)
    rw [List.cons_append, parseDirective, if_neg (by simpa using Ne.symm hc), ih hfront]

/-- Only the last line of a chain can hold a directive. -/
lemma findSome?_parseDirective_chain {joined : List (List Char)}
    (hjoined : ∀ line ∈ joined, GoesOn line) (last : List Char) :
    (joined ++ [last]).findSome? parseDirective = parseDirective (joined ++ [last]).flatten := by
  have hnone : joined.findSome? parseDirective = none :=
    List.findSome?_eq_none_iff.2 fun line hline => parseDirective_of_not_mem (hjoined line hline).1
  have hfront : '#' ∉ joined.flatten := by
    intro hmem
    obtain ⟨line, hline, hhash⟩ := List.mem_flatten.1 hmem
    exact (hjoined line hline).1 hhash
  rw [List.findSome?_append, hnone, Option.none_or, List.findSome?_singleton, List.flatten_append,
    List.flatten_singleton, parseDirective_append hfront]

lemma IsChain.decide_eq (hn : 1 ≤ n) (h : IsChain text n ls) (code : List Char) :
    decide text n code = decisionOf code (parseDirective ls.flatten) := by
  have hchain := h.eq
  obtain ⟨joined, last, rest, -, rfl, hjoined, -⟩ := h
  obtain ⟨n, rfl⟩ := Nat.exists_eq_add_of_le' hn
  rw [Nat.add_sub_cancel] at hchain
  rw [decide_succ, hchain, findSome?_parseDirective_chain hjoined]

/-- **The joined lines decide, and nothing else.**  A line that is there begins one chain, and what is
decided about a code is what the directive of the joined chain says.  So two texts with the same
chain decide alike, and a line that is not there suppresses nothing. -/
theorem decide_joined (text : List Char) {n : Nat} (hn : 1 ≤ n) (code : List Char) :
    ((lines text).length < n → decide text n code = .active) ∧
      (n ≤ (lines text).length → ∃! ls, IsChain text n ls) ∧
      (∀ ls, IsChain text n ls →
        decide text n code = decisionOf code (parseDirective ls.flatten)) ∧
      ∀ text' ls, IsChain text n ls → IsChain text' n ls →
        decide text n code = decide text' n code := by
  refine ⟨fun hlength => ?_, fun hlength => ?_, fun ls h => h.decide_eq hn code,
    fun text' ls h h' => (h.decide_eq hn code).trans (h'.decide_eq hn code).symm⟩
  · obtain ⟨n, rfl⟩ := Nat.exists_eq_add_of_le' hn
    rw [decide_succ, List.drop_eq_nil_of_le (Nat.le_of_lt_succ hlength)]
    rfl
  · have hne : (lines text).drop (n - 1) ≠ [] := by
      rw [Ne, List.drop_eq_nil_iff]
      omega
    obtain ⟨joined, last, rest, hlines, hjoined, hlast⟩ := exists_chain hne
    refine ⟨joined ++ [last], ⟨joined, last, rest, hlines, rfl, hjoined, hlast⟩, fun ls h => ?_⟩
    rw [← h.eq, hlines, chain_append_cons hjoined hlast]

/-- Two lines that go on, of which one ends with a blank, and a directive on the third. -/
theorem decide_joined_three :
    let chained := ["x = \\ ".toList, "\\".toList, "[]  # noqa: PDR001".toList]
    let text := "x = \\ \n\\\n[]  # noqa: PDR001\n".toList
    let text' := "x = \\ \n\\\n[]  # noqa: PDR001\r\ny # noqa".toList
    IsChain text 1 chained ∧ IsChain text' 1 chained ∧
      decide text 1 "PDR001".toList = .suppressed (some ["PDR001".toList]) ∧
      decide text 1 "PDR002".toList = decide text' 1 "PDR002".toList ∧
      decide text 4 "PDR001".toList = .active := by
  intro chained text text'
  have hjoined : ∀ line ∈ ["x = \\ ".toList, "\\".toList], GoesOn line := by
    simp only [← continues_iff]
    decide
  have hlast : ¬ GoesOn "[]  # noqa: PDR001".toList := by
    rw [← continues_iff]
    decide
  have hchain : IsChain text 1 chained :=
    ⟨["x = \\ ".toList, "\\".toList], _, [], by decide, rfl, hjoined, fun h => absurd h hlast⟩
  have hchain' : IsChain text' 1 chained :=
    ⟨["x = \\ ".toList, "\\".toList], _, ["y # noqa".toList], by decide, rfl, hjoined,
      fun h => absurd h hlast⟩
  obtain ⟨-, -, hread, -⟩ := decide_joined text (n := 1) (by decide) "PDR001".toList
  obtain ⟨-, -, -, hsame⟩ := decide_joined text (n := 1) (by decide) "PDR002".toList
  obtain ⟨hmissing, -⟩ := decide_joined text (n := 4) (by decide) "PDR001".toList
  exact ⟨hchain, hchain', (hread _ hchain).trans (by decide), hsame text' _ hchain hchain',
    hmissing (by decide)⟩

end PermissionLint.Suppression
