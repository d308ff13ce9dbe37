/-
The format `text` and the plain wording of violations.

The block of lines of a violation is laid out twice: once as it is (`Violation.format`), and once
with its severity in colour (`Violation.coloured`).  What is printed in the format `text` is the
plain wording with colours in it: once they are erased, it is one plain block after the other, each
with an empty line behind it, and the plain summary (`erased_renderText`).

Erasing looks for escape characters, so it leaves alone what holds none, and takes the sequences of
a painted text away whatever follows.  `Erases` says both of a part of a text, and goes on to texts
that are put together from such parts.
-/
import PermissionLint.Proofs.Report.Flake8

namespace PermissionLint

namespace Colour

/-! ## Erasing colours -/

/-- A character of the numbers in a colour sequence. -/
def isParameter (c : Char) : Bool := c.isDigit || c == ';'

/-- What is behind the colour sequence at the front of a text: an escape character and a bracket,
numbers with semicolons between them, and an `m`. -/
def behind? : List Char → Option (List Char)
  | '\x1b' :: '[' :: cs =>
    match cs.dropWhile isParameter with
    | 'm' :: rest => some rest
    | _ => none
  | _ => none

lemma length_of_behind? {cs rest : List Char} (h : behind? cs = some rest) :
    rest.length < cs.length := by
  unfold behind? at h
  split at h
  · next cs =>
    have hle := (cs.dropWhile_sublist isParameter).length_le
    split at h
    · next hdrop =>
      cases h
      rw [hdrop] at hle
      simp only [List.length_cons] at hle ⊢
      omega
    · cases h
  · cases h

/-- A text without its colour sequences. -/
def erase : List Char → List Char
  | [] => []
  | c :: cs =>
    match _ : behind? (c :: cs) with
    | some rest => erase rest
    | none => c :: erase cs
termination_by cs => cs.length
decreasing_by
  · exact length_of_behind? ‹_›
  · exact Nat.lt_succ_self _

/-- A text without its colour sequences. -/
def erased (text : String) : String := String.ofList (erase text.toList)

lemma erase_of_behind? {cs rest : List Char} (h : behind? cs = some rest) :
    erase cs = erase rest := by
  cases cs with
  | nil => cases h
  | cons c cs =>
    rw [erase]
    split
    · next hrest =>
      rw [h] at hrest
      cases hrest
      rfl
    · next hnone =>
      rw [h] at hnone
      cases hnone

lemma erase_cons {c : Char} (hc : c ≠ '\x1b') (cs : List Char) :
    erase (c :: cs) = c :: erase cs := by
  have hnone : behind? (c :: cs) = none := by
    unfold behind?
    split
    · next heq => cases hc (List.cons.inj heq).1
    · rfl
  rw [erase]
  split
  · next hsome =>
    rw [hnone] at hsome
    cases hsome
  · rfl

/-! ## Parts of a text -/

/-- Whatever follows, erasing the colours of the first text leaves the second one. -/
def Erases (cs ds : List Char) : Prop := ∀ rest, erase (cs ++ rest) = ds ++ erase rest

variable {cs cs' ds ds' : List Char}

lemma Erases.erase_eq (h : Erases cs ds) : erase cs = ds := by
  have hend := h []
  rwa [List.append_nil, erase, List.append_nil] at hend

lemma Erases.append (h : Erases cs ds) (h' : Erases cs' ds') :
    Erases (cs ++ cs') (ds ++ ds') := by
  intro rest
  rw [List.append_assoc, h, h', List.append_assoc]

lemma erases_flatMap {α : Type} {f g : α → List Char} {xs : List α}
    (h : ∀ x ∈ xs, Erases (f x) (g x)) : Erases (xs.flatMap f) (xs.flatMap g) := by
  induction xs with
  | nil => exact fun rest => rfl
  | cons x xs ih =>
    obtain ⟨hx, hxs⟩ := List.forall_mem_cons.1 h
    rw [List.flatMap_cons, List.flatMap_cons]
    exact hx.append (ih hxs)

/-- What holds no escape character has no colours. -/
lemma erases_of_not_mem (h : '\x1b' ∉ cs) : Erases cs cs := by
  intro rest
  induction cs with
  | nil => rfl
  | cons c cs ih =>
    rw [List.mem_cons, not_or] at h
    obtain ⟨hc, hcs⟩ := h
    rw [List.cons_append, erase_cons (Ne.symm hc), ih hcs, List.cons_append]

/-- The sequences before and behind a painted text are erased. -/
lemma erases_paint (c : Colour) {text : String} (h : '\x1b' ∉ text.toList) :
    Erases (c.paint text).toList text.toList := by
  have hfront : Erases ("\x1b[" ++ c.number ++ "m").toList [] := fun rest =>
    erase_of_behind? (by cases c <;> rfl)
  have hback : Erases "\x1b[0m".toList [] := fun rest => erase_of_behind? rfl
  rw [paint, String.toList_append, String.toList_append]
  have hall := (hfront.append (erases_of_not_mem h)).append hback
  rwa [List.nil_append, List.append_nil] at hall

end Colour

namespace Violation

open Colour

/-! ## One violation -/

/-- The texts of a violation. -/
def texts (v : Violation) : List String :=
  [v.code, v.rule, v.location.file, v.message] ++ v.suggestion.toList

/-- No text of the violation holds an escape character. -/
def IsPlain (v : Violation) : Prop := ∀ text ∈ v.texts, '\x1b' ∉ text.toList

/-- The block of a violation up to its severity. -/
def heading (v : Violation) : String :=
  v.code ++ " " ++ v.rule ++ " at " ++ v.location.describe ++ "\n  "

/-- The hint of a violation on a line of its own. -/
def help (v : Violation) : String :=
  match v.suggestion with
  | some hint => "  = help: " ++ hint ++ "\n"
  | none => ""

/-- The block of a violation from its severity on, and an empty line. -/
def body (v : Violation) : String := ": " ++ v.message ++ "\n" ++ v.help ++ "\n"

variable {v : Violation}

lemma coloured_eq (v : Violation) :
    v.coloured = v.heading ++ v.severity.colour.paint v.severity.name ++ v.body := by
  obtain ⟨code, rule, severity, location, message, suggestion⟩ := v
  cases suggestion <;> simp only [coloured, heading, body, help, String.append_assoc]

lemma format_eq (v : Violation) :
    v.format ++ "\n" = v.heading ++ v.severity.name ++ v.body := by
  obtain ⟨code, rule, severity, location, message, suggestion⟩ := v
  cases suggestion <;> simp only [format, heading, body, help, String.append_assoc]

lemma IsPlain.heading (h : v.IsPlain) : '\x1b' ∉ v.heading.toList := by
  have hcode := h v.code (by simp [texts])
  have hrule := h v.rule (by simp [texts])
  have hfile := h v.location.file (by simp [texts])
  have hnumber : ∀ n : Nat, '\x1b' ∉ (toString n).toList := not_mem_toString rfl
  simp only [Violation.heading, Location.describe, String.toList_append, List.mem_append, hcode,
    hrule, hfile, hnumber, or_false, false_or]
  decide

lemma IsPlain.body (h : v.IsPlain) : '\x1b' ∉ v.body.toList := by
  have hmessage := h v.message (by simp [texts])
  have hhelp : '\x1b' ∉ v.help.toList := by
    rw [help]
    split
    · next hint hsome =>
      have hhint := h hint (by simp [texts, hsome])
      simp [hhint]
    · decide
  simp [Violation.body, hmessage, hhelp]

/-- The coloured block of a violation is the plain one with colours. -/
theorem erases_coloured (h : v.IsPlain) :
    Erases v.coloured.toList (v.format ++ "\n").toList := by
  have hname : '\x1b' ∉ v.severity.name.toList := by cases v.severity <;> decide
  rw [coloured_eq, format_eq]
  simp only [String.toList_append]
  exact ((erases_of_not_mem h.heading).append (erases_paint _ hname)).append
    (erases_of_not_mem h.body)

end Violation

namespace Report

open Colour

/-! ## All violations -/

lemma erases_summaryLine (r : Report) :
    Erases r.summaryLine.toList (r.summary ++ "\n").toList := by
  have hnumber : ∀ n : Nat, '\x1b' ∉ (toString n).toList := not_mem_toString rfl
  have hsummary : '\x1b' ∉ r.summary.toList := by
    simp only [summary, String.toList_append, List.mem_append, hnumber, or_false]
    decide
  rw [summaryLine, String.toList_append, String.toList_append]
  exact (erases_paint _ hsummary).append (erases_of_not_mem (by decide))

/-- **The format `text` is the plain wording with colours.**  If no text of a violation holds an
escape character, erasing the colours of what is printed leaves the plain block of each violation
with an empty line behind it, one after the other, and then the summary without its colour. -/
theorem erased_renderText {r : Report}
    (h : ∀ v ∈ r.violations, ∀ text ∈ v.texts, '\x1b' ∉ text.toList) :
    erased r.renderText
        = String.join (r.violations.map fun v => v.format ++ "\n") ++ erased r.summaryLine ∧
      erased r.summaryLine = r.summary ++ "\n" := by
  have hblocks := erases_flatMap fun v hv => Violation.erases_coloured (h v hv)
  have hsummary := r.erases_summaryLine
  have hline : erased r.summaryLine = r.summary ++ "\n" := by
    rw [erased, hsummary.erase_eq, String.ofList_toList]
  refine ⟨String.toList_inj.1 ?_, hline⟩
  rw [hline, erased, String.toList_ofList, renderText, String.toList_append, String.toList_append,
    String.toList_join, String.toList_join, List.flatMap_map, List.flatMap_map]
  exact (hblocks.append hsummary).erase_eq

/-- A violation with a hint, and one whose message looks like a colour but for the escape character.
-/
theorem erased_renderText_two :
    let hinted : Violation := ⟨"PDR001", "open", .error, ⟨"a.py", 2, 5, 13, 18⟩, "no", some "mend"⟩
    let painted : Violation := ⟨"PDR001", "open", .info, ⟨"a.py", 13, 1, 0, 0⟩, "[31mno[0m", none⟩
    let r : Report := ⟨[hinted, painted], 1⟩
    (∀ v ∈ r.violations, ∀ text ∈ v.texts, '\x1b' ∉ text.toList) ∧
      erased r.renderText = "PDR001 open at a.py:2:5\n  error: no\n  = help: mend\n\n"
        ++ "PDR001 open at a.py:13:1\n  info: [31mno[0m\n\n"
        ++ "Found 1 error(s), 0 warning(s), 1 info(s) in 1 file(s)\n" := by
  intro hinted painted r
  have hplain : ∀ v ∈ r.violations, ∀ text ∈ v.texts, '\x1b' ∉ text.toList := by decide
  obtain ⟨htext, hline⟩ := erased_renderText hplain
  refine ⟨hplain, ?_⟩
  rw [htext, hline]
  decide +kernel

end Report

end PermissionLint
