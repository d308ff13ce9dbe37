/-
Configurations say what their documents say.

A document is well typed if its sections are tables and the value of each known key, where there is
one, spells something of the kind of that key (`IsTyped`).  Then there is a configuration in which
each setting is what the document spells, or the default where it says nothing, and in which the
section of a rule keeps all keys that are not known as they are (`Config.IsReadFrom`).  A
configuration of this kind is what decoding finds (`IsReadFrom.ofDocument?_eq`), so a document that
is well typed is never refused (`parse_of_isTyped`).
-/
import Mathlib.Data.List.Forall2
import PermissionLint.Config

namespace PermissionLint

open PermissionLint.Toml

namespace Config

/-! ## Keys and what they spell -/

/-- The value that spells a severity: its name in lower case. -/
def spellSeverity (s : Severity) : Value := .string s.name

/-- The value that spells a list of texts. -/
def spellTexts (texts : List String) : Value := .array (texts.map .string)

section Keys

variable {α : Type} {spell : α → Value} {entries : List (String × Value)} {key : String}
  {default x : α}

/-- The value of the key, if there is one, spells something. -/
def MaySpell (spell : α → Value) (entries : List (String × Value)) (key : String) : Prop :=
  ∀ v, lookup? key entries = some v → ∃ x, v = spell x

/-- The setting is what the value of the key spells, or the default if the key is absent. -/
def Spells (spell : α → Value) (entries : List (String × Value)) (key : String) (default x : α) :
    Prop :=
  match lookup? key entries with
  | some v => v = spell x
  | none => x = default

lemma MaySpell.exists_spells (h : MaySpell spell entries key) (default : α) :
    ∃ x, Spells spell entries key default x := by
  simp only [Spells]
  cases hvalue : lookup? key entries with
  | none => exact ⟨default, rfl⟩
  | some v => exact h v hvalue

/-- What the key spells is what is decoded. -/
lemma Spells.field_eq (decode : Value → Option α) (h : Spells spell entries key default x)
    (hdecode : ∀ x, decode (spell x) = some x) :
    field decode default (lookup? key entries) = some x := by
  rw [Spells] at h
  split at h
  · next v hvalue =>
    rw [hvalue, h]
    exact hdecode x
  · next hvalue => rw [hvalue, h, field]

/-- A setting without a default is there if the key is. -/
lemma MaySpell.exists_optional (h : MaySpell spell entries key) :
    ∃ x : Option α, lookup? key entries = x.map spell := by
  cases hvalue : lookup? key entries with
  | none => exact ⟨none, rfl⟩
  | some v =>
    obtain ⟨x, rfl⟩ := h v hvalue
    exact ⟨some x, rfl⟩

lemma field_optional (decode : Value → Option α) {x : Option α}
    (h : lookup? key entries = x.map spell) (hdecode : ∀ x, decode (spell x) = some x) :
    field (fun v => (decode v).map some) none (lookup? key entries) = some x := by
  rw [h]
  cases x with
  | none => rfl
  | some x => exact congrArg (Option.map some) (hdecode x)

/-- Leaving out some keys does not change the values of the others. -/
lemma lookup?_filter (kept : String → Bool) :
    lookup? key (entries.filter fun e => kept e.1)
      = if kept key then lookup? key entries else none := by
  have hkey : (fun e : String × Value => decide (kept e.1 = true ∧ (e.1 == key) = true))
      = fun e => kept key && e.1 == key := by
    funext e
    by_cases he : e.1 = key
    · simp [he]
    · simp [beq_eq_false_iff_ne.2 he]
  rw [lookup?, List.find?_filter, hkey]
  cases kept key with
  | true => rfl
  | false => exact congrArg _ (List.find?_eq_none.2 fun e _ => Bool.false_ne_true)

end Keys

lemma stringsOf?_spellTexts (texts : List String) : stringsOf? (spellTexts texts) = some texts := by
  change (texts.map Value.string).mapM stringOf? = some texts
  induction texts with
  | nil => rfl
  | cons text texts ih =>
    rw [List.map_cons, List.mapM_cons, ih]
    rfl

/-! ## The sections -/

/-- The table under a key, with no entries if there is none. -/
def tableAt (key : String) (entries : List (String × Value)) : List (String × Value) :=
  match lookup? key entries with
  | some (.table inner) => inner
  | _ => []

/-- A section that is absent is decoded as an empty one is. -/
lemma MaySpell.field_eq {α : Type} {decode : Value → Option α} {entries : List (String × Value)}
    {key : String} {default x : α} (h : MaySpell .table entries key)
    (hempty : decode (.table []) = some default)
    (hdecode : decode (.table (tableAt key entries)) = some x) :
    field decode default (lookup? key entries) = some x := by
  rw [tableAt] at hdecode
  cases hvalue : lookup? key entries with
  | none =>
    rw [hvalue] at hdecode
    exact hempty.symm.trans hdecode
  | some v =>
    obtain ⟨inner, rfl⟩ := h v hvalue
    rw [hvalue] at hdecode
    exact hdecode

end Config

open Config

/-- The known keys of the section for what is checked have values of their kinds. -/
structure AnalyzerSection.IsTyped (entries : List (String × Value)) : Prop where
  root : MaySpell .string entries "root"
  exclude : MaySpell spellTexts entries "exclude"
  respectGitignore : MaySpell .boolean entries "respect_gitignore"

/-- The section says what its entries spell, and the default for keys that are absent. -/
structure AnalyzerSection.IsReadFrom (entries : List (String × Value)) (a : AnalyzerSection) :
    Prop where
  root : Spells .string entries "root" ({} : Config).analyzer.root a.root
  exclude : Spells spellTexts entries "exclude" ({} : Config).analyzer.exclude a.exclude
  respectGitignore : Spells .boolean entries "respect_gitignore"
    ({} : Config).analyzer.respectGitignore a.respectGitignore

/-- The known keys of the section of a rule have values of their kinds. -/
structure RuleSection.IsTyped (entries : List (String × Value)) : Prop where
  enabled : MaySpell .boolean entries "enabled"
  severity : MaySpell spellSeverity entries "severity"

/-- The section says what its entries spell, and keeps all keys that are not known with their
values. -/
structure RuleSection.IsReadFrom (entries : List (String × Value)) (r : RuleSection) : Prop where
  enabled : lookup? "enabled" entries = r.enabled.map .boolean
  severity : lookup? "severity" entries = r.severity.map spellSeverity
  options : r.options = entries.filter fun e => e.1 ≠ "enabled" ∧ e.1 ≠ "severity"

namespace AnalyzerSection

variable {entries : List (String × Value)} {a : AnalyzerSection}

lemma IsTyped.exists_isReadFrom (h : IsTyped entries) : ∃ a, IsReadFrom entries a := by
  obtain ⟨root, hroot⟩ := h.root.exists_spells ({} : Config).analyzer.root
  obtain ⟨exclude, hexclude⟩ := h.exclude.exists_spells ({} : Config).analyzer.exclude
  obtain ⟨respect, hrespect⟩ :=
    h.respectGitignore.exists_spells ({} : Config).analyzer.respectGitignore
  exact ⟨⟨root, exclude, respect⟩, hroot, hexclude, hrespect⟩

lemma IsReadFrom.analyzerOf?_eq (h : IsReadFrom entries a) :
    analyzerOf? (.table entries) = some a := by
  have hroot := h.root.field_eq stringOf? fun _ => rfl
  have hexclude := h.exclude.field_eq stringsOf? stringsOf?_spellTexts
  have hrespect := h.respectGitignore.field_eq booleanOf? fun _ => rfl
  simp only [analyzerOf?, hroot, hexclude, hrespect]
  rfl

end AnalyzerSection

namespace RuleSection

variable {entries : List (String × Value)} {r : RuleSection}

lemma IsTyped.exists_isReadFrom (h : IsTyped entries) : ∃ r, IsReadFrom entries r := by
  obtain ⟨enabled, henabled⟩ := h.enabled.exists_optional
  obtain ⟨severity, hseverity⟩ := h.severity.exists_optional
  exact ⟨⟨enabled, severity, _⟩, henabled, hseverity, rfl⟩

lemma IsReadFrom.ruleOf?_eq (h : IsReadFrom entries r) : ruleOf? (.table entries) = some r := by
  have henabled := field_optional booleanOf? h.enabled fun _ => rfl
  have hseverity := field_optional severityOf? h.severity Severity.ofName?_name
  have hoptions : (entries.filter fun e => e.1 != "enabled" && e.1 != "severity") = r.options := by
    rw [h.options]
    exact List.filter_congr fun e _ => by rw [Bool.eq_iff_iff]; simp
  simp only [ruleOf?, henabled, hseverity, hoptions]
  rfl

/-- The value of a key that is an option of the rule. -/
def optionAt (key : String) (entries : List (String × Value)) : Option Value :=
  if key = "enabled" ∨ key = "severity" then none else lookup? key entries

lemma IsReadFrom.lookup?_options (h : IsReadFrom entries r) (key : String) :
    lookup? key r.options = optionAt key entries := by
  rw [h.options, lookup?_filter (fun key => key ≠ "enabled" ∧ key ≠ "severity"), optionAt]
  by_cases hknown : key = "enabled" ∨ key = "severity"
  · rw [if_pos hknown, if_neg]
    simpa [or_iff_not_imp_left] using hknown
  · rw [if_neg hknown, if_pos]
    simpa [not_or] using hknown

/-- A flag is the value of an option that is a boolean, and the default in all other cases. -/
lemma IsReadFrom.flag_eq (h : IsReadFrom entries r) (key : String) (default : Bool) :
    r.flag key default = match optionAt key entries with
      | some (.boolean b) => b
      | _ => default := by
  rw [← h.lookup?_options]
  rfl

end RuleSection

/-! ## Whole documents -/

namespace Config

/-- The entry is the section of a rule: the table with this name, as it is read. -/
def IsSection (e : String × Value) (r : String × RuleSection) : Prop :=
  r.1 = e.1 ∧ ∃ entries, e.2 = .table entries ∧ r.2.IsReadFrom entries

/-- The sections are tables, and the values of all known keys are of their kinds. -/
structure IsTyped (document : List (String × Value)) : Prop where
  failOn : MaySpell spellSeverity document "fail_on"
  analyzer : MaySpell .table document "analyzer"
  rules : MaySpell .table document "rules"
  analyzerKeys : AnalyzerSection.IsTyped (tableAt "analyzer" document)
  ruleKeys : ∀ e ∈ tableAt "rules" document,
    ∃ entries, e.2 = .table entries ∧ RuleSection.IsTyped entries

/-- The configuration says what the document spells, and the default for what is absent. -/
structure IsReadFrom (document : List (String × Value)) (c : Config) : Prop where
  failOn : Spells spellSeverity document "fail_on" ({} : Config).failOn c.failOn
  analyzer : c.analyzer.IsReadFrom (tableAt "analyzer" document)
  rules : List.Forall₂ IsSection (tableAt "rules" document) c.rules

variable {document sections : List (String × Value)} {rules : List (String × RuleSection)}
  {c : Config}

lemma exists_forall₂_isSection
    (h : ∀ e ∈ sections, ∃ entries, e.2 = .table entries ∧ RuleSection.IsTyped entries) :
    ∃ rules, List.Forall₂ IsSection sections rules := by
  induction sections with
  | nil => exact ⟨[], .nil⟩
  | cons e sections ih =>
    obtain ⟨⟨entries, htable, htyped⟩, hrest⟩ := List.forall_mem_cons.1 h
    obtain ⟨r, hr⟩ := htyped.exists_isReadFrom
    obtain ⟨rules, hrules⟩ := ih hrest
    exact ⟨(e.1, r) :: rules, .cons ⟨rfl, entries, htable, hr⟩ hrules⟩

lemma IsTyped.exists_isReadFrom (h : IsTyped document) : ∃ c, IsReadFrom document c := by
  obtain ⟨failOn, hfail⟩ := h.failOn.exists_spells ({} : Config).failOn
  obtain ⟨analyzer, hanalyzer⟩ := h.analyzerKeys.exists_isReadFrom
  obtain ⟨rules, hrules⟩ := exists_forall₂_isSection h.ruleKeys
  exact ⟨⟨failOn, analyzer, rules⟩, hfail, hanalyzer, hrules⟩

lemma rulesOf?_eq (h : List.Forall₂ IsSection sections rules) :
    rulesOf? (.table sections) = some rules := by
  rw [rulesOf?]
  induction h with
  | nil => rfl
  | @cons e r sections rules hsection hrest ih =>
    obtain ⟨name, v⟩ := e
    obtain ⟨name', r⟩ := r
    obtain ⟨rfl, entries, rfl, hr⟩ := hsection
    rw [List.mapM_cons, ih]
    change ((ruleOf? (.table entries)).map _).bind _ = _
    rw [hr.ruleOf?_eq]
    rfl

/-- What the document says is what is decoded. -/
theorem IsReadFrom.ofDocument?_eq (h : IsReadFrom document c)
    (hanalyzer : MaySpell .table document "analyzer") (hrules : MaySpell .table document "rules") :
    ofDocument? document = some c := by
  have hfail := h.failOn.field_eq severityOf? Severity.ofName?_name
  have hanalyzer' : field analyzerOf? {} (lookup? "analyzer" document) = some c.analyzer :=
    hanalyzer.field_eq rfl h.analyzer.analyzerOf?_eq
  have hrules' : field rulesOf? [] (lookup? "rules" document) = some c.rules :=
    hrules.field_eq rfl (rulesOf?_eq h.rules)
  simp only [ofDocument?, hfail, hanalyzer', hrules']
  rfl

/-! ## Asking a configuration -/

/-- A rule has a section in the configuration if it has one in the document. -/
lemma IsReadFrom.rule?_cases (h : IsReadFrom document c) (name : String) :
    (lookup? name (tableAt "rules" document) = none ∧ c.rule? name = none) ∨
      ∃ entries r, lookup? name (tableAt "rules" document) = some (.table entries) ∧
        c.rule? name = some r ∧ RuleSection.IsReadFrom entries r := by
  have hsections := h.rules
  rw [rule?]
  generalize tableAt "rules" document = sections, c.rules = rules at hsections
  induction hsections with
  | nil => exact .inl ⟨rfl, rfl⟩
  | @cons e r sections rules hsection _ ih =>
    obtain ⟨hname, entries, htable, hr⟩ := hsection
    rw [lookup?, List.find?_cons, List.find?_cons, hname]
    cases e.1 == name with
    | true => exact .inr ⟨entries, r.2, congrArg some htable, rfl, hr⟩
    | false => exact ih

/-- The section of a rule is read from the table with its name. -/
lemma IsReadFrom.rule (h : IsReadFrom document c) {name : String} {r : RuleSection}
    (hr : c.rule? name = some r) :
    r.IsReadFrom (tableAt name (tableAt "rules" document)) := by
  rcases h.rule?_cases name with ⟨-, hnone⟩ | ⟨entries, r', htable, hsome, hread⟩
  · cases hnone.symm.trans hr
  · obtain rfl : r' = r := Option.some.inj (hsome.symm.trans hr)
    rw [tableAt, htable]
    exact hread

/-- A rule is off only if its section says so. -/
lemma IsReadFrom.isEnabled_eq_false_iff (h : IsReadFrom document c) (name : String) :
    c.isEnabled name = false ↔
      lookup? "enabled" (tableAt name (tableAt "rules" document)) = some (.boolean false) := by
  rcases h.rule?_cases name with ⟨hnone, hrule⟩ | ⟨entries, r, htable, hrule, hread⟩
  · rw [isEnabled, hrule, tableAt, hnone]
    simp [lookup?]
  · rw [isEnabled, hrule, tableAt, htable]
    dsimp only [Option.bind_some]
    rw [hread.enabled]
    cases r.enabled <;> simp

/-- There is no section for what is checked, or every known key in it spells the default or is
absent. -/
structure HasDefaultAnalyzer (document : List (String × Value)) : Prop where
  isTable : MaySpell .table document "analyzer"
  isDefault : ({} : Config).analyzer.IsReadFrom (tableAt "analyzer" document)

lemma parse_of_isReadFrom {text : String} (hdocument : Toml.parse? text = some document)
    (h : IsReadFrom document c) (hanalyzer : MaySpell .table document "analyzer")
    (hrules : MaySpell .table document "rules") : Config.parse text = .ok c := by
  rw [parse, hdocument, Option.bind_some, h.ofDocument?_eq hanalyzer hrules]

/-- Documents without settings of their own for what is checked are read alike. -/
lemma IsReadFrom.of_hasDefaultAnalyzer {document' : List (String × Value)}
    (h : IsReadFrom document c) (hdefault : HasDefaultAnalyzer document)
    (hdefault' : HasDefaultAnalyzer document')
    (hfail : lookup? "fail_on" document' = lookup? "fail_on" document)
    (hrules : lookup? "rules" document' = lookup? "rules" document) :
    c.analyzer = ({} : Config).analyzer ∧ IsReadFrom document' c := by
  have hanalyzer : c.analyzer = ({} : Config).analyzer :=
    Option.some.inj (h.analyzer.analyzerOf?_eq.symm.trans hdefault.isDefault.analyzerOf?_eq)
  refine ⟨hanalyzer, ?_, ?_, ?_⟩
  · rw [Spells, hfail]
    exact h.failOn
  · rw [hanalyzer]
    exact hdefault'.isDefault
  · rw [tableAt, hrules]
    exact h.rules

/-- **A document that is well typed is a configuration that says what the document says.**  Each
setting is what the document spells, or the default where the key is absent; the section of a rule
keeps all other keys with their values, so that a flag is the document's boolean if there is one and
the default otherwise, and a rule is off only if its section says so.  Whether the section for what
is checked is absent, empty or spells the defaults makes no difference. -/
theorem parse_of_isTyped {text : String} {document : List (String × Value)}
    (hdocument : Toml.parse? text = some document) (htyped : IsTyped document) :
    ∃ c, Config.parse text = .ok c ∧ IsReadFrom document c ∧
      (∀ name, (c.rule? name).isSome = (lookup? name (tableAt "rules" document)).isSome) ∧
      (∀ name r, c.rule? name = some r →
        r.IsReadFrom (tableAt name (tableAt "rules" document)) ∧
        ∀ key default, r.flag key default
          = match RuleSection.optionAt key (tableAt name (tableAt "rules" document)) with
            | some (.boolean b) => b
            | _ => default) ∧
      (∀ name, c.isEnabled name = false ↔
        lookup? "enabled" (tableAt name (tableAt "rules" document)) = some (.boolean false)) ∧
      (HasDefaultAnalyzer document → c.analyzer = ({} : Config).analyzer ∧
        ∀ text' document', Toml.parse? text' = some document' → HasDefaultAnalyzer document' →
          lookup? "fail_on" document' = lookup? "fail_on" document →
          lookup? "rules" document' = lookup? "rules" document →
            Config.parse text' = .ok c) := by
  obtain ⟨c, hc⟩ := htyped.exists_isReadFrom
  refine ⟨c, parse_of_isReadFrom hdocument hc htyped.analyzer htyped.rules, hc, fun name => ?_,
    fun name r hr => ⟨hc.rule hr, (hc.rule hr).flag_eq⟩, hc.isEnabled_eq_false_iff,
    fun hdefault => ⟨?_, ?_⟩⟩
  · rcases hc.rule?_cases name with ⟨hnone, hrule⟩ | ⟨entries, r, htable, hrule, -⟩
    · rw [hnone, hrule]
      rfl
    · rw [htable, hrule]
      rfl
  · exact (hc.of_hasDefaultAnalyzer hdefault hdefault rfl rfl).1
  · intro text' document' hdocument' hdefault' hfail hrules
    obtain ⟨-, hc'⟩ := hc.of_hasDefaultAnalyzer hdefault hdefault' hfail hrules
    refine parse_of_isReadFrom hdocument' hc' hdefault'.isTable ?_
    rw [MaySpell, hrules]
    exact htyped.rules

/-- A document with a rule that is off, an option that is a flag and one that is a table. -/
def sample (analyzer : List (String × Value)) : List (String × Value) :=
  [("fail_on", .string "warning"), ("analyzer", .table analyzer),
    ("rules", .table [("x", .table [("open", .boolean true), ("enabled", .boolean false),
      ("deep", .table [("level", .array [.integer 1])])])])]

/-- The text of the document. -/
def sampleText (analyzer : String) : String :=
  "fail_on = 'warning'\n[analyzer]\n" ++ analyzer
    ++ "[rules.x]\nopen = true\nenabled = false\ndeep.level = [1]\n"

/-- A section that spells the defaults, and its text. -/
def spelledDefaults : List (String × Value) :=
  [("respect_gitignore", .boolean true), ("root", .string "."),
    ("exclude", spellTexts ({} : Config).analyzer.exclude)]

def spelledDefaultsText : String := "respect_gitignore = true\nroot = '.'\n"
  ++ "exclude = ['**/.venv/**', '**/venv/**', '**/node_modules/**', '**/migrations/**']\n"

/-- Whether a document is the sample with a section of the given kind. -/
def isSample (isSection : List (String × Value) → Bool) : List (String × Value) → Bool
  | [("fail_on", .string "warning"), ("analyzer", .table analyzer),
      ("rules", .table [("x", .table [("open", .boolean true), ("enabled", .boolean false),
        ("deep", .table [("level", .array [.integer 1])])])])] => isSection analyzer
  | _ => false

/-- Whether a section is the one that spells the defaults. -/
def isSpelledDefaults : List (String × Value) → Bool
  | [("respect_gitignore", .boolean true), ("root", .string "."),
      ("exclude", .array [.string "**/.venv/**", .string "**/venv/**",
        .string "**/node_modules/**", .string "**/migrations/**"])] => true
  | _ => false

lemma parse?_sampleText {text : String} {analyzer : List (String × Value)}
    {isSection : List (String × Value) → Bool}
    (hsection : ∀ entries, isSection entries = true → entries = analyzer)
    (hread : (Toml.parse? (sampleText text)).any (isSample isSection) = true) :
    Toml.parse? (sampleText text) = some (sample analyzer) := by
  obtain ⟨document, hdocument, hshape⟩ := (Option.any_eq_true _ _).1 hread
  rw [hdocument]
  unfold isSample at hshape
  split at hshape
  · rw [hsection _ hshape, sample]
  · cases hshape

set_option maxRecDepth 100000 in
lemma parse?_emptySection : Toml.parse? (sampleText "") = some (sample []) :=
  parse?_sampleText (fun _ => List.isEmpty_iff.1) (by decide +kernel)

set_option maxRecDepth 100000 in
lemma parse?_spelledDefaults :
    Toml.parse? (sampleText spelledDefaultsText) = some (sample spelledDefaults) := by
  have hread : (Toml.parse? (sampleText spelledDefaultsText)).any
      (isSample isSpelledDefaults) = true := by
    decide +kernel
  refine parse?_sampleText (fun entries hentries => ?_) hread
  unfold isSpelledDefaults at hentries
  split at hentries
  · rfl
  · cases hentries

lemma isTyped_sample {entries : List (String × Value)} (h : AnalyzerSection.IsTyped entries) :
    IsTyped (sample entries) where
  failOn _ hv := ⟨.warning, (Option.some.inj hv).symm⟩
  analyzer _ hv := ⟨_, (Option.some.inj hv).symm⟩
  rules _ hv := ⟨_, (Option.some.inj hv).symm⟩
  analyzerKeys := h
  ruleKeys e he := by
    obtain rfl := List.mem_singleton.1 he
    refine ⟨_, rfl, fun v hv => ⟨false, (Option.some.inj hv).symm⟩, fun v hv => ?_⟩
    cases hv

lemma hasDefaultAnalyzer_sample {entries : List (String × Value)}
    (h : ({} : Config).analyzer.IsReadFrom entries) : HasDefaultAnalyzer (sample entries) where
  isTable _ hv := ⟨_, (Option.some.inj hv).symm⟩
  isDefault := h

/-- With an empty section and with one that spells the defaults. -/
theorem parse_of_isTyped_sample :
    Toml.parse? (sampleText "") = some (sample []) ∧ IsTyped (sample []) ∧
      HasDefaultAnalyzer (sample []) ∧ HasDefaultAnalyzer (sample spelledDefaults) ∧
      ∃ c r, Config.parse (sampleText "") = .ok c ∧
        Config.parse (sampleText spelledDefaultsText) = .ok c ∧
        c.failOn = .warning ∧ c.isEnabled "x" = false ∧ c.rule? "x" = some r ∧
        r.options = [("open", .boolean true), ("deep", .table [("level", .array [.integer 1])])] ∧
        r.flag "open" false = true ∧ r.flag "enabled" true = true := by
  have htyped : IsTyped (sample []) := by
    refine isTyped_sample ⟨?_, ?_, ?_⟩ <;> exact fun v hv => nomatch hv
  have hempty : HasDefaultAnalyzer (sample []) := hasDefaultAnalyzer_sample ⟨rfl, rfl, rfl⟩
  have hspelled : HasDefaultAnalyzer (sample spelledDefaults) :=
    hasDefaultAnalyzer_sample ⟨rfl, rfl, rfl⟩
  obtain ⟨c, hparse, hread, hsections, hrules, henabled, hdefault⟩ :=
    parse_of_isTyped parse?_emptySection htyped
  obtain ⟨r, hr⟩ := Option.isSome_iff_exists.1 (hsections "x")
  obtain ⟨hsection, hflag⟩ := hrules "x" r hr
  have hname : "warning" = c.failOn.name := Value.string.inj hread.failOn
  have hfail : c.failOn = .warning := by
    refine Option.some.inj ((Severity.ofName?_name c.failOn).symm.trans ?_)
    rw [← hname]
    rfl
  exact ⟨parse?_emptySection, htyped, hempty, hspelled, c, r, hparse,
    (hdefault hempty).2 _ _ parse?_spelledDefaults hspelled rfl rfl, hfail, (henabled "x").2 rfl,
    hr, hsection.options, hflag "open" false, hflag "enabled" true⟩

end Config

end PermissionLint
