/-
Patterns over letters, of which both kinds of file patterns are made: single letters, runs of
letters, one pattern after another, and one of two patterns.

`Matches` says which texts a pattern stands for.  A pattern is tried at the front of a text, which
leaves one of several rests, and it accepts a text if it can leave nothing of it.  The main statement
is `accepts_iff`: a pattern accepts exactly the texts it stands for.
-/

namespace PermissionLint

/-- A pattern over letters of type `α`. -/
inductive Glob (α : Type) where
  /-- The empty text. -/
  | empty
  /-- One letter of a class. -/
  | one (p : α → Bool)
  /-- Any number of letters of a class. -/
  | many (p : α → Bool)
  /-- One pattern and then the other. -/
  | append (g h : Glob α)
  /-- One pattern or the other. -/
  | either (g h : Glob α)

namespace Glob

variable {α : Type}

/-- The texts that a pattern stands for. -/
inductive Matches : Glob α → List α → Prop where
  | empty : Matches .empty []
  | one {p : α → Bool} {c : α} : p c = true → Matches (.one p) [c]
  | many {p : α → Bool} {cs : List α} : (∀ c ∈ cs, p c = true) → Matches (.many p) cs
  | append {g h : Glob α} {cs ds : List α} :
      Matches g cs → Matches h ds → Matches (.append g h) (cs ++ ds)
  | left {g h : Glob α} {cs : List α} : Matches g cs → Matches (.either g h) cs
  | right {g h : Glob α} {cs : List α} : Matches h cs → Matches (.either g h) cs

/-- What a run of letters of a class can leave of a text. -/
def restsOfRun (p : α → Bool) : List α → List (List α)
  | [] => [[]]
  | c :: cs => (c :: cs) :: if p c then restsOfRun p cs else []

/-- What a pattern at the front of a text can leave of it. -/
def rests : Glob α → List α → List (List α)
  | empty, text => [text]
  | one _, [] => []
  | one p, c :: cs => if p c then [cs] else []
  | many p, text => restsOfRun p text
  | append g h, text => (g.rests text).flatMap h.rests
  | either g h, text => g.rests text ++ h.rests text

/-- The pattern can leave nothing of the text. -/
def accepts (g : Glob α) (text : List α) : Bool := (g.rests text).any List.isEmpty

/-- The patterns one after the other. -/
def sequence : List (Glob α) → Glob α
  | [] => empty
  | [g] => g
  | g :: gs => append g (sequence gs)

/-! ## A pattern accepts what it stands for -/

theorem mem_restsOfRun {p : α → Bool} {text rest : List α} :
    rest ∈ restsOfRun p text ↔ ∃ front, text = front ++ rest ∧ ∀ c ∈ front, p c = true := by
  induction text with
  | nil =>
    simp only [restsOfRun, List.mem_singleton]
    constructor
    · rintro rfl; exact ⟨[], rfl, by simp⟩
    · rintro ⟨front, h, _⟩
      exact (List.append_eq_nil_iff.1 h.symm).2
  | cons c cs ih =>
    simp only [restsOfRun, List.mem_cons]
    constructor
    · rintro (rfl | h)
      · exact ⟨[], rfl, by simp⟩
      · split at h
        · next hp =>
          obtain ⟨front, rfl, hf⟩ := ih.1 h
          exact ⟨c :: front, rfl, by simpa [hp] using hf⟩
        · simp at h
    · rintro ⟨front, h, hf⟩
      cases front with
      | nil => exact .inl h.symm
      | cons d front =>
        obtain ⟨rfl, rfl⟩ : c = d ∧ cs = front ++ rest := by simpa using h
        rw [if_pos (hf c (by simp))]
        exact .inr (ih.2 ⟨front, rfl, fun x hx => hf x (by simp [hx])⟩)

theorem mem_rests {g : Glob α} {text rest : List α} :
    rest ∈ g.rests text ↔ ∃ front, text = front ++ rest ∧ g.Matches front := by
  induction g generalizing text rest with
  | empty =>
    simp only [rests, List.mem_singleton]
    constructor
    · rintro rfl; exact ⟨[], rfl, .empty⟩
    · rintro ⟨_, rfl, ⟨⟩⟩; rfl
  | one p =>
    cases text with
    | nil =>
      simp only [rests, List.not_mem_nil, false_iff]
      rintro ⟨_, h, ⟨⟩⟩
      simp at h
    | cons c cs =>
      simp only [rests]
      constructor
      · intro h
        split at h
        · next hp => exact ⟨[c], by simp_all, .one hp⟩
        · simp at h
      · rintro ⟨_, h, hm⟩
        cases hm with
        | one hp => simp_all
  | many p =>
    rw [rests, mem_restsOfRun]
    exact ⟨fun ⟨front, h, hf⟩ => ⟨front, h, .many hf⟩,
      fun ⟨front, h, hm⟩ => ⟨front, h, by cases hm; assumption⟩⟩
  | append g h ihg ihh =>
    simp only [rests, List.mem_flatMap]
    constructor
    · rintro ⟨middle, hg, hh⟩
      obtain ⟨front, rfl, hf⟩ := ihg.1 hg
      obtain ⟨front', rfl, hf'⟩ := ihh.1 hh
      exact ⟨front ++ front', by simp, .append hf hf'⟩
    · rintro ⟨_, rfl, hm⟩
      cases hm with
      | append hg hh =>
        exact ⟨_, ihg.2 ⟨_, List.append_assoc .., hg⟩, ihh.2 ⟨_, rfl, hh⟩⟩
  | either g h ihg ihh =>
    simp only [rests, List.mem_append]
    constructor
    · rintro (hm | hm)
      · obtain ⟨front, h, hf⟩ := ihg.1 hm
        exact ⟨front, h, .left hf⟩
      · obtain ⟨front, h, hf⟩ := ihh.1 hm
        exact ⟨front, h, .right hf⟩
    · rintro ⟨front, h, hm⟩
      cases hm with
      | left hf => exact .inl (ihg.2 ⟨front, h, hf⟩)
      | right hf => exact .inr (ihh.2 ⟨front, h, hf⟩)

/-- A pattern accepts exactly the texts it stands for. -/
theorem accepts_iff {g : Glob α} {text : List α} : g.accepts text = true ↔ g.Matches text := by
  simp only [accepts, List.any_eq_true, List.isEmpty_iff]
  constructor
  · rintro ⟨_, h, rfl⟩
    obtain ⟨front, rfl, hf⟩ := mem_rests.1 h
    simpa using hf
  · intro h
    exact ⟨[], mem_rests.2 ⟨text, by simp, h⟩, rfl⟩

end Glob

end PermissionLint
