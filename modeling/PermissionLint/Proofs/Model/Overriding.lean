/-
Visitors that override some of the hooks.

A hook that is not overridden goes down to the parts of its node and does nothing else.  So it makes
no difference to the other hooks: what a visitor does to its state is what it does at the events of
the whole visit that belong to its own hooks, one after the other and in the same order
(`overriding_visitModule`).  Writing down those events is the case of `recorder_visitModule`.
-/
import PermissionLint.Proofs.Model.Pruning

namespace PermissionLint.Model

/-- The visitor that overrides some of the hooks: there it does something with the node and then goes
down to its parts.  The other hooks only go down. -/
def Visitor.overriding {σ : Type} (hooks : Hook → Bool) (act : Event → σ → σ) : Visitor σ :=
  fun event descend s => if hooks event.hook then descend (act event s) else descend s

/-- The name that an event announces. -/
def Event.name? : Event → Option String
  | .expr (.name id _) => some id
  | _ => none

/-- The visitor that overrides the hook for expressions only, and collects names there. -/
def Visitor.nameCollector : Visitor (List String) :=
  .overriding (· == .expr) fun event seen => seen ++ event.name?.toList

variable {σ : Type} (hooks : Hook → Bool) (act : Event → σ → σ)

/-! ## One call -/

/-- What is done to the one state is what is done at the events of the hooks, among those that are
added to the other one. -/
def RunsThrough (visit : σ → σ) (record : List Event → List Event) : Prop :=
  ∃ events, (∀ seen, record seen = seen ++ events) ∧
    ∀ s, visit s = (events.filter fun e => hooks e.hook).foldl (fun s e => act e s) s

lemma keeps_runsThrough :
    Keeps (RunsThrough hooks act) (.overriding hooks act)
      (Visitor.recorder (fun _ => true) (· ∈ ([] : List Hook))) where
  nothing := ⟨[], fun _ => (List.append_nil _).symm, fun _ => rfl⟩
  both := by
    rintro f f' g g' ⟨events, hf', hf⟩ ⟨events', hg', hg⟩
    refine ⟨events ++ events', fun seen => ?_, fun s => ?_⟩
    · dsimp only
      rw [hg', hf', List.append_assoc]
    · dsimp only
      rw [hg, hf, List.filter_append, List.foldl_append]
  call := by
    rintro event d d' ⟨events, hd', hd⟩
    refine ⟨event :: events, fun seen => ?_, fun s => ?_⟩
    · simp [Visitor.recorder, hd']
    · rw [Visitor.overriding, List.filter_cons]
      split <;> rw [hd]
      rfl

/-! ## Whole visits -/

/-- **A visit does what its visitor does at the events of its own hooks.** -/
theorem overriding_visitModule (m : Module) (s : σ) :
    (Visitor.overriding hooks act).visitModule m s
      = ((m.events []).filter fun e => hooks e.hook).foldl (fun s e => act e s) s := by
  obtain ⟨events, hrecord, hvisit⟩ := (keeps_runsThrough hooks act).visitModule m
  have hevents : m.events [] = events := hrecord []
  rw [hevents, hvisit]

lemma recorder_eq_overriding :
    (Visitor.recorder hooks fun _ => false)
      = .overriding hooks fun event seen => seen ++ [event] := by
  funext event descend seen
  rw [Visitor.recorder, Visitor.overriding, if_neg Bool.false_ne_true]
  split <;> rfl

lemma recorder_visitModule (m : Module) :
    (Visitor.recorder hooks fun _ => false).visitModule m []
      = (m.events []).filter fun e => hooks e.hook := by
  rw [recorder_eq_overriding, overriding_visitModule, List.foldl_append_eq_append, List.nil_append,
    ← List.flatMap_def, List.flatMap_singleton']

/-- Only expressions announce a name. -/
lemma name?_of_hook_ne {event : Event} (h : event.hook ≠ .expr) : event.name? = none := by
  cases event with
  | expr e => exact absurd rfl h
  | _ => rfl

lemma nameCollector_visitModule (m : Module) :
    Visitor.nameCollector.visitModule m [] = (m.events []).filterMap Event.name? := by
  have hnames : ((m.events []).filter fun e => e.hook == .expr).filterMap Event.name?
      = (m.events []).filterMap Event.name? := by
    rw [List.filterMap_filter]
    congr 1
    funext event
    by_cases h : event.hook = .expr
    · rw [if_pos (by simpa using h)]
    · rw [if_neg (by simpa using h), name?_of_hook_ne h]
  rw [Visitor.nameCollector, overriding_visitModule, List.foldl_append_eq_append, List.nil_append,
    ← List.flatMap_def, ← List.filterMap_eq_flatMap_toList, hnames]

/-- **Overriding some hooks does not change what the others see.**  A visitor that overrides some of
the hooks, and goes down from each of them, runs through the events of these hooks in the whole visit,
in the same order.  So if it writes them down, it has that part of what a visitor with all hooks
writes down, and a visitor that overrides the hook for expressions only collects the names that are
announced in the whole visit. -/
theorem visitModule_overriding (m : Module) (hooks : Hook → Bool) :
    (∀ {σ : Type} (act : Event → σ → σ) (s : σ),
        (Visitor.overriding hooks act).visitModule m s
          = ((m.events []).filter fun e => hooks e.hook).foldl (fun s e => act e s) s) ∧
      (Visitor.recorder hooks fun _ => false).visitModule m []
        = ((Visitor.recorder (fun _ => true) fun _ => false).visitModule m []).filter
            (fun e => hooks e.hook) ∧
      Visitor.nameCollector.visitModule m []
        = ((Visitor.recorder (fun _ => true) fun _ => false).visitModule m []).filterMap
            Event.name? := by
  have hall : (Visitor.recorder (fun _ => true) fun _ => false).visitModule m [] = m.events [] := by
    rw [recorder_visitModule, List.filter_true]
  refine ⟨fun act s => overriding_visitModule hooks act m s, ?_, ?_⟩
  · rw [hall, recorder_visitModule]
  · rw [hall, nameCollector_visitModule]

end PermissionLint.Model
