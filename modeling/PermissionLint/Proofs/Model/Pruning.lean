/-
Visits that do not go down everywhere.

A recording visitor that does not go down from some hooks loses exactly the events inside of a call
at such a hook.  The main result, `events_eq_filter`, also says in terms of the nodes of the module
what the list without any stops is, and what is around each event.

Two visitors are compared call by call: what holds of doing nothing, passes to doing one thing after
another and passes from the visit of the parts of a node to that of the node, holds of a whole visit
(`Keeps.visitModule`).
-/
import PermissionLint.Proofs.Model.Calls

namespace PermissionLint.Model

/-! ## Comparing visitors -/

/-- A relation between what two visitors do to their states, kept by every call. -/
structure Keeps {σ τ : Type} (R : (σ → σ) → (τ → τ) → Prop) (v : Visitor σ) (w : Visitor τ) :
    Prop where
  nothing : R (fun s => s) (fun t => t)
  both : ∀ {f f' g g'}, R f f' → R g g' → R (fun s => g (f s)) (fun t => g' (f' t))
  call : ∀ event {d d'}, R d d' → R (v event d) (w event d')

namespace Keeps

variable {σ τ : Type} {R : (σ → σ) → (τ → τ) → Prop} {v : Visitor σ} {w : Visitor τ}

mutual

lemma visitExpr (h : Keeps R v w) : ∀ e : Expr, R (v.visitExpr e) (w.visitExpr e)
  | .name .. | .other .. => h.call _ h.nothing
  | .list elts _ | .tuple elts _ => h.call _ (h.visitExprs elts)
  | .attr value _ _ | .starred value _ => h.call _ (h.visitExpr value)
  | .call func args _ => h.call _ (h.both (h.visitExpr func) (h.visitExprs args))

lemma visitExprs (h : Keeps R v w) : ∀ es : List Expr, R (v.visitExprs es) (w.visitExprs es)
  | [] => h.nothing
  | e :: es => by
    have hboth := h.both (h.visitExpr e) (h.visitExprs es)
    exact hboth

end

lemma visitOptional (h : Keeps R v w) : ∀ value : Option Expr,
    R (v.visitOptional value) (w.visitOptional value)
  | none => h.nothing
  | some e => h.visitExpr e

mutual

lemma visitStmt (h : Keeps R v w) : ∀ s : Stmt, R (v.visitStmt s) (w.visitStmt s)
  | .classDef _ bases body _ =>
    h.call _ (h.call _ (h.both (h.visitExprs bases) (h.visitStmts body)))
  | .functionDef _ _ body _ => h.call _ (h.call _ (h.visitStmts body))
  | .assign targets value _ =>
    h.call _ (h.call _ (h.both (h.visitExprs targets) (h.visitExpr value)))
  | .annAssign target hint value _ =>
    h.call _ (h.call _ (h.both (h.both (h.visitExpr target) (h.visitExpr hint))
      (h.visitOptional value)))
  | .compound _ bodies _ => h.call _ (h.call _ (h.visitBodies bodies))
  | .other .. => h.call _ h.nothing

lemma visitStmts (h : Keeps R v w) : ∀ ss : List Stmt, R (v.visitStmts ss) (w.visitStmts ss)
  | [] => h.nothing
  | s :: ss => by
    have hboth := h.both (h.visitStmt s) (h.visitStmts ss)
    exact hboth

lemma visitBodies (h : Keeps R v w) : ∀ bodies : List (List Stmt),
    R (v.visitBodies bodies) (w.visitBodies bodies)
  | [] => h.nothing
  | body :: bodies => by
    have hboth := h.both (h.visitStmts body) (h.visitBodies bodies)
    exact hboth

end

/-- **What every call keeps, a visit keeps.** -/
theorem visitModule (h : Keeps R v w) (m : Module) : R (v.visitModule m) (w.visitModule m) :=
  h.call _ (h.visitStmts m.body)

end Keeps

/-! ## Calls without what is inside -/

namespace CallTree

mutual

/-- The events of a call and of those inside it, if calls at some hooks have none inside. -/
def pruned (stops : List Hook) : CallTree → List Event
  | call event inner => event :: if event.hook ∈ stops then [] else prunedAll stops inner

/-- The events of several calls, if those at some hooks have none inside. -/
def prunedAll (stops : List Hook) : List CallTree → List Event
  | [] => []
  | c :: cs => c.pruned stops ++ prunedAll stops cs

end

lemma prunedAll_append (stops : List Hook) (cs ds : List CallTree) :
    prunedAll stops (cs ++ ds) = prunedAll stops cs ++ prunedAll stops ds := by
  induction cs with
  | nil => rfl
  | cons c cs ih => rw [List.cons_append, prunedAll, prunedAll, ih, List.append_assoc]

end CallTree

/-- The event is inside of a call at one of the hooks. -/
def Occurrence.isCutOff (stops : List Hook) (o : Occurrence) : Bool :=
  o.around.any fun event => event.hook ∈ stops

namespace CallTree

variable {stops : List Hook}

mutual

/-- Everything inside of a call at one of the hooks is cut off. -/
lemma isCutOff_of_mem_occurrences : ∀ (c : CallTree) {around : List Event},
    around.any (fun event => event.hook ∈ stops) = true →
      ∀ o ∈ c.occurrences around, o.isCutOff stops = true
  | call event inner, around, h => by
    have hinner : (around ++ [event]).any (fun event => event.hook ∈ stops) = true := by
      rw [List.any_append, h, Bool.true_or]
    rw [occurrences, List.forall_mem_cons]
    exact ⟨h, isCutOff_of_mem_occurrencesAll inner hinner⟩

lemma isCutOff_of_mem_occurrencesAll : ∀ (cs : List CallTree) {around : List Event},
    around.any (fun event => event.hook ∈ stops) = true →
      ∀ o ∈ occurrencesAll around cs, o.isCutOff stops = true
  | [], _, _ => fun o ho => absurd ho List.not_mem_nil
  | c :: cs, _, h => by
    rw [occurrencesAll, List.forall_mem_append]
    exact ⟨isCutOff_of_mem_occurrences c h, isCutOff_of_mem_occurrencesAll cs h⟩

end

mutual

/-- Outside of the hooks, what is left of a call is what is not cut off. -/
lemma pruned_eq_filter : ∀ (c : CallTree) {around : List Event},
    around.any (fun event => event.hook ∈ stops) = false →
      c.pruned stops
        = ((c.occurrences around).filter fun o => !o.isCutOff stops).map Occurrence.event
  | call event inner, around, h => by
    have hfirst : Occurrence.isCutOff stops ⟨around, event⟩ = false := h
    have haround : (around ++ [event]).any (fun event => event.hook ∈ stops)
        = decide (event.hook ∈ stops) := by
      rw [List.any_append, h, List.any_cons, List.any_nil, Bool.or_false, Bool.false_or]
    rw [pruned, occurrences, List.filter_cons_of_pos (by simp [hfirst]), List.map_cons]
    split
    · next hstop =>
      have hcut := isCutOff_of_mem_occurrencesAll inner (haround.trans (decide_eq_true hstop))
      have hnone : ((occurrencesAll (around ++ [event]) inner).filter fun o => !o.isCutOff stops)
          = [] := by
        refine List.filter_eq_nil_iff.2 fun o ho => ?_
        rw [hcut o ho]
        exact Bool.false_ne_true
      rw [hnone, List.map_nil]
    · next hstop => rw [prunedAll_eq_filter inner (haround.trans (decide_eq_false hstop))]

lemma prunedAll_eq_filter : ∀ (cs : List CallTree) {around : List Event},
    around.any (fun event => event.hook ∈ stops) = false →
      prunedAll stops cs
        = ((occurrencesAll around cs).filter fun o => !o.isCutOff stops).map Occurrence.event
  | [], _, _ => rfl
  | c :: cs, _, h => by
    rw [prunedAll, occurrencesAll, List.filter_append, List.map_append, pruned_eq_filter c h,
      prunedAll_eq_filter cs h]

end

end CallTree

/-! ## Recording -/

/-- What a recorder adds is what is left of the calls that a tracer adds. -/
def AddsPruned (stops : List Hook) (record : List Event → List Event)
    (trace : List CallTree → List CallTree) : Prop :=
  (∀ seen, record seen = seen ++ CallTree.prunedAll stops (trace [])) ∧
    ∀ calls, trace calls = calls ++ trace []

lemma keeps_addsPruned (stops : List Hook) :
    Keeps (AddsPruned stops) (Visitor.recorder (fun _ => true) (· ∈ stops)) Visitor.tracer where
  nothing := ⟨fun _ => (List.append_nil _).symm, fun _ => (List.append_nil _).symm⟩
  both := by
    rintro f f' g g' ⟨hf, hf'⟩ ⟨hg, hg'⟩
    refine ⟨fun seen => ?_, fun calls => ?_⟩
    · dsimp only
      rw [hg, hf, hg' (f' []), CallTree.prunedAll_append, List.append_assoc]
    · dsimp only
      rw [hg', hf', hg' (f' []), List.append_assoc]
  call := by
    rintro event d d' ⟨hd, -⟩
    refine ⟨fun seen => ?_, fun calls => rfl⟩
    simp only [Visitor.recorder, Visitor.tracer, if_true, List.nil_append, CallTree.prunedAll,
      CallTree.pruned, List.append_nil, decide_eq_true_eq]
    split
    · rfl
    · rw [hd, List.append_assoc, List.singleton_append]

lemma events_eq_prunedAll (m : Module) (stops : List Hook) :
    m.events stops = CallTree.prunedAll stops m.calls := by
  have hvisit := ((keeps_addsPruned stops).visitModule m).1 []
  rw [List.nil_append] at hvisit
  exact hvisit

/-- **Stopping a visitor cuts off exactly what is inside of the calls where it stops.**  Whatever the
hooks are from which the visitor does not go down, the events left are those of the whole visit that
are not inside of a call at one of them, in the same order.  The whole visit announces the module and
then one node after the other, depth first: a statement as such and at once as what it is, unless
only its kind is known, and an expression as an expression.  Inside of the call for the module, the
events of a node are inside of those of the nodes it is a part of, and of its own before them. -/
theorem events_eq_filter (m : Module) :
    m.events [] = m.occurrences.map Occurrence.event ∧
      (∀ stops, m.events stops
        = (m.occurrences.filter fun o => ¬ ∃ event ∈ o.around, event.hook ∈ stops).map
            Occurrence.event) ∧
      ∃ places : List (List Nat), places.Pairwise (· < ·) ∧
        (∀ place, place ∈ places ↔ (m.node? place).isSome = true) ∧
        (m.events [] = .module m :: places.flatMap fun place =>
          match m.node? place with
          | some (.stmt s) => .stmt s :: s.ownEvent?.toList
          | some (.expr e) => [.expr e]
          | none => []) ∧
        m.occurrences = ⟨[], .module m⟩ :: places.flatMap fun place =>
          nested (.module m :: eventsAbove m.node? place) (eventsAt m.node? place) := by
  have hfilter : ∀ stops, m.events stops
      = (m.occurrences.filter fun o => !o.isCutOff stops).map Occurrence.event := by
    intro stops
    rw [events_eq_prunedAll]
    exact CallTree.prunedAll_eq_filter m.calls rfl
  have hevents : m.events [] = m.occurrences.map Occurrence.event := by
    have hall : (m.occurrences.filter fun o => !o.isCutOff []) = m.occurrences := by
      refine List.filter_eq_self.2 fun o _ => ?_
      simp [Occurrence.isCutOff]
    rw [hfilter, hall]
  refine ⟨hevents, fun stops => ?_, ?_⟩
  · rw [hfilter]
    congr 2
    funext o
    rw [Bool.eq_iff_iff]
    simp [Occurrence.isCutOff]
  · obtain ⟨places, hplaces, hoccurrences⟩ := m.exists_places
    refine ⟨places, hplaces.increasing, hplaces.mem_iff, ?_, hoccurrences⟩
    rw [hevents, hoccurrences, List.map_cons, List.map_flatMap]
    congr 2
    funext place
    rw [occurrencesAt, map_event_nested, eventsAt]
    rcases m.node? place with _ | (s | e) <;> rfl

end PermissionLint.Model
