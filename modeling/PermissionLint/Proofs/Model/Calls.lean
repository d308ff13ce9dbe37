/-
The calls of a visit.

A visit makes calls inside of calls: while the parts of a node are visited, the visitor is told about
them.  `Module.calls` is the tree of these calls, written down by a visitor that goes down everywhere,
and `Module.occurrences` lists its events with those around them.  The calls at a node are those of
its own events, each inside of the one before, and inside of the last one are the calls at its parts
(`Part.calls_eq`).  So an event has around it those of the nodes that its node is inside of; the main
result, `Module.exists_places`, lists the occurrences by the places of the nodes.
-/
import PermissionLint.Proofs.Model.Nodes

namespace PermissionLint.Model

/-! ## The tree of calls -/

/-- A call of a visitor, with the calls that are made before it ends. -/
inductive CallTree where
  | call (event : Event) (inner : List CallTree)

/-- The visitor that goes down everywhere and keeps all calls. -/
def Visitor.tracer : Visitor (List CallTree) :=
  fun event descend calls => calls ++ [.call event (descend [])]

/-- The calls of a visit of a module. -/
def Module.calls (m : Module) : List CallTree := Visitor.tracer.visitModule m []

/-- An event of a visit, with the events of the calls that it is inside of, the outermost first. -/
structure Occurrence where
  around : List Event
  event : Event

namespace CallTree

mutual

/-- The events of a call and of those inside it, in the order in which they happen. -/
def occurrences (around : List Event) : CallTree → List Occurrence
  | call event inner => ⟨around, event⟩ :: occurrencesAll (around ++ [event]) inner

/-- The events of several calls, one after the other. -/
def occurrencesAll (around : List Event) : List CallTree → List Occurrence
  | [] => []
  | c :: cs => c.occurrences around ++ occurrencesAll around cs

end

lemma occurrencesAll_append (around : List Event) (cs ds : List CallTree) :
    occurrencesAll around (cs ++ ds) = occurrencesAll around cs ++ occurrencesAll around ds := by
  induction cs with
  | nil => rfl
  | cons c cs ih => rw [List.cons_append, occurrencesAll, occurrencesAll, ih, List.append_assoc]

/-- Calls at events, each inside of the one before, with others inside of the last one. -/
def nest (inner : List CallTree) : List Event → List CallTree
  | [] => inner
  | event :: events => [call event (nest inner events)]

end CallTree

/-- The events of a visit of a module, each with the events that it is inside of. -/
def Module.occurrences (m : Module) : List Occurrence := CallTree.occurrencesAll [] m.calls

/-- Events inside of some others, each also inside of the one before. -/
def nested (around : List Event) : List Event → List Occurrence
  | [] => []
  | event :: events => ⟨around, event⟩ :: nested (around ++ [event]) events

lemma map_event_nested (around events : List Event) :
    (nested around events).map Occurrence.event = events := by
  induction events generalizing around with
  | nil => rfl
  | cons event events ih => rw [nested, List.map_cons, ih]

lemma CallTree.occurrencesAll_nest (inner : List CallTree) (around events : List Event) :
    occurrencesAll around (nest inner events)
      = nested around events ++ occurrencesAll (around ++ events) inner := by
  induction events generalizing around with
  | nil => rw [nest, nested, List.nil_append, List.append_nil]
  | cons event events ih =>
    rw [nest, occurrencesAll, occurrences, occurrencesAll, ih, nested, List.append_nil,
      List.append_assoc, List.singleton_append, List.cons_append]

/-! ## Calls at nodes -/

namespace Part

/-- The calls of a visit of a node. -/
def calls : Part → List CallTree
  | stmt s => Visitor.tracer.visitStmt s []
  | expr e => Visitor.tracer.visitExpr e []

/-- The events of a visit of a node that is inside of some calls. -/
def occurrences (around : List Event) (p : Part) : List Occurrence :=
  CallTree.occurrencesAll around p.calls

end Part

namespace Visitor

lemma tracer_apply (event : Event) (descend : List CallTree → List CallTree)
    (calls : List CallTree) :
    tracer event descend calls = calls ++ [.call event (descend [])] := rfl

lemma tracer_visitExpr (e : Expr) (calls : List CallTree) :
    tracer.visitExpr e calls = calls ++ (Part.expr e).calls := by
  cases e <;> rfl

lemma tracer_visitExprs (es : List Expr) (calls : List CallTree) :
    tracer.visitExprs es calls = calls ++ (es.map Part.expr).flatMap Part.calls := by
  induction es generalizing calls with
  | nil => exact (List.append_nil calls).symm
  | cons e es ih =>
    change tracer.visitExprs es (tracer.visitExpr e calls) = _
    rw [ih, tracer_visitExpr, List.append_assoc]
    rfl

lemma tracer_visitOptional (value : Option Expr) (calls : List CallTree) :
    tracer.visitOptional value calls = calls ++ (value.toList.map Part.expr).flatMap Part.calls := by
  cases value with
  | none => exact (List.append_nil calls).symm
  | some e =>
    rw [visitOptional, tracer_visitExpr, Option.toList_some, List.map_singleton,
      List.flatMap_singleton]

lemma tracer_visitStmt (s : Stmt) (calls : List CallTree) :
    tracer.visitStmt s calls = calls ++ (Part.stmt s).calls := by
  cases s <;> rfl

lemma tracer_visitStmts (ss : List Stmt) (calls : List CallTree) :
    tracer.visitStmts ss calls = calls ++ (ss.map Part.stmt).flatMap Part.calls := by
  induction ss generalizing calls with
  | nil => exact (List.append_nil calls).symm
  | cons s ss ih =>
    change tracer.visitStmts ss (tracer.visitStmt s calls) = _
    rw [ih, tracer_visitStmt, List.append_assoc]
    rfl

lemma tracer_visitBodies (bodies : List (List Stmt)) (calls : List CallTree) :
    tracer.visitBodies bodies calls
      = calls ++ (bodies.flatten.map Part.stmt).flatMap Part.calls := by
  induction bodies generalizing calls with
  | nil => exact (List.append_nil calls).symm
  | cons body bodies ih =>
    change tracer.visitBodies bodies (tracer.visitStmts body calls) = _
    rw [ih, tracer_visitStmts, List.append_assoc, List.flatten_cons, List.map_append,
      List.flatMap_append]

end Visitor

namespace Part

/-- The calls at a node: those of its own events, and inside of the last one those at its parts. -/
lemma calls_eq (p : Part) : p.calls = CallTree.nest (p.parts.flatMap calls) p.ownEvents := by
  cases p with
  | stmt s =>
    cases s with
    | classDef | functionDef | assign | annAssign | compound | other =>
      rw [calls]
      simp [ownEvents, parts, Stmt.ownEvent?, CallTree.nest, Visitor.visitStmt,
        Visitor.tracer_apply, Visitor.tracer_visitExpr, Visitor.tracer_visitExprs,
        Visitor.tracer_visitOptional, Visitor.tracer_visitStmts, Visitor.tracer_visitBodies]
  | expr e =>
    cases e with
    | name | list | tuple | attr | call | starred | other =>
      rw [calls]
      simp [ownEvents, parts, CallTree.nest, Visitor.visitExpr, Visitor.tracer_apply,
        Visitor.tracer_visitExpr, Visitor.tracer_visitExprs]

lemma occurrencesAll_flatMap_calls (around : List Event) (ps : List Part) :
    CallTree.occurrencesAll around (ps.flatMap calls) = ps.flatMap (occurrences around) := by
  induction ps with
  | nil => rfl
  | cons p ps ih =>
    rw [List.flatMap_cons, CallTree.occurrencesAll_append, ih]
    rfl

/-- The events of a node come before those of its parts, and are around them. -/
lemma occurrences_eq (around : List Event) (p : Part) :
    p.occurrences around
      = nested around p.ownEvents ++ p.parts.flatMap (occurrences (around ++ p.ownEvents)) := by
  rw [occurrences, calls_eq, CallTree.occurrencesAll_nest, occurrencesAll_flatMap_calls]

end Part

/-! ## Events at places -/

/-- The events of the node at a place itself. -/
def eventsAt (node? : List Nat → Option Part) (place : List Nat) : List Event :=
  match node? place with
  | some p => p.ownEvents
  | none => []

/-- The events of the nodes that the node at a place is inside of, the outermost first. -/
def eventsAbove (node? : List Nat → Option Part) (place : List Nat) : List Event :=
  (List.range place.length).flatMap fun n => eventsAt node? (place.take n)

/-- The events of the node at a place itself, with what is around them. -/
def occurrencesAt (around : List Event) (node? : List Nat → Option Part) (place : List Nat) :
    List Occurrence :=
  nested (around ++ eventsAbove node? place) (eventsAt node? place)

lemma eventsAbove_cons (node? : List Nat → Option Part) (i : Nat) (is : List Nat) :
    eventsAbove node? (i :: is)
      = eventsAt node? [] ++ eventsAbove (fun place => node? (i :: place)) is := by
  rw [eventsAbove, List.length_cons, List.range_succ_eq_map, List.flatMap_cons, List.flatMap_map]
  rfl

/-- The first number only chooses where the others lead from. -/
lemma occurrencesAt_atIn?_cons (around : List Event) (ps : List Part) (i : Nat) (is : List Nat) :
    occurrencesAt around (Part.atIn? ps) (i :: is)
      = occurrencesAt around (fun place => Part.atIn? ps (i :: place)) is := by
  rw [occurrencesAt, eventsAbove_cons]
  rfl

lemma occurrencesAt_nextPlace (around : List Event) (q : Part) (ps : List Part)
    (place : List Nat) :
    occurrencesAt around (Part.atIn? (q :: ps)) (nextPlace place)
      = occurrencesAt around (Part.atIn? ps) place := by
  cases place with
  | nil => rfl
  | cons i is =>
    have hnext : (fun place => Part.atIn? (q :: ps) ((i + 1) :: place))
        = fun place => Part.atIn? ps (i :: place) :=
      funext fun place => atIn?_nextPlace q ps (i :: place)
    rw [nextPlace, occurrencesAt_atIn?_cons, occurrencesAt_atIn?_cons, hnext]

/-- Behind a node are its parts, with its own events around them. -/
lemma occurrencesAt_at?_cons (around : List Event) (p : Part) (i : Nat) (is : List Nat) :
    occurrencesAt around (fun place => p.at? place) (i :: is)
      = occurrencesAt (around ++ p.ownEvents) (Part.atIn? p.parts) (i :: is) := by
  rw [occurrencesAt, eventsAbove_cons, occurrencesAt_atIn?_cons, occurrencesAt,
    ← List.append_assoc]
  rfl

lemma flatMap_occurrencesAt_cons (around : List Event) (q : Part) (ps : List Part)
    (own others : List (List Nat)) :
    (own.map (0 :: ·) ++ others.map nextPlace).flatMap
        (occurrencesAt around (Part.atIn? (q :: ps)))
      = own.flatMap (occurrencesAt around fun place => q.at? place)
        ++ others.flatMap (occurrencesAt around (Part.atIn? ps)) := by
  rw [List.flatMap_append, List.flatMap_map, List.flatMap_map]
  simp only [occurrencesAt_nextPlace, occurrencesAt_atIn?_cons]
  rfl

/-- If the events of each of several nodes are those of its nodes in order, then so are the events of
them all. -/
lemma exists_places_of_forall {ps : List Part}
    (h : ∀ q ∈ ps, ∃ places, AreAll (fun place => q.at? place) places ∧ ∀ around,
      q.occurrences around = places.flatMap (occurrencesAt around fun place => q.at? place)) :
    ∃ places, AreAll (Part.atIn? ps) places ∧ ∀ around,
      ps.flatMap (Part.occurrences around)
        = places.flatMap (occurrencesAt around (Part.atIn? ps)) := by
  induction ps with
  | nil =>
    refine ⟨[], ⟨List.Pairwise.nil, fun place => ?_⟩, fun _ => rfl⟩
    cases place <;> simp [Part.atIn?]
  | cons q ps ih =>
    obtain ⟨hq, hps⟩ := List.forall_mem_cons.1 h
    obtain ⟨own, hown, hoccurrences⟩ := hq
    obtain ⟨others, hothers, hoccurrences'⟩ := ih hps
    refine ⟨_, areAll_cons hown hothers, fun around => ?_⟩
    rw [flatMap_occurrencesAt_cons, List.flatMap_cons, hoccurrences, hoccurrences']

lemma Part.exists_places (p : Part) : ∃ places, AreAll (fun place => p.at? place) places ∧
    ∀ around, p.occurrences around
      = places.flatMap (occurrencesAt around fun place => p.at? place) := by
  induction p using Part.nestedInduction with
  | h p ih =>
    obtain ⟨places, hplaces, hoccurrences⟩ := exists_places_of_forall ih
    refine ⟨_, areAll_parts hplaces, fun around => ?_⟩
    have hinner : places.flatMap (occurrencesAt around fun place => p.at? place)
        = places.flatMap (occurrencesAt (around ++ p.ownEvents) (Part.atIn? p.parts)) := by
      refine List.flatMap_congr fun place hplace => ?_
      cases place with
      | nil => cases (hplaces.mem_iff []).1 hplace
      | cons i is => exact occurrencesAt_at?_cons around p i is
    have hown : occurrencesAt around (fun place => p.at? place) [] = nested around p.ownEvents :=
      congrArg (nested · _) (List.append_nil around)
    rw [occurrences_eq, hoccurrences, List.flatMap_cons, hinner, hown]

/-- **A visit calls node by node, depth first and in the order of the source.**  Around the events of
a node are that of the module and those of the nodes that it is inside of. -/
theorem Module.exists_places (m : Module) : ∃ places, AreAll m.node? places ∧
    m.occurrences = ⟨[], .module m⟩ :: places.flatMap (occurrencesAt [.module m] m.node?) := by
  obtain ⟨places, hplaces, hoccurrences⟩ :=
    @exists_places_of_forall (m.body.map .stmt) fun q _ => q.exists_places
  refine ⟨places, hplaces, ?_⟩
  have hcalls : m.calls
      = CallTree.nest ((m.body.map Part.stmt).flatMap Part.calls) [.module m] := by
    rw [Module.calls, Visitor.visitModule, Visitor.tracer_apply, Visitor.tracer_visitStmts,
      List.nil_append, List.nil_append]
    rfl
  rw [Module.occurrences, hcalls, CallTree.occurrencesAll_nest, Part.occurrencesAll_flatMap_calls,
    List.nil_append, hoccurrences]
  rfl

end PermissionLint.Model
