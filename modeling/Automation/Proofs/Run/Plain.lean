/-
Automation/Proofs/Run/Plain.lean

A flow by a plain interpreter.

The interpreter visits a node, then whatever follows after the node, one successor after
another in the order of their edges.  Each sub-tree is run to its end on a copy of the
results that were there after the node, and a sub-tree that is aborted stops no other.  A
loop runs its iterations one after another, each with a fresh copy.  There are no tasks,
nobody waits, nothing is looked up in the record of the run, and no node is ever passed
over as one that was taken before.

What comes of a sub-tree is told as a tale: what is recorded, and the report.  The
recursion is on a number of nodes that suffices for the way from the start to any other
(`walk_eq`).  Reports are merged, which one may do from either end (`Report.merge_assoc`).
-/
import Automation.Proofs.Flow.JoinFree
import Automation.Proofs.Run.Coverage
import Automation.Proofs.Schedule.Serial

namespace Automation.Run

open Automation.Schedule (Tale)

/-! ### Merging reports -/

namespace Report

/-- A report names each node once. -/
structure Distinct (r : Report) : Prop where
  errors : r.errors.keys.Nodup
  outputs : r.outputs.keys.Nodup

theorem merge_assoc (r : Report) {s : Report} (h : s.Distinct) (t : Report) :
    (r.merge s).merge t = r.merge (s.merge t) := by
  simp only [merge, Bool.or_assoc, Fields.overlay_overlay _ h.errors,
    Fields.overlay_overlay _ h.outputs]

theorem empty_merge {r : Report} (h : r.Distinct) : Report.empty.merge r = r := by
  simp only [merge, empty, Bool.false_or, Fields.nil_overlay h.errors, Fields.nil_overlay h.outputs]

theorem merge_empty (r : Report) : r.merge .empty = r := by
  simp [merge, empty]

theorem distinct_empty : Report.empty.Distinct := ⟨.nil, .nil⟩

theorem Distinct.merge {r : Report} (h : r.Distinct) (s : Report) : (r.merge s).Distinct :=
  ⟨Fields.nodup_keys_overlay h.errors _, Fields.nodup_keys_overlay h.outputs _⟩

end Report

namespace Plain

/-! ### The interpreter -/

/-- One tale after another, with one report of both. -/
def andThen (t u : Tale Event Report) : Tale Event Report :=
  ⟨t.events ++ u.events, t.result.merge u.result⟩

/-- Some tales one after another. -/
def inTurn (ts : List (Tale Event Report)) : Tale Event Report := ts.foldr andThen ⟨[], .empty⟩

/-- What a node leaves by itself once its action has ended. -/
def parting (n : Node) (scope : Scope) (outcome : Except Fault Value) : Tale Event Report :=
  let verdict := Verdict.of outcome
  ⟨.ended scope n.id outcome :: recorded n scope verdict,
    ⟨verdict.aborts n.failurePolicy, (verdict.error.map fun message => (n.id, message)).toList,
      [(n.id, verdict.left n.failurePolicy)]⟩⟩

/-- A node whose action has ended, and all that follows after it unless it aborts. -/
def leave (setup : Setup) (visit : View → String → Tale Event Report) (n : Node) (view : View)
    (outcome : Except Fault Value) : Tale Event Report :=
  let verdict := Verdict.of outcome
  let own := parting n view.scope outcome
  if verdict.aborts n.failurePolicy then own
  else
    let seen := view.write n.id (verdict.left n.failurePolicy)
    andThen own (inTurn ((nextTargets setup n verdict.result).map (visit seen)))

/-- A loop after an iteration: it ends, or goes on after the rest that it takes. -/
def afterLap (go : Loop.Course → Tale Event (Except Fault Value)) (course : Loop.Course)
    (batch : List Loop.Lap) : Tale Event (Except Fault Value) :=
  match course.turn batch with
  | .finish report => ⟨[], .ok (.object report.toFields)⟩
  | .again => go course
  | .rest milliseconds => match secondsOf milliseconds >>= microsecondsOf with
    | .error fault => ⟨[], .error fault⟩
    | .ok _ => go course

/-- A number of iterations one after another, each in its own view. -/
def rounds (body : View → Tale Event Report) (view : View) :
    ℕ → Loop.Course → Tale Event (Except Fault Value)
  | 0, course => ⟨[], .ok (.object (course.report true false false none).toFields)⟩
  | left + 1, course =>
    let tale := body (course.plan.enter view course.next)
    let lap := tale.result.toLap
    (afterLap (rounds body view left) (course.absorb [lap]) [lap]).prepend tale.events

/-- The body of a loop in the view of an iteration. -/
def body (setup : Setup) (visit : View → String → Tale Event Report) (n : Node) (view : View) :
    Tale Event Report :=
  inTurn ((bodyTargets setup n).map (visit view))

/-- Carries out a loop. -/
def loop (setup : Setup) (visit : View → String → Tale Event Report) (n : Node) (view : View) :
    Tale Event (Except Fault Value) :=
  match view.resolveFields n.config with
  | .error fault => ⟨[], .error fault⟩
  | .ok config => Tale.prepend [.reached view.scope n.id .invoking] <|
    match planOf setup n config view with
    | .error fault => ⟨[], .error fault⟩
    | .ok plan => rounds (body setup visit n) view plan.count (.new plan)

/-- Carries out the action of a node. -/
def action (setup : Setup) (world : World) (n : Node) (view : View) :
    Tale Event (Except Fault Value) :=
  match setup.registry.find? n.kind with
  | none => ⟨[], .error (.unknownKind n.kind)⟩
  | some behaviour => match settingsFor behaviour n view with
    | .error fault => ⟨[], .error fault⟩
    | .ok config =>
      ⟨[.reached view.scope n.id .invoking], ((behaviour.start config view).perform world).1⟩

/-- What a node is started for. -/
def work (setup : Setup) (world : World) (visit : View → String → Tale Event Report) (n : Node)
    (view : View) : Tale Event (Except Fault Value) :=
  if n.isLoop then loop setup visit n view else action setup world n view

/-- A node and all that follows after it. -/
def node (setup : Setup) (world : World) (visit : View → String → Tale Event Report) (n : Node)
    (view : View) : Tale Event Report :=
  if n.isDisabled then
    (inTurn (((setup.graph.untagged n.id).map Edge.target).map (visit view))).prepend
      [.claimed view.scope n.id, lineOf n .disabled]
  else
    let done := work setup world visit n view
    (leave setup visit n view done.result).prepend
      ([.claimed view.scope n.id, lineOf n (.executing n.kind), .reached view.scope n.id .resolving]
        ++ done.events)

/-- The sub-tree at a node, down to some depth. -/
def walk (setup : Setup) (world : World) : ℕ → View → String → Tale Event Report
  | 0, _, _ => ⟨[], .empty⟩
  | depth + 1, view, id => match setup.graph.node? id with
    | none => ⟨[], .empty⟩
    | some n => node setup world (walk setup world depth) n view

/-- Visits a node of a flow, and all that follows after it. -/
def visit (setup : Setup) (world : World) : View → String → Tale Event Report :=
  walk setup world setup.graph.nodes.length

/-- What a run comes to by the plain interpreter. -/
def run (setup : Setup) (given : Given) (world : World) : Outcome :=
  let tale := visit setup world given.view setup.graph.start.id
  { Outcome.of given.occasion.runId setup.graph (Journal.adding [] tale.events) tale.result with
    status := if tale.result.aborted then .failed else .succeeded }

/-! ### The depth -/

variable {setup : Setup} {world : World} {f g : View → String → Tale Event Report}

theorem leads_of_untagged {id target : String}
    (h : target ∈ (setup.graph.untagged id).map Edge.target) : setup.graph.Leads id target := by
  obtain ⟨e, he, rfl⟩ := List.mem_map.mp h
  exact Graph.leads_of_outgoing (List.mem_filter.mp he).1

theorem leads_of_bodyTargets {n : Node} {target : String} (h : target ∈ bodyTargets setup n) :
    setup.graph.Leads n.id target := by
  obtain ⟨e, he, rfl⟩ := List.mem_map.mp h
  exact Graph.leads_of_outgoing (List.mem_filter.mp he).1

theorem leads_of_nextTargets {n : Node} {result : Value} {target : String}
    (h : target ∈ nextTargets setup n result) : setup.graph.Leads n.id target := by
  obtain ⟨e, he, rfl⟩ := List.mem_map.mp h
  exact Graph.leads_of_outgoing (mem_outgoing_of_mem_successors he)

/-- What a node does depends on the visits to where its edges lead. -/
theorem node_congr {n : Node} (h : ∀ target, setup.graph.Leads n.id target → ∀ view,
    f view target = g view target) (view : View) :
    node setup world f n view = node setup world g n view := by
  have hturn : ∀ (targets : List String), (∀ target ∈ targets, setup.graph.Leads n.id target) →
      ∀ view, inTurn (targets.map (f view)) = inTurn (targets.map (g view)) := by
    intro targets htargets view
    have hsame : targets.map (f view) = targets.map (g view) :=
      List.map_congr_left fun target htarget => h target (htargets target htarget) view
    rw [hsame]
  have hleave : ∀ outcome, leave setup f n view outcome = leave setup g n view outcome := by
    intro outcome
    unfold leave
    dsimp only
    rw [hturn _ fun _ => leads_of_nextTargets]
  have hbody : body setup f n = body setup g n :=
    funext fun inner => hturn _ (fun _ => leads_of_bodyTargets) inner
  have hwork : work setup world f n view = work setup world g n view := by
    unfold work loop
    rw [hbody]
  unfold node
  dsimp only
  rw [hturn _ fun _ => leads_of_untagged, hwork, hleave]

/-- A depth at which no more levels are left is as good as any greater one. -/
theorem walk_succ (hfree : setup.graph.JoinFree) {level depth : ℕ} {id : String}
    (hlevel : setup.graph.AtLevel level id) (hdepth : setup.graph.nodes.length ≤ level + depth)
    (view : View) : walk setup world (depth + 1) view id = walk setup world depth view id := by
  induction depth generalizing level id view with
  | zero =>
    have hlt := hlevel.lt hfree
    omega
  | succ depth ih =>
    obtain ⟨n, hn⟩ := hlevel.exists_node?
    obtain rfl := Graph.id_of_node? hn
    simp only [walk, hn]
    exact node_congr (fun target hleads view => ih (hlevel.next hleads) (by omega) view) view

/-- A visit to a node is the node itself with visits to what follows after it. -/
theorem visit_eq (hfree : setup.graph.JoinFree) {level : ℕ} {id : String}
    (hlevel : setup.graph.AtLevel level id) {n : Node} (hn : setup.graph.node? id = some n)
    (view : View) : visit setup world view id = node setup world (visit setup world) n view := by
  unfold visit
  rw [← walk_succ hfree hlevel (Nat.le_add_left _ _), walk, hn]

/-! ### What is told -/

theorem distinct_parting (n : Node) (scope : Scope) (outcome : Except Fault Value) :
    (parting n scope outcome).result.Distinct where
  errors := by
    unfold parting
    dsimp only
    cases (Verdict.of outcome).error with
    | none => exact .nil
    | some message => exact List.nodup_singleton _
  outputs := List.nodup_singleton _

theorem distinct_inTurn {ts : List (Tale Event Report)} (h : ∀ t ∈ ts, t.result.Distinct) :
    (inTurn ts).result.Distinct := by
  cases ts with
  | nil => exact Report.distinct_empty
  | cons t ts => exact (h t List.mem_cons_self).merge _

theorem distinct_leave (n : Node) (view : View) (outcome : Except Fault Value) :
    (leave setup f n view outcome).result.Distinct := by
  unfold leave
  dsimp only
  split
  · exact distinct_parting n view.scope outcome
  · exact (distinct_parting n view.scope outcome).merge _

/-- What comes of a sub-tree names each node once. -/
theorem distinct_walk (depth : ℕ) (view : View) (id : String) :
    (walk setup world depth view id).result.Distinct := by
  induction depth generalizing view id with
  | zero => exact Report.distinct_empty
  | succ depth ih =>
    unfold walk
    split
    · exact Report.distinct_empty
    · next n _ =>
      unfold node
      split
      · refine distinct_inTurn fun t ht => ?_
        obtain ⟨target, -, rfl⟩ := List.mem_map.mp ht
        exact ih view target
      · exact distinct_leave n view _

/-- Reports that are merged one after another are merged in turn. -/
theorem foldl_merge (r : Report) {ts : List (Tale Event Report)}
    (h : ∀ t ∈ ts, t.result.Distinct) :
    (ts.map Tale.result).foldl Report.merge r = r.merge (inTurn ts).result := by
  induction ts generalizing r with
  | nil => exact (Report.merge_empty r).symm
  | cons t ts ih =>
    obtain ⟨ht, hts⟩ := List.forall_mem_cons.mp h
    rw [List.map_cons, List.foldl_cons, ih _ hts, Report.merge_assoc _ ht]
    rfl

theorem events_inTurn (ts : List (Tale Event Report)) :
    (inTurn ts).events = ts.flatMap Tale.events := by
  induction ts with
  | nil => rfl
  | cons t ts ih =>
    show t.events ++ (inTurn ts).events = _
    rw [ih]
    rfl

end Plain

end Automation.Run
