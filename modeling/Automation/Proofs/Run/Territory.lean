/-
Automation/Proofs/Run/Territory.lean

What the sub-trees of a flow without joins tell of.

A plain interpreter that visits a node of a flow without joins tells of the nodes below it
and of no others, takes each of them at most once in a scope, and takes none in a scope
that is not inside its own (`confined_walk`).  So what two successors of a node tell is
about different nodes, and the order in which it is told does not matter.

What is reported about a node by a journal depends on the events that tell of it alone
(`Journal.reports_filter`).
-/
import Automation.Proofs.Run.Failure
import Automation.Proofs.Run.Plain
import Automation.Proofs.Steadiness

namespace Automation

/-- An event tells of a node that it was taken, how far it has come, what it left, or why it
failed. -/
def Event.tells (node : String) : Event → Bool
  | .claimed _ n => n == node
  | .reached _ n _ => n == node
  | .wrote _ n _ => n == node
  | .erred _ n _ => n == node
  | _ => false

namespace Journal

theorem claims_append (first second : List Event) :
    claims (first ++ second) = claims first ++ claims second :=
  List.filterMap_append

/-- What is reported about a node is reported by the events that tell of it. -/
theorem reports_filter (j : Journal) (node : String) :
    state node (j.filter (Event.tells node)) = state node j ∧
      (results (j.filter (Event.tells node))).get? node = j.results.get? node ∧
      (errors (j.filter (Event.tells node))).get? node = j.errors.get? node := by
  induction j with
  | nil => exact ⟨rfl, rfl, rfl⟩
  | cons e j ih =>
    obtain ⟨hstate, hresults, herrors⟩ := ih
    cases e with
    | claimed scope n =>
      by_cases h : n = node <;> simpa [Event.tells, h, state, results, errors] using
        ⟨hstate, hresults, herrors⟩
    | reached scope n how =>
      by_cases h : n = node
      · simpa [Event.tells, h, state, results, errors] using ⟨hresults, herrors⟩
      · simpa [Event.tells, h, state, results, errors] using ⟨hstate, hresults, herrors⟩
    | wrote scope n result =>
      by_cases h : n = node
      · simpa [Event.tells, h, state, results, errors] using ⟨hstate, herrors⟩
      · have hget := Fields.get?_set_of_ne (results j) (Ne.symm h) result
        simpa [Event.tells, h, state, results, errors, hget] using ⟨hstate, hresults, herrors⟩
    | erred scope n message =>
      by_cases h : n = node
      · simpa [Event.tells, h, state, results, errors] using ⟨hstate, hresults⟩
      · have hget := Fields.get?_set_of_ne (errors j) (Ne.symm h) message
        simpa [Event.tells, h, state, results, errors, hget] using ⟨hstate, hresults, herrors⟩
    | _ => simpa [Event.tells, state, results, errors] using ⟨hstate, hresults, herrors⟩

end Journal

namespace Run

open Automation.Schedule (Tale)

/-- A flow in which the order of work cannot matter: no two edges lead to one node, loops run
their iterations one after another, and what an action ends with depends on its settings and on
what its branch sees alone. -/
structure Tame (setup : Setup) : Prop where
  free : setup.graph.JoinFree
  sequential : ∀ n ∈ setup.graph.nodes, n.isLoop = true → ∀ view plan,
    planFor setup n view = .ok plan → plan.settings.isAsync = false
  steady : ∀ n ∈ setup.graph.nodes, ∀ behaviour, setup.registry.find? n.kind = some behaviour →
    behaviour.Steady

namespace Tame

variable {setup : Setup}

theorem nodup_outgoing (h : Tame setup) (id : String) : (setup.graph.outgoing id).Nodup := by
  rw [Graph.outgoing_eq_filter]
  exact (List.Nodup.of_map _ h.free.once).filter _

/-- Different edges from a node lead to different nodes. -/
theorem nodup_targets (h : Tame setup) {id : String} {edges : List Edge} (hnodup : edges.Nodup)
    (hedges : ∀ e ∈ edges, e ∈ setup.graph.outgoing id) : (edges.map Edge.target).Nodup := by
  refine hnodup.map_on fun e he e' he' htarget => ?_
  exact h.free.eq_of_target (Graph.mem_outgoing.mp (hedges e he)).1
    (Graph.mem_outgoing.mp (hedges e' he')).1 htarget

theorem nodup_untagged (h : Tame setup) (id : String) :
    ((setup.graph.untagged id).map Edge.target).Nodup :=
  h.nodup_targets ((h.nodup_outgoing id).filter _) fun _ he => (List.mem_filter.mp he).1

theorem nodup_bodyTargets (h : Tame setup) (n : Node) : (bodyTargets setup n).Nodup :=
  h.nodup_targets ((h.nodup_outgoing n.id).filter _) fun _ he => (List.mem_filter.mp he).1

theorem nodup_nextTargets (h : Tame setup) {n : Node} (hn : n ∈ setup.graph.nodes)
    (result : Value) : (nextTargets setup n result).Nodup := by
  have hedges : ∀ e ∈ successors setup n result, e ∈ setup.graph.outgoing n.id :=
    fun _ he => mem_outgoing_of_mem_successors he
  refine h.nodup_targets ?_ hedges
  unfold successors
  split
  · exact (h.nodup_outgoing n.id).filter _
  · split
    · next behaviour hfind =>
      exact (h.steady n hn behaviour hfind).once _ _ _ (h.nodup_outgoing n.id)
    · exact (h.nodup_outgoing n.id).filter _

/-- The body of a loop and what follows after the loop have no node in common. -/
theorem not_mem_nextTargets (h : Tame setup) {n : Node} (hloop : n.isLoop = true) (result : Value)
    {target : String} (hbody : target ∈ bodyTargets setup n) :
    target ∉ nextTargets setup n result := by
  intro hnext
  obtain ⟨e, he, rfl⟩ := List.mem_map.mp hbody
  obtain ⟨e', he', htarget⟩ := List.mem_map.mp hnext
  obtain ⟨hout, heach⟩ := List.mem_filter.mp he
  obtain rfl := h.free.eq_of_target (Graph.mem_outgoing.mp (mem_outgoing_of_mem_successors he')).1
    (Graph.mem_outgoing.mp hout).1 htarget
  -- the edge has the tag of the body
  rw [successors, if_pos hloop] at he'
  have hafter := (List.mem_filter.mp he').2
  have htag : e'.branch = some "each" := by simpa using heach
  simp [Edge.isUntagged, htag] at hafter

end Tame

namespace Plain

/-! ### Events in their place -/

/-- Events in a scope that tell of some nodes only, take each at most once in a scope, and in no
scope but this one and those inside. -/
structure Confined (scope : Scope) (covers : String → Prop) (events : List Event) : Prop where
  covered : ∀ e ∈ events, ∀ node, e.tells node = true → covers node
  inside : ∀ claim ∈ Journal.claims events, scope <+: claim.1
  once : (Journal.claims events).Nodup

variable {scope : Scope} {covers others : String → Prop} {events more : List Event}

theorem Confined.covers_of_claim (h : Confined scope covers events) {claim : Scope × String}
    (hclaim : claim ∈ Journal.claims events) : covers claim.2 :=
  h.covered _ (Journal.mem_claims.mp hclaim) _ (beq_self_eq_true claim.2)

theorem Confined.mono (h : Confined scope covers events)
    (hcovers : ∀ node, covers node → others node) : Confined scope others events :=
  ⟨fun e he node htells => hcovers node (h.covered e he node htells), h.inside, h.once⟩

theorem confined_nil : Confined scope covers [] :=
  ⟨fun _ he => absurd he (by simp), fun _ hclaim => absurd hclaim (by simp [Journal.claims]), .nil⟩

/-- Events that take no node. -/
theorem confined_of_quiet (hquiet : Journal.claims events = [])
    (hcovered : ∀ e ∈ events, ∀ node, e.tells node = true → covers node) :
    Confined scope covers events :=
  ⟨hcovered, by simp [hquiet], by simp [hquiet]⟩

theorem Confined.append (h : Confined scope covers events) (hmore : Confined scope covers more)
    (hclaims : ∀ claim ∈ Journal.claims events, claim ∉ Journal.claims more) :
    Confined scope covers (events ++ more) where
  covered e he node htells := by
    rcases List.mem_append.mp he with he | he
    · exact h.covered e he node htells
    · exact hmore.covered e he node htells
  inside claim hclaim := by
    rw [Journal.claims_append, List.mem_append] at hclaim
    rcases hclaim with hclaim | hclaim
    · exact h.inside claim hclaim
    · exact hmore.inside claim hclaim
  once := by
    rw [Journal.claims_append]
    refine List.nodup_append.mpr ⟨h.once, hmore.once, fun claim hclaim other hother heq => ?_⟩
    exact hclaims claim hclaim (heq ▸ hother)

/-- Events that tell of different nodes take different nodes. -/
theorem Confined.claims_apart (h : Confined scope covers events) {inner : Scope}
    (hmore : Confined inner others more) (hapart : ∀ node, covers node → ¬ others node) :
    ∀ claim ∈ Journal.claims events, claim ∉ Journal.claims more :=
  fun _ hclaim hother => hapart _ (h.covers_of_claim hclaim) (hmore.covers_of_claim hother)

variable {setup : Setup} {world : World}

/-- What follows after a node tells of what lies below where it goes on. -/
theorem confined_inTurn (hfree : setup.graph.JoinFree) {level : ℕ} {targets : List String}
    (hnodup : targets.Nodup) (hlevel : ∀ target ∈ targets, setup.graph.AtLevel level target)
    {f : String → Tale Event Report}
    (h : ∀ target ∈ targets, Confined scope (setup.graph.Below target) (f target).events) :
    Confined scope (fun node => ∃ target ∈ targets, setup.graph.Below target node)
      (inTurn (targets.map f)).events := by
  induction targets with
  | nil => exact confined_nil
  | cons target targets ih =>
    obtain ⟨hnew, hnodup⟩ := List.nodup_cons.mp hnodup
    obtain ⟨hfirst, hrest⟩ := List.forall_mem_cons.mp h
    obtain ⟨hhere, hlevels⟩ := List.forall_mem_cons.mp hlevel
    have hbehind := ih hnodup hlevels hrest
    -- what is below one target is below no other
    have hapart : ∀ node, setup.graph.Below target node →
        ¬ ∃ other ∈ targets, setup.graph.Below other node := by
      rintro node hbelow ⟨other, hother, hbelow'⟩
      obtain rfl := hfree.eq_of_below hhere (hlevels other hother) hbelow hbelow'
      exact hnew hother
    refine (hfirst.mono fun node hbelow => ⟨target, List.mem_cons_self, hbelow⟩).append
      (hbehind.mono ?_) (hfirst.claims_apart hbehind hapart)
    rintro node ⟨other, hother, hbelow⟩
    exact ⟨other, List.mem_cons_of_mem _ hother, hbelow⟩

theorem claims_parting (n : Node) (scope : Scope) (outcome : Except Fault Value) :
    Journal.claims (parting n scope outcome).events = [] := by
  unfold parting recorded
  dsimp only
  split
  · split <;> rfl
  · rfl

/-- What a node leaves tells of the node. -/
theorem eq_of_tells_parting {n : Node} {outcome : Except Fault Value} {e : Event}
    (he : e ∈ (parting n scope outcome).events) {node : String} (htells : e.tells node = true) :
    node = n.id := by
  unfold parting recorded at he
  dsimp only at he
  split at he
  · split at he <;> simp at he <;> rcases he with rfl | rfl | rfl | rfl | rfl <;>
      simp_all [Event.tells, lineOf]
  · simp at he
    rcases he with rfl | rfl | rfl | rfl | rfl <;> simp_all [Event.tells, lineOf]

/-! ### Nodes and all that follows after them -/

/-- After an iteration a loop ends or goes on. -/
theorem afterLap_cases (go : Loop.Course → Tale Event (Except Fault Value)) (course : Loop.Course)
    (batch : List Loop.Lap) :
    (afterLap go course batch).events = [] ∨ afterLap go course batch = go course := by
  unfold afterLap
  split
  · exact .inl rfl
  · exact .inr rfl
  · split
    · exact .inl rfl
    · exact .inr rfl

/-- The iterations of a loop tell of its body, each in a scope of its own. -/
theorem confined_rounds (view : View) {f : View → Tale Event Report}
    (hf : ∀ inner, Confined inner.scope covers (f inner).events) (left : ℕ) (course : Loop.Course) :
    Confined view.scope covers (rounds f view left course).events ∧
      ∀ claim ∈ Journal.claims (rounds f view left course).events, ∃ i : ℕ, course.next ≤ i ∧
        view.scope ++ [(course.plan.loop, (i : Int))] <+: claim.1 := by
  induction left generalizing course with
  | zero => exact ⟨confined_nil, fun _ hclaim => absurd hclaim (by simp [rounds, Journal.claims])⟩
  | succ left ih =>
    have hlap := hf (course.plan.enter view course.next)
    set tale := f (course.plan.enter view course.next)
    set later := afterLap (rounds f view left) (course.absorb [tale.result.toLap])
      [tale.result.toLap]
    have hevents : (rounds f view (left + 1) course).events = tale.events ++ later.events := rfl
    have hscope : (course.plan.enter view course.next).scope
        = view.scope ++ [(course.plan.loop, (course.next : Int))] := rfl
    rw [hscope] at hlap
    -- what comes later is in the scopes of later iterations
    obtain ⟨hlater, hindices⟩ : Confined view.scope covers later.events ∧
        ∀ claim ∈ Journal.claims later.events, ∃ i : ℕ, course.next + 1 ≤ i ∧
          view.scope ++ [(course.plan.loop, (i : Int))] <+: claim.1 := by
      rcases afterLap_cases (rounds f view left) (course.absorb [tale.result.toLap])
        [tale.result.toLap] with hnil | hgo
      · have hnone : later.events = [] := hnil
        rw [hnone]
        exact ⟨confined_nil, fun _ hclaim => absurd hclaim (by simp [Journal.claims])⟩
      · have hgoes : later = rounds f view left (course.absorb [tale.result.toLap]) := hgo
        rw [hgoes]
        exact ih _
    have hfirst : ∀ claim ∈ Journal.claims tale.events,
        view.scope ++ [(course.plan.loop, (course.next : Int))] <+: claim.1 := hlap.inside
    rw [hevents]
    refine ⟨Confined.append ⟨hlap.covered, fun claim hclaim => ?_, hlap.once⟩ hlater ?_, ?_⟩
    · exact (List.prefix_append _ _).trans (hfirst claim hclaim)
    · intro claim hclaim hother
      obtain ⟨i, hle, hprefix⟩ := hindices claim hother
      have hsame := List.prefix_of_prefix_length_le (hfirst claim hclaim) hprefix (by simp)
      have heq := hsame.eq_of_length (by simp)
      simp only [List.append_cancel_left_eq, List.cons.injEq, Prod.mk.injEq, Nat.cast_inj, true_and,
        and_true] at heq
      omega
    · intro claim hclaim
      rw [Journal.claims_append, List.mem_append] at hclaim
      rcases hclaim with hclaim | hclaim
      · exact ⟨course.next, Nat.le_refl _, hfirst claim hclaim⟩
      · obtain ⟨i, hle, hprefix⟩ := hindices claim hclaim
        exact ⟨i, Nat.le_of_succ_le hle, hprefix⟩

section Node

variable {level : ℕ} {n : Node} {f : View → String → Tale Event Report}

/-- What follows after a node whose action has ended. -/
theorem confined_leave (h : Tame setup) (hlevel : setup.graph.AtLevel level n.id)
    (hn : n ∈ setup.graph.nodes)
    (hf : ∀ target, setup.graph.Leads n.id target → ∀ view,
      Confined view.scope (setup.graph.Below target) (f view target).events)
    (view : View) (outcome : Except Fault Value) :
    Confined view.scope (setup.graph.Below n.id) (leave setup f n view outcome).events ∧
      ∀ claim ∈ Journal.claims (leave setup f n view outcome).events,
        ∃ target ∈ nextTargets setup n (Verdict.of outcome).result,
          setup.graph.Below target claim.2 := by
  have hown : Confined view.scope (setup.graph.Below n.id) (parting n view.scope outcome).events :=
    confined_of_quiet (claims_parting n view.scope outcome) fun e he node htells => by
      rw [eq_of_tells_parting he htells]
      exact .refl n.id
  unfold leave
  dsimp only
  split
  · exact ⟨hown, fun claim hclaim => absurd hclaim (by simp [claims_parting])⟩
  · set seen := view.write n.id ((Verdict.of outcome).left n.failurePolicy)
    have hbehind : Confined view.scope
        (fun node => ∃ target ∈ nextTargets setup n (Verdict.of outcome).result,
          setup.graph.Below target node)
        (inTurn ((nextTargets setup n (Verdict.of outcome).result).map (f seen))).events :=
      confined_inTurn h.free (h.nodup_nextTargets hn (Verdict.of outcome).result)
        (fun target htarget => hlevel.next (leads_of_nextTargets htarget))
        (fun target htarget => hf target (leads_of_nextTargets htarget) seen)
    refine ⟨hown.append (hbehind.mono ?_) (by simp [claims_parting]), fun claim hclaim => ?_⟩
    · rintro node ⟨target, htarget, hbelow⟩
      exact .head (leads_of_nextTargets htarget) hbelow
    · rw [andThen, Journal.claims_append, claims_parting, List.nil_append] at hclaim
      exact hbehind.covers_of_claim hclaim

theorem confined_invoking (setup : Setup) (n : Node) (scope : Scope) :
    Confined scope (setup.graph.Below n.id) [.reached scope n.id .invoking] := by
  refine confined_of_quiet rfl fun e he node htells => ?_
  obtain rfl := List.mem_singleton.mp he
  obtain rfl : n.id = node := by simpa [Event.tells] using htells
  exact .refl n.id

/-- The body of a loop tells of what lies below where it begins. -/
theorem confined_body (h : Tame setup) (hlevel : setup.graph.AtLevel level n.id)
    (hf : ∀ target, setup.graph.Leads n.id target → ∀ view,
      Confined view.scope (setup.graph.Below target) (f view target).events) (inner : View) :
    Confined inner.scope (fun node => ∃ target ∈ bodyTargets setup n, setup.graph.Below target node)
      (body setup f n inner).events :=
  confined_inTurn h.free (h.nodup_bodyTargets n)
    (fun _ htarget => hlevel.next (leads_of_bodyTargets htarget))
    (fun target htarget => hf target (leads_of_bodyTargets htarget) inner)

/-- What a node is started for takes nodes of its body only, if it is a loop. -/
theorem confined_work (world : World) (h : Tame setup) (hlevel : setup.graph.AtLevel level n.id)
    (hf : ∀ target, setup.graph.Leads n.id target → ∀ view,
      Confined view.scope (setup.graph.Below target) (f view target).events) (view : View) :
    Confined view.scope (setup.graph.Below n.id) (work setup world f n view).events ∧
      ∀ claim ∈ Journal.claims (work setup world f n view).events, n.isLoop = true ∧
        ∃ target ∈ bodyTargets setup n, setup.graph.Below target claim.2 := by
  -- but for the iterations of a loop, work takes no node
  have hidle : ∀ {done : Tale Event (Except Fault Value)},
      done.events = [] ∨ done.events = [.reached view.scope n.id .invoking] →
      Confined view.scope (setup.graph.Below n.id) done.events ∧
      ∀ claim ∈ Journal.claims done.events, n.isLoop = true ∧
        ∃ target ∈ bodyTargets setup n, setup.graph.Below target claim.2 := by
    rintro done (hevents | hevents) <;> rw [hevents]
    · exact ⟨confined_nil, by simp [Journal.claims]⟩
    · exact ⟨confined_invoking setup n view.scope, by simp [Journal.claims]⟩
  unfold work
  split
  swap
  · unfold action
    split
    · exact hidle (.inl rfl)
    · split
      · exact hidle (.inl rfl)
      · exact hidle (.inr rfl)
  next hloop =>
  unfold loop
  split
  · exact hidle (.inl rfl)
  split
  · exact hidle (.inr rfl)
  next plan _ =>
  have hbody := confined_body h hlevel hf
  obtain ⟨hrounds, -⟩ := confined_rounds view hbody plan.count (.new plan)
  refine ⟨(confined_invoking setup n view.scope).append (hrounds.mono ?_)
    (by simp [Journal.claims]), fun claim hclaim => ⟨hloop, hrounds.covers_of_claim hclaim⟩⟩
  rintro node ⟨target, htarget, hbelow⟩
  exact .head (leads_of_bodyTargets htarget) hbelow

/-- The taking of a node, and what else there is told of the node. -/
theorem confined_taken (setup : Setup) (n : Node) (scope : Scope) (events : List Event)
    (hevents : ∀ e ∈ events, ∀ node, e.tells node = true → node = n.id)
    (hquiet : Journal.claims events = []) :
    Confined scope (setup.graph.Below n.id) (.claimed scope n.id :: events) ∧
      Journal.claims (.claimed scope n.id :: events) = [(scope, n.id)] := by
  have hclaims : Journal.claims (.claimed scope n.id :: events) = [(scope, n.id)] :=
    congrArg ((scope, n.id) :: ·) hquiet
  refine ⟨⟨fun e he node htells => ?_, by simp [hclaims], by simp [hclaims]⟩, hclaims⟩
  rcases List.mem_cons.mp he with rfl | he
  · obtain rfl : n.id = node := by simpa [Event.tells] using htells
    exact .refl n.id
  · rw [hevents e he node htells]
    exact .refl n.id

/-- A node and all that follows after it tell of what lies below the node. -/
theorem confined_node (world : World) (h : Tame setup) (hlevel : setup.graph.AtLevel level n.id)
    (hn : n ∈ setup.graph.nodes)
    (hf : ∀ target, setup.graph.Leads n.id target → ∀ view,
      Confined view.scope (setup.graph.Below target) (f view target).events) (view : View) :
    Confined view.scope (setup.graph.Below n.id) (node setup world f n view).events := by
  -- the node lies below nothing that follows after it
  have hfresh : ∀ {target : String}, setup.graph.Leads n.id target →
      ¬ setup.graph.Below target n.id :=
    fun hleads hbelow => h.free.not_below hlevel hleads hbelow
  unfold node
  split
  · have hbehind := confined_inTurn h.free (h.nodup_untagged n.id)
      (fun target htarget => hlevel.next (leads_of_untagged htarget))
      (fun target htarget => hf target (leads_of_untagged htarget) view)
    obtain ⟨htaken, hclaims⟩ := confined_taken setup n view.scope [lineOf n .disabled]
      (by simp [Event.tells, lineOf]) rfl
    refine htaken.append (hbehind.mono ?_) fun claim hclaim hother => ?_
    · rintro node ⟨target, htarget, hbelow⟩
      exact .head (leads_of_untagged htarget) hbelow
    · obtain ⟨target, htarget, hbelow⟩ := hbehind.covers_of_claim hother
      rw [hclaims] at hclaim
      obtain rfl := List.mem_singleton.mp hclaim
      exact hfresh (leads_of_untagged htarget) hbelow
  · obtain ⟨hwork, hin⟩ := confined_work world h hlevel hf view
    obtain ⟨hleave, hbehind⟩ :=
      confined_leave h hlevel hn hf view (work setup world f n view).result
    set done := work setup world f n view
    obtain ⟨htaken, hclaims⟩ := confined_taken setup n view.scope
      [lineOf n (.executing n.kind), .reached view.scope n.id .resolving]
      (by simp [Event.tells, lineOf]) rfl
    refine (htaken.append hwork fun claim hclaim hother => ?_).append hleave
      fun claim hclaim hother => ?_
    · obtain ⟨-, target, htarget, hbelow⟩ := hin claim hother
      rw [hclaims] at hclaim
      obtain rfl := List.mem_singleton.mp hclaim
      exact hfresh (leads_of_bodyTargets htarget) hbelow
    · obtain ⟨next, hnext, hbelow'⟩ := hbehind claim hother
      rw [Journal.claims_append, hclaims, List.mem_append, List.mem_singleton] at hclaim
      rcases hclaim with rfl | hclaim
      · exact hfresh (leads_of_nextTargets hnext) hbelow'
      · -- a node of the body lies below no successor of the loop
        obtain ⟨hloop, target, htarget, hbelow⟩ := hin claim hclaim
        obtain rfl := h.free.eq_of_below (hlevel.next (leads_of_bodyTargets htarget))
          (hlevel.next (leads_of_nextTargets hnext)) hbelow hbelow'
        exact h.not_mem_nextTargets hloop _ htarget hnext

end Node

/-- A sub-tree tells of what lies below its root, takes each node at most once in a scope, and
none outside its own scope. -/
theorem confined_walk (world : World) (h : Tame setup) {level : ℕ} {id : String}
    (hlevel : setup.graph.AtLevel level id) (depth : ℕ) (view : View) :
    Confined view.scope (setup.graph.Below id) (walk setup world depth view id).events := by
  induction depth generalizing level id view with
  | zero => exact confined_nil
  | succ depth ih =>
    unfold walk
    split
    · exact confined_nil
    · next n hn =>
      obtain rfl := Graph.id_of_node? hn
      exact confined_node world h hlevel (List.mem_of_find?_eq_some hn)
        (fun target hleads view => ih (hlevel.next hleads) view) view

end Plain

end Run

end Automation
