/-
Automation/Proofs/Run/Consistency.lean

The parts of an outcome agree with one another.

The states, results and errors of an outcome are read off different events of its
journal, which several branches at work on one node add to in any order.  What is
recorded when a node ends stands in one block, though, and whoever has begun a node ends
it.  So what is reported about a node agrees whenever no branch is at work on it
(`Agreed`, `agreed_or_at_work`), and each line that says that a node is executed is
followed by one that says how it ended (`tallied`).
-/
import Automation.Proofs.Run.Conclusion
import Automation.Proofs.Value

namespace Automation.Run

open Automation.Schedule (Pool Task)

variable {setup : Setup}

/-! ### The result that a node leaves -/

namespace Verdict

theorem hasFields_result (outcome : Except Fault Value) : (of outcome).result.HasFields := by
  cases outcome with
  | error fault => rfl
  | ok v =>
    dsimp only [of]
    split
    · next h => exact h
    · rfl

theorem hasFields_kept (outcome : Except Fault Value) : (of outcome).kept.HasFields :=
  (hasFields_result outcome).drop _

theorem success_completed (outcome : Except Fault Value) :
    (of outcome).completed.field "success" = .bool true :=
  Value.field_put_self (hasFields_kept outcome) _ _

/-- Beside whether a node failed and why, a failed result has details of its own at most. -/
theorem field_failed (v : Verdict) (policy : FailurePolicy) (error : String) {key : String}
    (hdetails : key ≠ "errorDetails") (hmark : key ≠ "_failedNode") :
    (v.failed policy error).field key
      = ((v.kept.put "success" (.bool false)).put "error" (.text error)).field key := by
  unfold failed
  cases policy <;> dsimp only <;> split <;>
    simp only [Value.field_put_of_ne _ hdetails, Value.field_put_of_ne _ hmark]

theorem success_failed (outcome : Except Fault Value) (policy : FailurePolicy) (error : String) :
    ((of outcome).failed policy error).field "success" = .bool false := by
  rw [field_failed _ _ _ (by decide) (by decide), Value.field_put_of_ne _ (by decide),
    Value.field_put_self (hasFields_kept outcome)]

theorem error_failed (outcome : Except Fault Value) (policy : FailurePolicy) (error : String) :
    ((of outcome).failed policy error).field "error" = .text error := by
  rw [field_failed _ _ _ (by decide) (by decide),
    Value.field_put_self ((hasFields_kept outcome).put _ _)]

end Verdict

/-! ### Reports about a node that agree -/

/-- How far a node has come, what it left and why it failed agree. -/
inductive Agreed (j : Journal) (node : String) : Prop
  | unvisited : j.state node = .unvisited → j.results.get? node = none → Agreed j node
  | completed {result} : j.state node = .completed → j.results.get? node = some result →
    result.field "success" = .bool true → Agreed j node
  | failed {result message} : j.state node = .failed → j.results.get? node = some result →
    result.field "success" = .bool false → result.field "error" = .text message →
    j.errors.get? node = some message → Agreed j node

theorem Agreed.adding {j : Journal} {events : List Event} {node : String} (h : Agreed j node)
    (hevents : ∀ e ∈ events, ¬ Journal.Concerns node e) : Agreed (j.adding events) node := by
  obtain ⟨hstate, hresults, herrors⟩ := Journal.reports_adding (j := j) hevents
  cases h with
  | unvisited hs hr => exact .unvisited (hstate.trans hs) (hresults.trans hr)
  | completed hs hr hsuccess => exact .completed (hstate.trans hs) (hresults.trans hr) hsuccess
  | failed hs hr hsuccess herror he =>
    exact .failed (hstate.trans hs) (hresults.trans hr) hsuccess herror (herrors.trans he)

/-- What is recorded when a node ends agrees. -/
theorem agreed_recorded (j : Journal) (n : Node) (scope : Scope) (outcome : Except Fault Value) :
    Agreed (j.adding (recorded n scope (.of outcome))) n.id := by
  unfold recorded
  rcases hv : (Verdict.of outcome).error with - | message
  · have hleft : (Verdict.of outcome).left n.failurePolicy = (Verdict.of outcome).completed := by
      simp [Verdict.left, hv]
    have hsuccess := Verdict.success_completed outcome
    rw [← hleft] at hsuccess
    cases n.isResponse <;>
      exact .completed (by simp [Journal.adding, Journal.state, lineOf])
        (by simp [Journal.adding, Journal.results, lineOf]) hsuccess
  · have hleft : (Verdict.of outcome).left n.failurePolicy
        = (Verdict.of outcome).failed n.failurePolicy message := by
      simp [Verdict.left, hv]
    have hsuccess := Verdict.success_failed outcome n.failurePolicy message
    have herror := Verdict.error_failed outcome n.failurePolicy message
    rw [← hleft] at hsuccess herror
    exact .failed (by simp [Journal.adding, Journal.state, lineOf])
      (by simp [Journal.adding, Journal.results, lineOf]) hsuccess herror
      (by simp [Journal.adding, Journal.errors, lineOf])

/-- A branch is at work on a node, in some scope. -/
def WorksOn (a : Strand) (node : String) : Prop := ∃ scope, executing a = some (scope, node)

theorem Aside.not_concerns {e : Event} (h : Aside e) (node : String) : ¬ Journal.Concerns node e := by
  cases e <;> first | exact id | exact h.elim

theorem concerns_of_mem_recorded {n : Node} {scope : Scope} {v : Verdict} {e : Event}
    {node : String} (h : e ∈ recorded n scope v) (he : Journal.Concerns node e) : n.id = node := by
  rcases mem_recorded.mp h with rfl | ⟨-, rfl | rfl | ⟨-, rfl⟩⟩ | ⟨message, -, rfl | rfl | rfl⟩ <;>
    first | exact he | exact he.elim

/-- A deed leaves what is reported about a node in agreement, or a branch at work on it. -/
theorem Turnover.agreed {j : Journal} {a : Strand} {events : List Event} {states : List Strand}
    (h : Turnover setup j a events states) {node : String} (hj : Agreed j node ∨ WorksOn a node) :
    Agreed (j.adding events) node ∨ ∃ b ∈ states, WorksOn b node := by
  cases h with
  | @begins n b opening next ha _ hopening hnext =>
    by_cases hnode : n.id = node
    · exact .inr ⟨next, List.mem_singleton_self _, _, hnode ▸ hnext⟩
    · subst ha
      have hbefore : Agreed j node := by
        refine hj.resolve_right ?_
        rintro ⟨scope, hwork⟩
        cases hwork
      refine .inl (hbefore.adding ?_)
      rcases hopening with rfl | rfl <;> simp [Journal.Concerns, lineOf, hnode]
  | @ends n outcome b _ ha hidle =>
    rw [Journal.adding_cons]
    by_cases hnode : n.id = node
    · exact .inl (hnode ▸ agreed_recorded _ n _ outcome)
    · subst ha
      have hbefore : Agreed j node := by
        refine hj.resolve_right ?_
        rintro ⟨scope, hwork⟩
        exact hnode (Prod.mk.inj (Option.some.inj hwork)).2
      have hended : Agreed (j.adding [.ended b.view.scope n.id outcome]) node :=
        hbefore.adding (by simp [Journal.Concerns])
      exact .inl (hended.adding fun e he hconcerns => hnode (concerns_of_mem_recorded he hconcerns))
  | idles hevents hstates =>
    rcases hj with hj | ⟨scope, hwork⟩
    · exact .inl (hj.adding fun e he => (hevents e he).not_concerns node)
    · have hmem : (scope, node) ∈ states.filterMap executing := by
        rw [hstates, hwork]
        exact List.mem_singleton_self _
      obtain ⟨b, hb, hnext⟩ := List.mem_filterMap.mp hmem
      exact .inr ⟨b, hb, scope, hnext⟩

/-- In every run, what is reported about a node agrees or a branch is at work on it. -/
theorem agreed_or_at_work {given : Given} {world : World} {c : Pool State Strand Report}
    (h : Reaches setup (opening setup given world) c) (node : String) :
    Pool.Covered (fun s => Agreed s.journal) WorksOn c node := by
  have hhonoured : Pool.Honoured (program setup) Disturbs (fun s => s.journal.Always (Fits setup))
      (fun s a => Grounded setup s.journal a) (fun _ _ => False) (fun s => Agreed s.journal)
      (fun _ _ => False) WorksOn :=
    honoured_of_deeds (J := Journal.Always (Fits setup)) (K := Grounded setup)
      (fun _ _ => False) Agreed (fun _ _ => False) WorksOn
      (fun _ _ h hi => h.turnover.agreed (.inl hi)) (fun _ _ h hi => h.turnover.agreed (.inr hi))
      (fun _ _ _ hi => hi.elim) (fun _ _ _ _ _ hi => hi.elim)
      (fun {a i} _ => ⟨by cases a <;> exact id, id⟩)
      ⟨fun hi => hi.adding (by simp [Journal.Concerns]), id⟩
  exact hhonoured.covered_reaches grounds_kept (grounds_opening setup given world) h
    (.inl (.unvisited rfl rfl))

theorem ComesTo.agreed {given : Given} {world : World} {j : Journal} {outcome : Outcome}
    (h : ComesTo setup given world j outcome) (node : String) : Agreed j node := by
  obtain ⟨hreach, hended⟩ := h
  exact (agreed_or_at_work hreach node).of_isOver (isOver_of_ended hended)

/-! ### Lines that begin and end the work on a node -/

/-- The remark says that a node is executed. -/
def announces (remark : Remark) : Bool :=
  remark.level == .info && "Executing ".toList.isPrefixOf remark.text.toList

/-- How many lines of a log say that a node is executed. -/
def announced (node : String) (log : List Line) : ℕ :=
  log.countP fun line => line.node == node && announces line.remark

/-- How many lines of a log about a node are of a level. -/
def entries (level : Level) (node : String) (log : List Line) : ℕ :=
  log.countP fun line => line.node == node && line.remark.level == level

/-- One for a branch at work on the node, else nothing. -/
def working (node : String) (a : Strand) : ℕ := ((executing a).toList.map Prod.snd).count node

theorem announced_append (node : String) (first second : List Line) :
    announced node (first ++ second) = announced node first + announced node second :=
  List.countP_append

theorem entries_append (level : Level) (node : String) (first second : List Line) :
    entries level node (first ++ second) = entries level node first + entries level node second :=
  List.countP_append

theorem sum_working (node : String) (states : List Strand) :
    (states.map (working node)).sum
      = ((states.filterMap executing).map Prod.snd).count node := by
  induction states with
  | nil => rfl
  | cons a states ih =>
    rw [List.map_cons, List.sum_cons, ih, List.filterMap_cons]
    unfold working
    cases executing a <;> simp [add_comm, List.count_cons]

@[simp] theorem announces_executing (kind : String) : announces (.executing kind) = true := by
  show "Executing ".toList.isPrefixOf ("Executing " ++ kind ++ " node").toList = true
  simp [String.toList_append]

theorem announces_eq_false {remark : Remark} (h : remark.level ≠ .info) :
    announces remark = false := by
  simp [announces, h]

/-- A line that a node was passed over or looked at again is no such line. -/
theorem not_counted_of_aside {line : Line} (h : Aside (.logged line)) :
    announces line.remark = false ∧ line.remark.level ≠ .success ∧ line.remark.level ≠ .error := by
  rcases h with h | h <;> rw [h] <;> decide

/-- What is recorded when a node ends has one line, which says how. -/
theorem lines_recorded (n : Node) (scope : Scope) (v : Verdict) :
    ∃ remark : Remark, Journal.lines (recorded n scope v) = [⟨n.id, n.displayName, remark⟩] ∧
      (remark.level = .success ∨ remark.level = .error) := by
  unfold recorded
  rcases v.error with - | message
  · refine ⟨.completed, ?_, .inl rfl⟩
    cases n.isResponse <;> simp [lineOf]
  · exact ⟨.failed message, by simp [lineOf], .inr rfl⟩

/-- A deed adds as many lines that say how a node ended, with the branches at work on it
afterwards, as lines that say that it is executed, with the branches at work on it before. -/
theorem Turnover.tally {j : Journal} {a : Strand} {events : List Event} {states : List Strand}
    (h : Turnover setup j a events states) (node : String) :
    entries .success node (Journal.lines events) + entries .error node (Journal.lines events)
        + (states.map (working node)).sum
      = working node a + announced node (Journal.lines events) := by
  cases h with
  | @begins n b opening next ha _ hopening hnext =>
    have hlines : Journal.lines ([.claimed b.view.scope n.id, lineOf n (.executing n.kind),
        .reached b.view.scope n.id .resolving] ++ opening)
          = [⟨n.id, n.displayName, .executing n.kind⟩] := by
      rcases hopening with rfl | rfl <;> simp [lineOf]
    have hnone : working node a = 0 := by rw [ha]; rfl
    have hone : working node next = [n.id].count node := by simp [working, hnext]
    rw [hlines, hnone, List.map_singleton, List.sum_singleton, hone]
    simp [entries, announced, Remark.level, List.count_singleton]
  | @ends n outcome b _ ha hidle =>
    obtain ⟨remark, hlines, hlevel⟩ := lines_recorded n b.view.scope (.of outcome)
    rw [Journal.lines_cons, hlines, ha, sum_working, hidle]
    rcases hlevel with h | h <;>
      simp [entries, announced, announces_eq_false, working, executing, h, List.count_singleton]
  | idles hevents hstates =>
    have hnone : ∀ line ∈ Journal.lines events, announces line.remark = false ∧
        line.remark.level ≠ .success ∧ line.remark.level ≠ .error :=
      fun line hline => not_counted_of_aside (hevents _ (Journal.mem_lines.mp hline))
    have hstarts : announced node (Journal.lines events) = 0 :=
      List.countP_eq_zero.mpr fun line hline => by simp [(hnone line hline).1]
    have hsuccess : entries .success node (Journal.lines events) = 0 :=
      List.countP_eq_zero.mpr fun line hline => by simp [(hnone line hline).2.1]
    have herror : entries .error node (Journal.lines events) = 0 :=
      List.countP_eq_zero.mpr fun line hline => by simp [(hnone line hline).2.2]
    rw [hstarts, hsuccess, herror, sum_working, hstates]
    simp [working]

/-- In every run, the lines that say that a node is executed are those that say how it
ended, and one for each branch at work on it. -/
theorem tallied {given : Given} {world : World} {c : Pool State Strand Report}
    (h : Reaches setup (opening setup given world) c) (node : String) :
    entries .success node c.shared.journal.log + entries .error node c.shared.journal.log
        + (c.states.map (working node)).sum
      = announced node c.shared.journal.log := by
  have hbalanced : Pool.Balanced (program setup) Disturbs
      (fun s => s.journal.Always (Fits setup)) (fun s a => Grounded setup s.journal a)
      (fun s => entries .success node s.journal.log + entries .error node s.journal.log)
      (fun s => announced node s.journal.log) (working node) :=
    balanced_of_deeds (J := Journal.Always (Fits setup)) (K := Grounded setup)
      (fun j => entries .success node j.log + entries .error node j.log)
      (fun j => announced node j.log) (working node)
      (fun {j a events task} _ _ h => by
        have htally := h.turnover.tally node
        simp only [Journal.log_adding, entries_append, announced_append]
        omega)
      (fun {a} _ => by cases a <;> rfl)
      ⟨rfl, rfl⟩
  exact hbalanced.reaches grounds_kept (grounds_opening setup given world) h rfl

theorem length_lines_of_chapter {j : Journal} {events : List Event} (h : Chapter setup j events) :
    (Journal.lines events).length ≤ 1 := by
  cases h with
  | begun _ _ hopening => rcases hopening with rfl | rfl <;> simp [lineOf]
  | @ended n scope outcome _ _ =>
    obtain ⟨remark, hlines, -⟩ := lines_recorded n scope (.of outcome)
    simp [hlines]
  | _ => simp [lineOf]

/-- What a step adds to the log is one line at most. -/
theorem log_of_step {given : Given} {world : World} {c d : Pool State Strand Report}
    (h : Reaches setup (opening setup given world) c)
    (hstep : Pool.Step (program setup) Disturbs c d) :
    ∃ more, d.shared.journal.log = c.shared.journal.log ++ more ∧ more.length ≤ 1 := by
  rcases journal_of_step hstep with hj | hj | ⟨a, ha, events, task, hdeed, hj⟩
  · exact ⟨[], by rw [hj, List.append_nil], Nat.zero_le 1⟩
  · exact ⟨[], by rw [hj, Journal.log_adding]; rfl, Nat.zero_le 1⟩
  · refine ⟨Journal.lines events, by rw [hj, Journal.log_adding], ?_⟩
    rcases hdeed.chapter ((grounds_of_reaches h).2 a ha) with rfl | hchapter
    · exact Nat.zero_le 1
    · exact length_lines_of_chapter hchapter

/-- At every moment of a run, the log has at least as many lines that say that a node is
executed as lines that say how it ended. -/
theorem ends_le_announced {given : Given} {world : World} {c : Pool State Strand Report}
    (h : Reaches setup (opening setup given world) c) (node : String) {before : List Line}
    (hbefore : before <+: c.shared.journal.log) :
    entries .success node before + entries .error node before ≤ announced node before := by
  -- each beginning of the log was the whole log once, as no step adds more than one line
  induction h with
  | refl =>
    obtain rfl := List.prefix_nil.mp hbefore
    exact Nat.le_refl 0
  | @tail c d hreach hstep ih =>
    obtain ⟨more, hlog, hlength⟩ := log_of_step hreach hstep
    by_cases hwhole : before = d.shared.journal.log
    · subst hwhole
      have htallied := tallied (hreach.tail hstep) node
      omega
    · refine ih (List.prefix_of_prefix_length_le hbefore (hlog ▸ List.prefix_append _ _) ?_)
      have hlt : before.length < d.shared.journal.log.length :=
        lt_of_le_of_ne hbefore.length_le fun heq => hwhole (hbefore.eq_of_length heq)
      rw [hlog, List.length_append] at hlt
      omega

/-! ### Errors and their lines -/

/-- The log has an error about a node if and only if the node has failed. -/
theorem Chronicle.error_line_iff {j : Journal} (h : Chronicle setup j) (node : String) :
    (∃ line, .logged line ∈ j ∧ line.node = node ∧ line.remark.level = .error) ↔
      ∃ scope message, .erred scope node message ∈ j := by
  induction h with
  | nil => simp
  | @adding j events _ hchapter ih =>
    suffices hnew : (∃ line, .logged line ∈ events ∧ line.node = node ∧
        line.remark.level = .error) ↔ ∃ scope message, .erred scope node message ∈ events by
      simp only [Journal.mem_adding, or_and_right, exists_or, ih, hnew]
    cases hchapter with
    | begun _ _ hopening => rcases hopening with rfl | rfl <;> simp [lineOf, Remark.level]
    | @ended n scope outcome _ _ =>
      rcases hv : (Verdict.of outcome).error with - | message
      · simp [mem_recorded, hv, lineOf, Remark.level]
      · simp [mem_recorded, hv, lineOf, Remark.level, eq_comm (a := n.id)]
    | _ => simp [lineOf, Remark.level]

/-- Only nodes of the flow leave results. -/
theorem Chronicle.mem_nodes_of_wrote {j : Journal} (h : Chronicle setup j) {scope : Scope}
    {node : String} {result : Value} (hmem : .wrote scope node result ∈ j) :
    node ∈ setup.graph.nodes.map Node.id := by
  induction h with
  | nil => cases hmem
  | @adding j events _ hchapter ih =>
    rcases Journal.mem_adding.mp hmem with hnew | hold
    swap
    · exact ih hold
    cases hchapter with
    | begun _ _ hopening => rcases hopening with rfl | rfl <;> simp [lineOf] at hnew
    | @ended n s outcome hn _ =>
      have hrecorded : .wrote scope node result ∈ recorded n s (.of outcome) := by simpa using hnew
      obtain rfl : n.id = node := concerns_of_mem_recorded hrecorded rfl
      exact List.mem_map_of_mem (List.mem_of_find?_eq_some hn)
    | _ => simp [lineOf] at hnew

/-! ### Outcomes that agree with themselves -/

/-- What an outcome says about a node agrees. -/
structure AgreesOn (outcome : Outcome) (node : String) : Prop where
  /-- The node was left as it was or has ended, and is in no state between. -/
  settled : outcome.states.get? node = some .unvisited ∨
    outcome.states.get? node = some .completed ∨ outcome.states.get? node = some .failed
  unvisited_iff : outcome.states.get? node = some .unvisited ↔ outcome.results.get? node = none
  completed_iff : outcome.states.get? node = some .completed ↔
    ∃ result, outcome.results.get? node = some result ∧ result.field "success" = .bool true
  failed_iff : outcome.states.get? node = some .failed ↔
    ∃ result, outcome.results.get? node = some result ∧ result.field "success" = .bool false
  /-- A node that failed last tells its last error. -/
  error_eq : outcome.states.get? node = some .failed →
    ∃ result message, outcome.results.get? node = some result ∧
      result.field "error" = .text message ∧ outcome.errors.get? node = some message
  failedNodes_iff_errors : node ∈ outcome.failedNodes ↔ node ∈ outcome.errors.keys
  failedNodes_iff_log : node ∈ outcome.failedNodes ↔
    ∃ line ∈ outcome.log, line.node = node ∧ line.remark.level = .error
  /-- The node has ended as often as it was begun. -/
  announced_eq : announced node outcome.log
    = entries .success node outcome.log + entries .error node outcome.log
  /-- At no time the node has ended more often than it was begun. -/
  announced_ge : ∀ before, before <+: outcome.log →
    entries .success node before + entries .error node before ≤ announced node before

/-- An outcome agrees with itself, and tells of nodes of the flow alone. -/
structure Consistent (g : Graph) (outcome : Outcome) : Prop where
  agrees : ∀ n ∈ g.nodes, AgreesOn outcome n.id
  keys_known : ∀ key ∈ outcome.results.keys, key ∈ g.nodes.map Node.id
  nodup_failedNodes : outcome.failedNodes.Nodup

/-- The state of a node of the flow in an outcome is that in its journal. -/
theorem states_of (runId : String) (j : Journal) (report : Report) {n : Node}
    (hn : n ∈ setup.graph.nodes) :
    (Outcome.of runId setup.graph j report).states.get? n.id = some (j.state n.id) :=
  Fields.get?_ofPairs_map Node.id (fun id => j.state id) _ (List.mem_map_of_mem hn)

theorem ComesTo.agreesOn {given : Given} {world : World} {j : Journal} {outcome : Outcome}
    (h : ComesTo setup given world j outcome) {n : Node} (hn : n ∈ setup.graph.nodes) :
    AgreesOn outcome n.id := by
  have hagreed := h.agreed n.id
  have hlines := h.chronicle.error_line_iff n.id
  cases h with
  | @intro c report hreach hended =>
    have hstates := states_of given.occasion.runId c.shared.journal report hn
    constructor
    case failedNodes_iff_errors => exact Iff.rfl
    case failedNodes_iff_log =>
      show n.id ∈ c.shared.journal.errors.keys ↔ ∃ line ∈ c.shared.journal.log, _
      rw [Journal.mem_keys_errors, ← hlines]
      simp only [Journal.mem_log]
    case announced_eq =>
      -- at the end of the run no branch is left at work
      have htallied := tallied hreach n.id
      rw [(isOver_of_ended hended).states_eq_nil] at htallied
      exact htallied.symm
    case announced_ge => exact fun before => ends_le_announced hreach n.id
    all_goals
      rw [hstates]
      cases hagreed <;> simp_all [Outcome.of]

end Automation.Run
