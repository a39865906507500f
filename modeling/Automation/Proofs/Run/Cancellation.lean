/-
Automation/Proofs/Run/Cancellation.lean

What a run does after it was cancelled.

Every path to a node asks whether the run was cancelled in the step that takes the
node, so no later event of a run tells that a node was taken, passed over or begun,
in whatever branch or iteration (`Chronicle.not_starts`).  Work that was begun before is
carried to its end, since it ends in every run, and what is recorded at the end of a node
stands in one piece (`Chronicle.exists_block`).
-/
import Automation.Proofs.Run.Consistency
import Automation.Proofs.Run.Stopping

namespace Automation.Run

open Automation.Schedule (Pool Task)

variable {setup : Setup}

/-! ### Nothing starts -/

/-- The event tells that a node was taken, passed over or begun. -/
def Starts : Event → Prop
  | .claimed .. => True
  | .reached _ _ how => how = .resolving
  | .logged line => line.remark = .disabled ∨ announces line.remark = true
  | _ => False

theorem not_starts_of_mem_recorded {n : Node} {scope : Scope} {v : Verdict} {e : Event}
    (h : e ∈ recorded n scope v) : ¬ Starts e := by
  rcases mem_recorded.mp h with rfl | ⟨-, rfl | rfl | ⟨-, rfl⟩⟩ | ⟨message, -, rfl | rfl | rfl⟩ <;>
    simp [Starts, lineOf, announces, Remark.level]

/-- Nothing starts in a chapter under a journal in which the run was cancelled. -/
theorem Chapter.not_starts {j : Journal} {events : List Event} (h : Chapter setup j events)
    (hj : .cancelled ∈ j) : ∀ e ∈ events, ¬ Starts e := by
  cases h with
  | cancelled => simp [Starts]
  | repeated => simp [Starts, lineOf, announces, Remark.level]
  | passed _ hcancelled => exact absurd hj hcancelled
  | begun _ hcancelled => exact absurd hj hcancelled
  | ended =>
    rw [List.forall_mem_cons]
    exact ⟨id, fun e he => not_starts_of_mem_recorded he⟩

/-- Nothing starts in a deed under a journal in which the run was cancelled. -/
theorem Deed.not_starts {j : Journal} {a : Strand} {events : List Event}
    {task : Task Strand Report} (h : Deed setup j a events task) (hj : .cancelled ∈ j) :
    ∀ e ∈ events, ¬ Starts e := by
  cases h with
  | repeated => simp [Starts, lineOf, announces, Remark.level]
  | pass htakes | start htakes => exact absurd hj htakes.cancelled_not_mem
  | cancel => simp [Starts]
  | leave | abort =>
    rw [List.forall_mem_cons]
    exact ⟨id, fun e he => not_starts_of_mem_recorded he⟩
  | _ => simp

/-- The record that the run was cancelled is a chapter of its own. -/
theorem Chapter.eq_of_cancelled {j : Journal} {events : List Event} (h : Chapter setup j events)
    (hmem : .cancelled ∈ events) : events = [.cancelled] := by
  cases h with
  | cancelled => rfl
  | begun _ _ hopening => rcases hopening with rfl | rfl <;> simp [lineOf] at hmem
  | ended => simp at hmem
  | _ => simp [lineOf] at hmem

/-- After a run was cancelled nothing starts. -/
theorem Chronicle.not_starts {j later earlier : Journal} (h : Chronicle setup j)
    (hj : j = later ++ .cancelled :: earlier) : ∀ e ∈ later, ¬ Starts e := by
  induction h generalizing later with
  | nil => exact absurd hj.symm (List.append_ne_nil_of_right_ne_nil later (List.cons_ne_nil _ _))
  | @adding j events _ hchapter ih =>
    rcases List.append_eq_append_iff.mp hj with ⟨rest, rfl, hrest⟩ | ⟨rest, hevents, hrest⟩
    · -- the run was cancelled before the chapter
      have hmem : .cancelled ∈ j := by simp [hrest]
      intro e he
      rcases List.mem_append.mp he with hnew | hold
      · exact hchapter.not_starts hmem e (List.mem_reverse.mp hnew)
      · exact ih hrest e hold
    · cases rest with
      | nil =>
        rw [List.append_nil] at hevents
        rw [List.nil_append] at hrest
        have hmem : .cancelled ∈ j := by simp [← hrest]
        exact fun e he => hchapter.not_starts hmem e (List.mem_reverse.mp (hevents ▸ he))
      | cons e rest =>
        -- the run was cancelled in the chapter, which tells nothing else
        obtain ⟨rfl, -⟩ := List.cons.inj hrest
        have hmem : .cancelled ∈ events := by
          rw [← List.mem_reverse, hevents]
          simp
        rw [hchapter.eq_of_cancelled hmem] at hevents
        obtain rfl : later = [] := by
          cases later with
          | nil => rfl
          | cons e later => simp at hevents
        simp

/-! ### What was begun ends -/

/-- The record of the end of a node in a scope, latest event first. -/
def ending (n : Node) (scope : Scope) (outcome : Except Fault Value) : Journal :=
  (recorded n scope (.of outcome)).reverse ++ [.ended scope n.id outcome]

/-- The record of an end has a line about the node that says how it ended, and what the node
leaves. -/
theorem line_mem_ending (n : Node) (scope : Scope) (outcome : Except Fault Value) :
    ∃ line, .logged line ∈ ending n scope outcome ∧ line.node = n.id ∧
      (line.remark.level = .success ∨ line.remark.level = .error) := by
  obtain ⟨remark, hlines, hlevel⟩ := lines_recorded n scope (.of outcome)
  have hmem : .logged ⟨n.id, n.displayName, remark⟩ ∈ recorded n scope (.of outcome) := by
    rw [← Journal.mem_lines, hlines]
    exact List.mem_singleton_self _
  exact ⟨⟨n.id, n.displayName, remark⟩, by simp [ending, hmem], rfl, hlevel⟩

/-- What is recorded about a node that has ended stands in the journal in one piece. -/
theorem Chronicle.exists_ending {j : Journal} (h : Chronicle setup j) {scope : Scope}
    {node : String} {outcome : Except Fault Value} (hmem : .ended scope node outcome ∈ j) :
    ∃ n, setup.graph.node? node = some n ∧ n.id = node ∧ ending n scope outcome <:+: j := by
  induction h with
  | nil => cases hmem
  | @adding j events _ hchapter ih =>
    rcases Journal.mem_adding.mp hmem with hnew | hold
    swap
    · obtain ⟨n, hn, hid, hpiece⟩ := ih hold
      exact ⟨n, hn, hid, hpiece.trans (List.suffix_append _ _).isInfix⟩
    cases hchapter with
    | begun _ _ hopening => rcases hopening with rfl | rfl <;> simp [lineOf] at hnew
    | @ended n s o hn _ =>
      obtain ⟨rfl, rfl, rfl⟩ : scope = s ∧ node = n.id ∧ outcome = o := by simpa using hnew
      refine ⟨n, hn, rfl, [], j, ?_⟩
      simp [ending, Journal.adding]
    | _ => simp [lineOf] at hnew

/-- A piece whose first event is among the later ones lies among them as a whole. -/
theorem infix_later {piece later earlier : Journal} {first e : Event}
    (h : piece ++ [first] <:+: later ++ e :: earlier) (hne : first ≠ e)
    (hnot : first ∉ earlier) : piece ++ [first] <:+: later := by
  obtain ⟨before, after, hsplit⟩ := h
  rcases List.append_eq_append_iff.mp hsplit with ⟨rest, rfl, -⟩ | ⟨rest, hpiece, hrest⟩
  · exact ⟨before, rest, rfl⟩
  · rcases List.eq_nil_or_concat rest with rfl | ⟨front, last, rfl⟩
    · exact ⟨before, [], by rw [List.append_nil, hpiece, List.append_nil]⟩
    · rw [← List.append_assoc, List.concat_eq_append, ← List.append_assoc] at hpiece
      obtain ⟨-, hlast⟩ := List.append_inj' hpiece rfl
      obtain rfl : first = last := by simpa using hlast
      have hmem : first ∈ e :: earlier := by simp [hrest]
      exact absurd hmem (by simp [hne, hnot])

/-- A node is at work in a scope: it was begun and has not ended. -/
def InFlight (j : Journal) (scope : Scope) (node : String) : Prop :=
  .reached scope node .resolving ∈ j ∧ ∀ outcome, .ended scope node outcome ∉ j

/-- A node that is at work when a run is cancelled ends later. -/
theorem ComesTo.ending_of_inFlight {given : Given} {world : World} {j later earlier : Journal}
    {outcome : Outcome} (h : ComesTo setup given world j outcome)
    (hj : j = later ++ .cancelled :: earlier) {scope : Scope} {node : String}
    (hflight : InFlight earlier scope node) :
    ∃ n result, setup.graph.node? node = some n ∧ n.id = node ∧
      ending n scope result <:+: later := by
  have hchronicle := h.chronicle
  obtain ⟨hbegun, hopen⟩ := hflight
  cases h with
  | @intro c report hreach hended =>
    have hresolving : .reached scope node .resolving ∈ c.shared.journal := by simp [hj, hbegun]
    obtain ⟨result, hmem⟩ := exists_outcome hreach (isOver_of_ended hended) hresolving
    obtain ⟨n, hn, rfl, hpiece⟩ := hchronicle.exists_ending hmem
    rw [hj] at hpiece
    exact ⟨n, result, hn, rfl, infix_later hpiece (by simp) (hopen result)⟩

/-! ### What was written stays -/

/-- Nodes that have a result keep having one. -/
theorem keys_results_prefix (later earlier : Journal) :
    earlier.results.keys <+: (Journal.results (later ++ earlier)).keys := by
  induction later with
  | nil => exact List.prefix_rfl
  | cons e later ih =>
    cases e with
    | wrote scope node result => exact ih.trans (Fields.keys_prefix_set _ node result)
    | _ => exact ih

/-! ### Cancelled runs -/

namespace Sample

/-- The event tells that the run was cancelled. -/
def isSignal : Event → Bool
  | .cancelled => true
  | _ => false

theorem eq_of_isSignal {e : Event} (h : isSignal e = true) : e = .cancelled := by
  cases e <;> first | rfl | cases h

/-- A journal is split at a place at which the run was cancelled. -/
theorem eq_at_signal {j : Journal} {k : ℕ} (h : (j[k]?).map isSignal = some true) :
    j = j.take k ++ .cancelled :: j.drop (k + 1) := by
  obtain ⟨e, he, hsignal⟩ := Option.map_eq_some_iff.mp h
  obtain rfl := eq_of_isSignal hsignal
  obtain ⟨hk, hget⟩ := List.getElem?_eq_some_iff.mp he
  rw [← hget, ← List.drop_eq_getElem_cons hk, List.take_append_drop]

/-- A start forks into a step, with another one after it, and an action that cancels the run. -/
def halting : Setup where
  graph :=
    { document :=
        { authoredNodes := some [node "a" "start" [], node "x" "step" [], node "c" "stop" [],
            node "y" "step" []]
          authoredEdges := some [edge "1" "a" "x" none, edge "2" "a" "c" none,
            edge "3" "x" "y" none]
          authoredTrigger := none
          authoredComponent := none
          others := [] }
      start := node "a" "start" []
      sound := rfl
      start_mem := List.mem_cons_self
      start_isStart := isStart_node }
  registry := ("stop", .plain fun config _ => .cancelRun (.done config)) :: registry
  defaultMaxIterations := 500

end Sample

end Automation.Run
