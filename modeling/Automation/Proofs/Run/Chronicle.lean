/-
Automation/Proofs/Run/Chronicle.lean

How the journal of a run is composed.

A deed writes down nothing or one chapter: that a node was looked at again, that it was
passed over, that it was begun, or that it has ended, with all that is recorded about
that (`Chapter`).  The journal of a run is a sequence of such chapters and of the
records that the run was cancelled (`chronicle_of_reaches`), so what one event says
about others is proved from chapters: an error is recorded for the nodes that have
ended with it (`Chronicle.erred_iff`), and whatever is recorded about a node, the
node was taken before (`Chronicle.claimed_of_reached`).
-/
import Automation.Proofs.Run.Endings

namespace Automation.Run

open Automation.Schedule (Pool Task)

variable {setup : Setup}

/-! ### Chapters -/

/-- What a deed writes down under a journal, or what is written down if the run is
cancelled. -/
inductive Chapter (setup : Setup) (j : Journal) : List Event → Prop
  | cancelled : Chapter setup j [.cancelled]
  | repeated {n} : setup.graph.node? n.id = some n → Chapter setup j [lineOf n .repeated]
  | passed {n scope} : setup.graph.node? n.id = some n → .cancelled ∉ j →
    Chapter setup j [.claimed scope n.id, lineOf n .disabled]
  | begun {n scope opening} : setup.graph.node? n.id = some n → .cancelled ∉ j →
    opening = [] ∨ opening = [.reached scope n.id .invoking] →
    Chapter setup j ([.claimed scope n.id, lineOf n (.executing n.kind),
      .reached scope n.id .resolving] ++ opening)
  | ended {n scope outcome} : setup.graph.node? n.id = some n → .claimed scope n.id ∈ j →
    Chapter setup j (.ended scope n.id outcome :: recorded n scope (.of outcome))

theorem Opening.events_eq {n : Node} {b : Branch} {opening : List Event} {next : Strand}
    (h : Opening setup n b opening next) :
    opening = [] ∨ opening = [.reached b.view.scope n.id .invoking] := by
  cases h <;> simp

theorem Takes.cancelled_not_mem {j : Journal} {id : String} {b : Branch} {n : Node}
    (h : Takes setup j id b n) : .cancelled ∉ j := by
  intro hmem
  have hcancelled := h.cancelled
  rw [Journal.isCancelled_iff.mpr hmem] at hcancelled
  cases hcancelled

/-- A deed writes down nothing or a chapter. -/
theorem Deed.chapter {j : Journal} {a : Strand} {events : List Event} {task : Task Strand Report}
    (h : Deed setup j a events task) (ha : Grounded setup j a) :
    events = [] ∨ Chapter setup j events := by
  cases h with
  | repeated _ hn _ _ =>
    obtain rfl := Graph.id_of_node? hn
    exact .inr (.repeated hn)
  | pass htakes _ =>
    obtain rfl := Graph.id_of_node? htakes.node
    exact .inr (.passed htakes.node htakes.cancelled_not_mem)
  | start htakes _ hopening =>
    obtain rfl := Graph.id_of_node? htakes.node
    exact .inr (.begun htakes.node htakes.cancelled_not_mem hopening.events_eq)
  | cancel => exact .inr .cancelled
  | leave | abort => exact .inr (.ended (AtWork.node ha) (AtWork.claimed ha))
  | _ => exact .inl rfl

/-- A journal that is a sequence of chapters. -/
inductive Chronicle (setup : Setup) : Journal → Prop
  | nil : Chronicle setup []
  | adding {j events} : Chronicle setup j → Chapter setup j events →
    Chronicle setup (j.adding events)

/-- What a step of a run writes down: nothing, that the run is cancelled, or what a deed of
one of its branches does. -/
theorem journal_of_step {c d : Pool State Strand Report}
    (h : Pool.Step (program setup) Disturbs c d) :
    d.shared.journal = c.shared.journal ∨
      d.shared.journal = c.shared.journal.adding [.cancelled] ∨
      ∃ a ∈ c.states, ∃ events task, Deed setup c.shared.journal a events task ∧
        d.shared.journal = c.shared.journal.adding events := by
  cases h with
  | outside hout =>
    rcases hout with hj | hj
    · exact .inl hj
    · exact .inr (.inl hj)
  | move hmove =>
    cases hmove with
    | @advance path a hlive =>
      obtain ⟨events, task, hdeed, hj, -⟩ := exists_deed_births setup c.shared a
      refine .inr (.inr ⟨a, Pool.mem_states_of_live hlive, events, task, hdeed, ?_⟩)
      rw [Pool.advance_shared]
      exact hj
    | rejoin => exact .inl (by rw [Pool.replace_shared])

/-- The journal of every run is a sequence of chapters. -/
theorem chronicle_of_reaches {given : Given} {world : World} {c : Pool State Strand Report}
    (h : Reaches setup (opening setup given world) c) : Chronicle setup c.shared.journal := by
  induction h with
  | refl => exact .nil
  | tail hreach hstep ih =>
    rcases journal_of_step hstep with hj | hj | ⟨a, ha, events, task, hdeed, hj⟩
    · rw [hj]
      exact ih
    · rw [hj]
      exact ih.adding .cancelled
    · rw [hj]
      rcases hdeed.chapter ((grounds_of_reaches hreach).2 a ha) with rfl | hchapter
      · exact ih
      · exact ih.adding hchapter

/-! ### Who is at work -/

/-- An event that tells nothing about how far a node has come. -/
def Aside : Event → Prop
  | .claimed .. => True
  | .logged line => line.remark = .disabled ∨ line.remark = .repeated
  | .cancelled => True
  | _ => False

/-- What a deed does about nodes at work: it begins one, ends one, or does neither and
leaves at work whoever was. -/
inductive Turnover (setup : Setup) (j : Journal) (a : Strand) : List Event → List Strand → Prop
  | begins {n b opening next} : a = .visit n.id b → Takes setup j n.id b n →
    opening = [] ∨ opening = [.reached b.view.scope n.id .invoking] →
    executing next = some (b.view.scope, n.id) →
    Turnover setup j a ([.claimed b.view.scope n.id, lineOf n (.executing n.kind),
      .reached b.view.scope n.id .resolving] ++ opening) [next]
  | ends {n outcome b states} : a = .act n (.finish outcome) b →
    states.filterMap executing = [] →
    Turnover setup j a (.ended b.view.scope n.id outcome :: recorded n b.view.scope (.of outcome))
      states
  | idles {events states} : (∀ e ∈ events, Aside e) →
    states.filterMap executing = (executing a).toList → Turnover setup j a events states

/-- Where a branch forks into branches that begin with no node at work, only that branch
may be at work. -/
theorem executing_forked {β : Type*} (a : Strand) {f : β → Strand}
    (h : ∀ x, executing (f x) = none) (xs : List β) :
    (Task.waiting a ((xs.map f).map .live) : Task Strand Report).states.filterMap executing
      = (executing a).toList := by
  have hnone : (xs.map f).filterMap executing = [] := by
    simp [h]
  rw [Task.states_waiting, Task.statesAll_map_live, List.filterMap_cons, hnone]
  cases executing a <;> rfl

theorem Deed.turnover {j : Journal} {a : Strand} {events : List Event} {task : Task Strand Report}
    (h : Deed setup j a events task) : Turnover setup j a events task.states := by
  cases h with
  | start htakes _ hopening =>
    obtain rfl := Graph.id_of_node? htakes.node
    exact .begins rfl htakes hopening.events_eq hopening.executing
  | leave | abort => exact .ends rfl rfl
  | repeated | pass | cancel => exact .idles (by simp [Aside, lineOf]) rfl
  | batch => exact .idles (by simp) (executing_forked _ (fun _ => rfl) _)
  | fan => exact .idles (by simp) (executing_forked _ (fun _ => rfl) _)
  | _ => exact .idles (by simp) rfl

/-! ### Errors -/

/-- A node has failed in a scope. -/
def Failed (j : Journal) (scope : Scope) (node : String) : Prop :=
  ∃ message, .erred scope node message ∈ j

theorem Failed.adding {j : Journal} {scope : Scope} {node : String} (h : Failed j scope node)
    (events : List Event) : Failed (j.adding events) scope node := by
  obtain ⟨message, hmem⟩ := h
  exact ⟨message, by simp [hmem]⟩

theorem failed_iff_any {j : Journal} {scope : Scope} {node : String} :
    (j.any fun
      | .erred s n _ => s == scope && n == node
      | _ => false) = true ↔ Failed j scope node := by
  simp only [List.any_eq_true, Failed]
  constructor
  · rintro ⟨e, he, hmatch⟩
    cases e <;> simp at hmatch
    obtain ⟨rfl, rfl⟩ := hmatch
    exact ⟨_, he⟩
  · rintro ⟨message, hmem⟩
    exact ⟨_, hmem, by simp⟩

instance (j : Journal) (scope : Scope) (node : String) : Decidable (Failed j scope node) :=
  decidable_of_iff _ failed_iff_any

/-- What is recorded about a node that has ended. -/
theorem mem_recorded {n : Node} {scope : Scope} {v : Verdict} {e : Event} :
    e ∈ recorded n scope v ↔ e = .wrote scope n.id (v.left n.failurePolicy) ∨
      v.error = none ∧ (e = .reached scope n.id .completed ∨ e = lineOf n .completed ∨
        n.isResponse = true ∧ e = .replied (v.left n.failurePolicy)) ∨
      ∃ message, v.error = some message ∧ (e = .reached scope n.id .failed ∨
        e = .erred scope n.id message ∨ e = lineOf n (.failed message)) := by
  unfold recorded
  rcases hv : v.error with - | message
  · rcases hn : n.isResponse with - | - <;> simp
  · simp
    tauto

@[simp] theorem ended_not_mem_recorded {n : Node} {scope s : Scope} {v : Verdict} {node : String}
    {outcome : Except Fault Value} : .ended s node outcome ∉ recorded n scope v := by
  simp [mem_recorded, lineOf]

@[simp] theorem cancelled_not_mem_recorded {n : Node} {scope : Scope} {v : Verdict} :
    .cancelled ∉ recorded n scope v := by
  simp [mem_recorded, lineOf]

@[simp] theorem erred_mem_recorded {n : Node} {scope s : Scope} {v : Verdict}
    {node message : String} : .erred s node message ∈ recorded n scope v ↔
      s = scope ∧ node = n.id ∧ v.error = some message := by
  simp [mem_recorded, lineOf]
  tauto

@[simp] theorem wrote_mem_recorded_iff {n : Node} {scope s : Scope} {v : Verdict} {node : String}
    {result : Value} : .wrote s node result ∈ recorded n scope v ↔
      s = scope ∧ node = n.id ∧ result = v.left n.failurePolicy := by
  simp [mem_recorded, lineOf]

theorem reached_of_mem_recorded {n : Node} {scope s : Scope} {v : Verdict} {node : String}
    {how : NodeState} (h : .reached s node how ∈ recorded n scope v) : s = scope ∧ node = n.id := by
  simp [mem_recorded, lineOf] at h
  tauto

/-- In a run exactly those nodes have an error that have ended with it. -/
theorem Chronicle.erred_iff {j : Journal} (h : Chronicle setup j) {scope : Scope}
    {node message : String} : .erred scope node message ∈ j ↔
      ∃ outcome, .ended scope node outcome ∈ j ∧ (Verdict.of outcome).error = some message := by
  induction h with
  | nil => simp
  | adding _ hchapter ih =>
    rw [Journal.mem_adding, ih]
    cases hchapter with
    | begun _ _ hopening => rcases hopening with rfl | rfl <;> simp [lineOf]
    | ended => simp [or_and_right, exists_or, and_assoc]
    | _ => simp [lineOf]

/-- In a run exactly those nodes have written a result that have ended, and it is what they
leave. -/
theorem Chronicle.wrote_iff {j : Journal} (h : Chronicle setup j) {scope : Scope} {node : String}
    {result : Value} : .wrote scope node result ∈ j ↔
      ∃ n outcome, setup.graph.node? node = some n ∧ .ended scope node outcome ∈ j ∧
        result = (Verdict.of outcome).left n.failurePolicy := by
  induction h with
  | nil => simp
  | adding _ hchapter ih =>
    rw [Journal.mem_adding, ih]
    cases hchapter with
    | begun _ _ hopening => rcases hopening with rfl | rfl <;> simp [lineOf]
    | @ended n s outcome hn _ =>
      simp only [List.mem_cons, reduceCtorEq, wrote_mem_recorded_iff, false_or, Journal.mem_adding,
        Event.ended.injEq, ended_not_mem_recorded, or_false]
      constructor
      · rintro (⟨rfl, rfl, rfl⟩ | ⟨m, other, hm, hended, rfl⟩)
        · exact ⟨n, outcome, hn, .inl ⟨rfl, rfl, rfl⟩, rfl⟩
        · exact ⟨m, other, hm, .inr hended, rfl⟩
      · rintro ⟨m, other, hm, ⟨rfl, rfl, rfl⟩ | hended, rfl⟩
        · obtain rfl : n = m := Option.some.inj (hn.symm.trans hm)
          exact .inl ⟨rfl, rfl, rfl⟩
        · exact .inr ⟨m, other, hm, hended, rfl⟩
    | _ => simp [lineOf]

/-- Whatever is recorded about a node in a scope, the node was taken there. -/
theorem Chronicle.claimed_of_reached {j : Journal} (h : Chronicle setup j) {scope : Scope}
    {node : String} {how : NodeState} (hmem : .reached scope node how ∈ j) :
    .claimed scope node ∈ j := by
  induction h with
  | nil => cases hmem
  | adding _ hchapter ih =>
    rw [Journal.mem_adding] at hmem ⊢
    rcases hmem with hnew | hold
    swap
    · exact .inr (ih hold)
    cases hchapter with
    | @begun n s opening _ _ hopening =>
      have hsame : scope = s ∧ node = n.id := by
        rcases hopening with rfl | rfl <;> simp [lineOf] at hnew <;> tauto
      simp [hsame]
    | @ended n s outcome _ hclaimed =>
      obtain ⟨rfl, rfl⟩ : scope = s ∧ node = n.id := reached_of_mem_recorded (by simpa using hnew)
      exact .inr hclaimed
    | _ => simp [lineOf] at hnew

end Automation.Run
