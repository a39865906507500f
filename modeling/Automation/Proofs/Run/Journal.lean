/-
Automation/Proofs/Run/Journal.lean

What a journal says, as membership of events.

The tests that a run makes on its journal are rewritten to the events that must
be in it.  Properties of a journal are of two kinds: that some events are in it,
which no further event takes away, and that each of its events fits to those
before it (`Journal.Always`), which is kept if the new events fit.

What is reported about a node depends on the events that tell of it alone
(`reports_adding`), and further events add their lines to the log (`log_adding`).
-/
import Mathlib.Data.List.Basic
import Automation.Proofs.Fields
import Automation.Run.Journal

namespace Automation.Journal

/-! ### Events in a journal -/

@[simp] theorem mem_adding {e : Event} {j : Journal} {events : List Event} :
    e ∈ j.adding events ↔ e ∈ events ∨ e ∈ j := by
  simp [adding]

@[simp] theorem adding_nil (j : Journal) : j.adding [] = j := rfl

@[simp] theorem adding_cons (j : Journal) (e : Event) (events : List Event) :
    j.adding (e :: events) = Journal.adding (e :: j) events := by
  simp [adding]

theorem adding_adding (j : Journal) (first second : List Event) :
    (j.adding first).adding second = j.adding (first ++ second) := by
  simp [adding]

theorem isCancelled_iff {j : Journal} : j.isCancelled = true ↔ .cancelled ∈ j := by
  simp only [isCancelled, List.any_eq_true]
  constructor
  · rintro ⟨e, he, hcancel⟩
    cases e <;> simp at hcancel
    exact he
  · exact fun h => ⟨_, h, rfl⟩

theorem hasClaimed_iff {scope : Scope} {node : String} {j : Journal} :
    j.hasClaimed scope node = true ↔ .claimed scope node ∈ j := by
  simp only [hasClaimed, List.any_eq_true]
  constructor
  · rintro ⟨e, he, hclaim⟩
    cases e <;> simp at hclaim
    obtain ⟨rfl, rfl⟩ := hclaim
    exact he
  · exact fun h => ⟨_, h, by simp⟩

/-- The nodes that were taken, each with its scope, latest first. -/
def claims (j : Journal) : List (Scope × String) :=
  j.filterMap fun
    | .claimed scope node => some (scope, node)
    | _ => none

/-- The nodes whose execution was begun, each with its scope, latest first. -/
def starts (j : Journal) : List (Scope × String) :=
  j.filterMap fun
    | .reached scope node .resolving => some (scope, node)
    | _ => none

theorem mem_claims {j : Journal} {scope : Scope} {node : String} :
    (scope, node) ∈ j.claims ↔ .claimed scope node ∈ j := by
  simp only [claims, List.mem_filterMap]
  constructor
  · rintro ⟨e, he, heq⟩
    cases e <;> simp at heq
    obtain ⟨rfl, rfl⟩ := heq
    exact he
  · exact fun h => ⟨_, h, rfl⟩

theorem mem_starts {j : Journal} {scope : Scope} {node : String} :
    (scope, node) ∈ j.starts ↔ .reached scope node .resolving ∈ j := by
  simp only [starts, List.mem_filterMap]
  constructor
  · rintro ⟨e, he, heq⟩
    cases e with
    | reached s n how =>
      cases how <;> simp at heq
      obtain ⟨rfl, rfl⟩ := heq
      exact he
    | _ => simp at heq
  · exact fun h => ⟨_, h, rfl⟩

/-! ### What is reported about a node -/

/-- An event that tells of a node how far it has come, what it left, or why it failed. -/
def Concerns (node : String) : Event → Prop
  | .reached _ n _ => n = node
  | .wrote _ n _ => n = node
  | .erred _ n _ => n = node
  | _ => False

/-- Events that do not concern a node change nothing that is reported about it. -/
theorem reports_adding {j : Journal} {events : List Event} {node : String}
    (h : ∀ e ∈ events, ¬ Concerns node e) :
    (j.adding events).state node = j.state node ∧
      (j.adding events).results.get? node = j.results.get? node ∧
      (j.adding events).errors.get? node = j.errors.get? node := by
  induction events generalizing j with
  | nil => exact ⟨rfl, rfl, rfl⟩
  | cons e events ih =>
    obtain ⟨he, hevents⟩ := List.forall_mem_cons.mp h
    rw [adding_cons]
    obtain ⟨hstate, hresults, herrors⟩ := ih (j := e :: j) hevents
    rw [hstate, hresults, herrors]
    cases e with
    | reached scope n how => exact ⟨if_neg he, rfl, rfl⟩
    | wrote scope n result => exact ⟨rfl, Fields.get?_set_of_ne _ (Ne.symm he) _, rfl⟩
    | erred scope n message => exact ⟨rfl, rfl, Fields.get?_set_of_ne _ (Ne.symm he) _⟩
    | _ => exact ⟨rfl, rfl, rfl⟩

theorem mem_keys_results {j : Journal} {node : String} :
    node ∈ j.results.keys ↔ ∃ scope result, .wrote scope node result ∈ j := by
  induction j with
  | nil => simp [results]
  | cons e j ih =>
    cases e <;> simp [results, Fields.mem_keys_set, ih, exists_or, eq_comm]

theorem mem_keys_errors {j : Journal} {node : String} :
    node ∈ j.errors.keys ↔ ∃ scope message, .erred scope node message ∈ j := by
  induction j with
  | nil => simp [errors]
  | cons e j ih =>
    cases e <;> simp [errors, Fields.mem_keys_set, ih, exists_or, eq_comm]

theorem nodup_failedNodes (j : Journal) : j.failedNodes.Nodup := by
  unfold failedNodes
  induction j with
  | nil => exact .nil
  | cons e j ih =>
    cases e with
    | erred scope node message => exact Fields.nodup_keys_set ih node message
    | _ => exact ih

/-! ### The log -/

/-- The lines among some events, in their order. -/
def lines (events : List Event) : List Line := log events.reverse

@[simp] theorem lines_nil : lines [] = [] := rfl

@[simp] theorem lines_cons (e : Event) (events : List Event) :
    lines (e :: events) = (match e with | .logged line => [line] | _ => []) ++ lines events := by
  cases e <;> simp [lines, log]

theorem log_adding (j : Journal) (events : List Event) :
    (j.adding events).log = j.log ++ lines events := by
  simp [log, lines, adding]

theorem mem_lines {line : Line} {events : List Event} :
    line ∈ lines events ↔ .logged line ∈ events := by
  induction events with
  | nil => simp
  | cons e events ih => cases e <;> simp [ih]

theorem mem_log {line : Line} {j : Journal} : line ∈ j.log ↔ .logged line ∈ j := by
  have hlines : line ∈ lines j.reverse ↔ .logged line ∈ j.reverse := mem_lines
  rwa [lines, List.reverse_reverse, List.mem_reverse] at hlines

/-! ### Events that fit to those before -/

/-- Each event of a journal fits to the events before it. -/
def Always (fits : Event → Journal → Prop) : Journal → Prop
  | [] => True
  | e :: past => fits e past ∧ Always fits past

variable {fits : Event → Journal → Prop}

theorem always_nil : Always fits [] := trivial

/-- An event of such a journal fits to those before it. -/
theorem Always.fits_of_eq {j later earlier : Journal} {e : Event} (h : Always fits j)
    (hj : j = later ++ e :: earlier) : fits e earlier := by
  -- the latest event is at the head, so the later ones come off first
  subst hj
  induction later with
  | nil => exact h.1
  | cons l later ih => exact ih h.2

end Automation.Journal
