/-
Automation/Proofs/Schedule/Place.lean

Tasks and results by where they are.

The states of a tree leave out two things that matter to a task that waits: which
of its children is which, and what those that have ended came to.  Here a tree is
read as the list of all that is in it, the states of its tasks and the results of
those that have ended, each with its place (`Task.placed`).  What a place is, is left
open: `inside` tells the place of a child by the place and the state of the task
that waits for it, so places may forget whatever does not matter.

As in the reading by states, a move exchanges a segment of the list
(`Pool.placed_advance`, `Pool.placed_rejoin`), and what runs keep is proved from
single steps: facts about all that is in a pool (`KeptAt`), and debts
(`HonouredAt`).  A task that returns to work takes over both from its children.
-/
import Automation.Proofs.Schedule.Interleaving

namespace Automation.Schedule

variable {σ : Type*} {α : Type*} {ρ : Type*} {ι : Type*}
variable {p : Program σ α ρ} {outside : σ → σ → Prop} {inside : ι → α → ℕ → ι} {origin : ι}

/-- What is at a place: a task that is live or waits, or the result of one that has
ended. -/
inductive Occupant (α : Type u) (ρ : Type v)
  | live (state : α)
  | waiting (state : α)
  | ended (result : ρ)

namespace Task

/-! ### What is in a tree -/

mutual

/-- The states and results in a tree with their places, from the outside in; the root
is `here`. -/
def placed (inside : ι → α → ℕ → ι) : Task α ρ → ι → List (ι × Occupant α ρ)
  | .live a, here => [(here, .live a)]
  | .waiting a children, here => (here, .waiting a) :: placedAll inside children (inside here a) 0
  | .ended r, here => [(here, .ended r)]

/-- The states and results in several trees, whose places are counted from `first` on. -/
def placedAll (inside : ι → α → ℕ → ι) :
    List (Task α ρ) → (ℕ → ι) → ℕ → List (ι × Occupant α ρ)
  | [], _, _ => []
  | t :: ts, place, first => t.placed inside (place first) ++ placedAll inside ts place (first + 1)

end

@[simp] theorem placed_live (a : α) (here : ι) :
    (Task.live a : Task α ρ).placed inside here = [(here, .live a)] := rfl

@[simp] theorem placed_waiting (a : α) (children : List (Task α ρ)) (here : ι) :
    (Task.waiting a children).placed inside here
      = (here, .waiting a) :: placedAll inside children (inside here a) 0 := rfl

@[simp] theorem placed_ended (r : ρ) (here : ι) :
    (Task.ended r : Task α ρ).placed inside here = [(here, .ended r)] := rfl

@[simp] theorem placedAll_nil (place : ℕ → ι) (first : ℕ) :
    placedAll inside ([] : List (Task α ρ)) place first = [] := rfl

@[simp] theorem placedAll_cons (t : Task α ρ) (ts : List (Task α ρ)) (place : ℕ → ι)
    (first : ℕ) : placedAll inside (t :: ts) place first
      = t.placed inside (place first) ++ placedAll inside ts place (first + 1) := rfl

theorem placedAll_append (ts us : List (Task α ρ)) (place : ℕ → ι) (first : ℕ) :
    placedAll inside (ts ++ us) place first
      = placedAll inside ts place first ++ placedAll inside us place (first + ts.length) := by
  induction ts generalizing first with
  | nil => rfl
  | cons t ts ih => simp [ih, Nat.add_assoc, Nat.add_comm 1]

/-- Live tasks, each in its place. -/
theorem mem_placedAll_live {as : List α} {place : ℕ → ι} {first : ℕ} {x : ι × Occupant α ρ}
    (h : x ∈ placedAll inside (as.map fun a => (Task.live a : Task α ρ)) place first) :
    ∃ k a, as[k]? = some a ∧ x = (place (first + k), .live a) := by
  induction as generalizing first with
  | nil => cases h
  | cons a as ih =>
    rcases List.mem_cons.mp h with rfl | h
    · exact ⟨0, a, rfl, rfl⟩
    · obtain ⟨k, b, hk, rfl⟩ := ih h
      exact ⟨k + 1, b, hk, by rw [Nat.add_right_comm, Nat.add_assoc]⟩

theorem placedAll_live_of_getElem? (inside : ι → α → ℕ → ι) {as : List α} {k : ℕ} {a : α}
    (h : as[k]? = some a) (place : ℕ → ι) (first : ℕ) : (place (first + k), .live a)
      ∈ placedAll inside (as.map fun a => (Task.live a : Task α ρ)) place first := by
  induction as generalizing k first with
  | nil => cases h
  | cons b as ih =>
    rw [List.map_cons, placedAll_cons, placed_live, List.singleton_append, List.mem_cons]
    cases k with
    | zero =>
      obtain rfl := Option.some.inj h
      exact .inl rfl
    | succ k =>
      have hrest := ih h (first + 1)
      rw [Nat.add_right_comm] at hrest
      exact .inr hrest

/-- Of tasks that all have ended there are the results, each in its place. -/
theorem placedAll_of_results? (inside : ι → α → ℕ → ι) {ts : List (Task α ρ)} {rs : List ρ} (h : results? ts = some rs)
    (place : ℕ → ι) (first : ℕ) {x : ι × Occupant α ρ} :
    x ∈ placedAll inside ts place first ↔
      ∃ k r, rs[k]? = some r ∧ x = (place (first + k), .ended r) := by
  induction ts generalizing rs first with
  | nil =>
    obtain rfl : [] = rs := by simpa [results?] using h
    simp
  | cons t ts ih =>
    cases t with
    | live a => simp [results?, result?] at h
    | waiting a children => simp [results?, result?] at h
    | ended r =>
      rcases hs : results? ts with - | rest
      · simp [results?, result?, hs] at h
      obtain rfl : r :: rest = rs := by simpa [results?, result?, hs] using h
      rw [placedAll_cons, placed_ended, List.singleton_append, List.mem_cons, ih hs]
      constructor
      · rintro (rfl | ⟨k, s, hk, rfl⟩)
        · exact ⟨0, r, rfl, rfl⟩
        · exact ⟨k + 1, s, hk, by rw [Nat.add_right_comm, Nat.add_assoc]⟩
      · rintro ⟨k, s, hk, rfl⟩
        cases k with
        | zero =>
          obtain rfl : r = s := Option.some.inj hk
          exact .inl rfl
        | succ k => exact .inr ⟨k, s, hk, by rw [Nat.add_right_comm, Nat.add_assoc]⟩

mutual

/-- What is in a tree and has not ended is a state of the tree. -/
theorem mem_states_of_placed : (t : Task α ρ) → ∀ {here q : ι} {a : α},
    ((q, .live a) ∈ t.placed inside here ∨ (q, .waiting a) ∈ t.placed inside here) → a ∈ t.states
  | .live b, here, q, a, h => by
    obtain ⟨-, rfl⟩ : q = here ∧ a = b := by simpa using h
    exact List.mem_singleton_self a
  | .ended r, _, _, _, h => by simp at h
  | .waiting b children, here, q, a, h => by
    rw [states_waiting, List.mem_cons]
    simp only [placed_waiting, List.mem_cons, Prod.mk.injEq, reduceCtorEq, and_false, false_or,
      Occupant.waiting.injEq] at h
    rcases h with h | ⟨-, rfl⟩ | h
    · exact .inr (mem_statesAll_of_placed children (.inl h))
    · exact .inl rfl
    · exact .inr (mem_statesAll_of_placed children (.inr h))

/-- What is in several trees and has not ended is a state of one of them. -/
theorem mem_statesAll_of_placed : (ts : List (Task α ρ)) → ∀ {place : ℕ → ι} {first : ℕ} {q : ι}
    {a : α}, ((q, .live a) ∈ placedAll inside ts place first ∨
      (q, .waiting a) ∈ placedAll inside ts place first) → a ∈ statesAll ts
  | [], _, _, _, _, h => by simp at h
  | t :: ts, _, _, _, _, h => by
    rw [statesAll_cons, List.mem_append]
    simp only [placedAll_cons, List.mem_append] at h
    rcases h with (h | h) | h | h
    · exact .inl (mem_states_of_placed t (.inl h))
    · exact .inr (mem_statesAll_of_placed ts (.inl h))
    · exact .inl (mem_states_of_placed t (.inr h))
    · exact .inr (mem_statesAll_of_placed ts (.inr h))

end

mutual

/-- A state of a tree is in it, at some place. -/
theorem exists_placed_of_states (inside : ι → α → ℕ → ι) : (t : Task α ρ) → ∀ (here : ι) {a : α},
    a ∈ t.states → ∃ q, (q, .live a) ∈ t.placed inside here ∨ (q, .waiting a) ∈ t.placed inside here
  | .live b, here, a, h => by
    obtain rfl := List.mem_singleton.mp h
    exact ⟨here, .inl (List.mem_singleton_self _)⟩
  | .ended r, _, _, h => by cases h
  | .waiting b children, here, a, h => by
    rcases List.mem_cons.mp h with rfl | h
    · exact ⟨here, .inr List.mem_cons_self⟩
    · obtain ⟨q, hq⟩ := exists_placedAll_of_statesAll inside children (inside here b) 0 h
      exact ⟨q, hq.imp (List.mem_cons_of_mem _) (List.mem_cons_of_mem _)⟩

/-- A state of one of several trees is in one of them, at some place. -/
theorem exists_placedAll_of_statesAll (inside : ι → α → ℕ → ι) : (ts : List (Task α ρ)) →
    ∀ (place : ℕ → ι) (first : ℕ) {a : α}, a ∈ statesAll ts → ∃ q, (q, .live a) ∈ placedAll inside ts place first ∨
      (q, .waiting a) ∈ placedAll inside ts place first
  | [], _, _, _, h => by cases h
  | t :: ts, place, first, a, h => by
    rw [statesAll_cons, List.mem_append] at h
    rcases h with h | h
    · obtain ⟨q, hq⟩ := exists_placed_of_states inside t (place first) h
      exact ⟨q, hq.imp (List.mem_append_left _) (List.mem_append_left _)⟩
    · obtain ⟨q, hq⟩ := exists_placedAll_of_statesAll inside ts place (first + 1) h
      exact ⟨q, hq.imp (List.mem_append_right _) (List.mem_append_right _)⟩

end

/-! ### Exchanging a task -/

/-- What is in a list of trees, around one of them. -/
theorem placedAll_of_getElem? {ts : List (Task α ρ)} {i : ℕ} {t : Task α ρ} (h : ts[i]? = some t)
    (f : Task α ρ → Task α ρ) (place : ℕ → ι) (first : ℕ) :
    placedAll inside ts place first = placedAll inside (ts.take i) place first
        ++ t.placed inside (place (first + i))
        ++ placedAll inside (ts.drop (i + 1)) place (first + i + 1) ∧
      placedAll inside (ts.modify i f) place first = placedAll inside (ts.take i) place first
        ++ (f t).placed inside (place (first + i))
        ++ placedAll inside (ts.drop (i + 1)) place (first + i + 1) := by
  obtain ⟨hi, rfl⟩ := List.getElem?_eq_some_iff.mp h
  have hlength : (ts.take i).length = i := List.length_take_of_le (Nat.le_of_lt hi)
  constructor
  · conv_lhs => rw [← List.take_append_drop i ts, List.drop_eq_getElem_cons hi]
    rw [placedAll_append, placedAll_cons, hlength, List.append_assoc]
  · rw [List.modify_eq_take_cons_drop hi, placedAll_append, placedAll_cons, hlength,
      List.append_assoc]

/-- Putting a task in the place of another exchanges what is there. -/
theorem exists_place (inside : ι → α → ℕ → ι) {t u : Task α ρ} {path : List ℕ}
    (h : t.at? path = some u) (here : ι) :
    ∃ q before after, t.placed inside here = before ++ u.placed inside q ++ after ∧
      ∀ new, (t.replace path new).placed inside here = before ++ new.placed inside q ++ after := by
  induction path generalizing t here with
  | nil =>
    obtain rfl : t = u := by simpa [at?] using h
    exact ⟨here, [], [], by simp, fun new => by simp [replace]⟩
  | cons i path ih =>
    cases t with
    | live a => simp [at?] at h
    | ended r => simp [at?] at h
    | waiting a children =>
      obtain ⟨child, hi, hu⟩ := Option.bind_eq_some_iff.mp h
      obtain ⟨q, before, after, hs, hnew⟩ := ih hu (inside here a (0 + i))
      refine ⟨q, (here, .waiting a) :: (placedAll inside (children.take i) (inside here a) 0 ++ before),
        after ++ placedAll inside (children.drop (i + 1)) (inside here a) (0 + i + 1), ?_,
        fun new => ?_⟩
      · rw [placed_waiting, (placedAll_of_getElem? hi id _ _).1, hs]
        simp
      · rw [replace, placed_waiting, (placedAll_of_getElem? hi _ _ _).2, hnew]
        simp

end Task

/-- What comes of a directive, with its places: in the place of the task that gave it, and
at the origin for new roots. -/
def Directive.placed (p : Program σ α ρ) (inside : ι → α → ℕ → ι) (origin : ι)
    (d : Directive α ρ) (here : ι) : List (ι × Occupant α ρ) :=
  (d.task p).placed inside here ++ Task.placedAll inside d.roots (fun _ => origin) 0

namespace Pool

/-! ### Pools -/

/-- All that is in a pool, with its place; the roots are at the origin. -/
def placed (inside : ι → α → ℕ → ι) (origin : ι) (c : Pool σ α ρ) : List (ι × Occupant α ρ) :=
  Task.placedAll inside c.tasks (fun _ => origin) 0

/-- The origin is the place of every root, however many there are before it. -/
theorem placedAll_origin (ts : List (Task α ρ)) (first second : ℕ) :
    Task.placedAll inside ts (fun _ => origin) first
      = Task.placedAll inside ts (fun _ => origin) second := by
  induction ts generalizing first second with
  | nil => rfl
  | cons t ts ih => rw [Task.placedAll_cons, Task.placedAll_cons, ih (first + 1) (second + 1)]

theorem exists_place (inside : ι → α → ℕ → ι) (origin : ι) {c : Pool σ α ρ} {t : Task α ρ}
    {path : List ℕ} (h : c.at? path = some t) :
    ∃ q before after,
      c.placed inside origin = before ++ t.placed inside q ++ after ∧
        ∀ new, (c.replace path new).placed inside origin
          = before ++ new.placed inside q ++ after := by
  obtain ⟨i, rest, root, rfl, hi, hroot⟩ := at?_eq_some h
  obtain ⟨q, before, after, hs, hnew⟩ := Task.exists_place inside hroot origin
  refine ⟨q, Task.placedAll inside (c.tasks.take i) (fun _ => origin) 0 ++ before,
    after ++ Task.placedAll inside (c.tasks.drop (i + 1)) (fun _ => origin) (0 + i + 1), ?_,
    fun new => ?_⟩
  · rw [placed, (Task.placedAll_of_getElem? hi id _ _).1, hs]
    simp
  · rw [placed, replace, (Task.placedAll_of_getElem? hi _ _ _).2, hnew]
    simp

/-- A step of a live task puts what comes of it in its place, and new roots behind all. -/
theorem exists_placed_advance (p : Program σ α ρ) (inside : ι → α → ℕ → ι) (origin : ι)
    {c : Pool σ α ρ} {path : List ℕ} {a : α} (h : c.at? path = some (.live a)) :
    ∃ q before after,
      c.placed inside origin = before ++ (q, .live a) :: after ∧
        (c.advance p path a).placed inside origin
          = before ++ ((p.step c.shared a).2.task p).placed inside q ++ after
            ++ Task.placedAll inside (p.step c.shared a).2.roots (fun _ => origin) 0 := by
  obtain ⟨q, before, after, hs, hnew⟩ := exists_place inside origin h
  refine ⟨q, before, after, by simpa using hs, ?_⟩
  rw [← hnew]
  cases path with
  | nil => simp [at?] at h
  | cons i path =>
    exact (Task.placedAll_append _ _ _ _).trans (congrArg _ (placedAll_origin _ _ 0))

/-- A step of a live task exchanges it for what comes of its directive. -/
theorem placed_advance (inside : ι → α → ℕ → ι) (origin : ι) {c : Pool σ α ρ} {path : List ℕ} {a : α}
    (h : c.at? path = some (.live a)) :
    ∃ q before after,
      c.placed inside origin = before ++ (q, .live a) :: after ∧
        ∀ x, x ∈ (c.advance p path a).placed inside origin ↔
          x ∈ before ++ after ∨ x ∈ (p.step c.shared a).2.placed p inside origin q := by
  obtain ⟨q, before, after, hs, hplaced⟩ := exists_placed_advance p inside origin h
  refine ⟨q, before, after, hs, fun x => ?_⟩
  rw [hplaced, Directive.placed]
  simp only [List.mem_append]
  tauto

/-- A return to work exchanges the task and the results of its children for the task that
has returned. -/
theorem placed_rejoin (inside : ι → α → ℕ → ι) (origin : ι) {c : Pool σ α ρ} {path : List ℕ}
    {a : α} {children : List (Task α ρ)} {results : List ρ} (h : c.at? path = some (.waiting a children))
    (hr : Task.results? children = some results) :
    ∃ (q : ι) (before after : List (ι × Occupant α ρ)),
      (∀ x, x ∈ c.placed inside origin ↔ x ∈ before ++ after ∨ x = (q, .waiting a) ∨
          ∃ (k : ℕ) (r : ρ), results[k]? = some r ∧ x = (inside q a k, .ended r)) ∧
        ∀ x, x ∈ (c.replace path (.live (p.rejoin a results))).placed inside origin ↔
          x ∈ before ++ after ∨ x = (q, .live (p.rejoin a results)) := by
  obtain ⟨q, before, after, hs, hnew⟩ := exists_place inside origin h
  refine ⟨q, before, after, fun x => ?_, fun x => ?_⟩
  · have hresults := Task.placedAll_of_results? inside hr (inside q a) 0 (x := x)
    rw [hs, Task.placed_waiting]
    simp only [List.mem_append, List.mem_cons, hresults, Nat.zero_add]
    exact or_right_comm
  · rw [hnew, Task.placed_live]
    simp only [List.mem_append, List.mem_cons, List.not_mem_nil, or_false]
    tauto

/-! ### What runs keep -/

section Facts

variable {J : σ → Prop} {K : σ → ι → Occupant α ρ → Prop}

/-- A fact about the shared state, and one about all that is in a pool, that every step
keeps. -/
structure KeptAt (p : Program σ α ρ) (outside : σ → σ → Prop) (inside : ι → α → ℕ → ι)
    (origin : ι) (J : σ → Prop) (K : σ → ι → Occupant α ρ → Prop) : Prop where
  shared : ∀ {s q a}, J s → K s q (.live a) → J (p.step s a).1
  births : ∀ {s q a}, J s → K s q (.live a) →
    ∀ x ∈ (p.step s a).2.placed p inside origin q, K (p.step s a).1 x.1 x.2
  others : ∀ {s q a r x}, J s → K s q (.live a) → K s r x → K (p.step s a).1 r x
  rejoin : ∀ {s q a results}, J s → K s q (.waiting a) →
    (∀ (k : ℕ) r, results[k]? = some r → K s (inside q a k) (.ended r)) →
    K s q (.live (p.rejoin a results))
  outside : ∀ {s s'}, outside s s' → J s → J s' ∧ ∀ q x, K s q x → K s' q x

/-- The fact about a pool: that about the shared state, and that about all in it. -/
def HoldsAt (inside : ι → α → ℕ → ι) (origin : ι) (J : σ → Prop) (K : σ → ι → Occupant α ρ → Prop)
    (c : Pool σ α ρ) : Prop :=
  J c.shared ∧ ∀ x ∈ c.placed inside origin, K c.shared x.1 x.2

theorem holdsAt_start {s : σ} {a : α} (hJ : J s) (hK : K s origin (.live a)) :
    HoldsAt inside origin J K (Pool.start s a : Pool σ α ρ) :=
  ⟨hJ, fun x hx => by
    obtain rfl : x = (origin, .live a) := by simpa [start, placed] using hx
    exact hK⟩

theorem KeptAt.step (hk : KeptAt p outside inside origin J K) {c d : Pool σ α ρ}
    (hc : HoldsAt inside origin J K c) (h : Step p outside c d) :
    HoldsAt inside origin J K d := by
  obtain ⟨hJ, hK⟩ := hc
  cases h with
  | outside hout =>
    obtain ⟨hJ', hK'⟩ := hk.outside hout hJ
    exact ⟨hJ', fun x hx => hK' _ _ (hK x hx)⟩
  | move hmove =>
    cases hmove with
    | @advance path a hlive =>
      obtain ⟨q, before, after, hs, hnew⟩ :=
        placed_advance (p := p) inside origin hlive
      have ha : K c.shared q (.live a) := hK (q, .live a) (by simp [hs])
      refine ⟨by rw [advance_shared]; exact hk.shared hJ ha, fun x hx => ?_⟩
      rw [advance_shared]
      rcases (hnew x).mp hx with hold | hbirth
      · refine hk.others hJ ha (hK x ?_)
        rw [hs]
        simp only [List.mem_append, List.mem_cons] at hold ⊢
        tauto
      · exact hk.births hJ ha x hbirth
    | @rejoin path a children results hwait hr =>
      obtain ⟨q, before, after, hold, hnew⟩ :=
        placed_rejoin (p := p) inside origin hwait hr
      refine ⟨by rw [replace_shared]; exact hJ, fun x hx => ?_⟩
      rw [replace_shared]
      rcases (hnew x).mp hx with hstays | rfl
      · exact hK x ((hold x).mpr (.inl hstays))
      · refine hk.rejoin hJ (hK _ ((hold _).mpr (.inr (.inl rfl)))) fun k r hkr => ?_
        exact hK (inside q a k, .ended r) ((hold _).mpr (.inr (.inr ⟨k, r, hkr, rfl⟩)))

/-- What each step keeps, a run keeps. -/
theorem KeptAt.reaches (hk : KeptAt p outside inside origin J K) {c d : Pool σ α ρ}
    (hc : HoldsAt inside origin J K c) (h : Reaches p outside c d) :
    HoldsAt inside origin J K d := by
  induction h with
  | refl => exact hc
  | tail _ hstep ih => exact hk.step ih hstep

end Facts

/-! ### Debts -/

section Debts

variable {δ : Type*} {J : σ → Prop} {K : σ → ι → Occupant α ρ → Prop} {due settled : σ → δ → Prop}
  {owes : ι → Occupant α ρ → δ → Prop}

/-- Something is settled, or owed at a place. -/
def CoveredAt (inside : ι → α → ℕ → ι) (origin : ι) (settled : σ → δ → Prop)
    (owes : ι → Occupant α ρ → δ → Prop) (c : Pool σ α ρ) (i : δ) : Prop :=
  settled c.shared i ∨ ∃ x ∈ c.placed inside origin, owes x.1 x.2 i

/-- What each step keeps about debts that may lie with results, too. -/
structure HonouredAt (p : Program σ α ρ) (outside : σ → σ → Prop) (inside : ι → α → ℕ → ι)
    (origin : ι) (J : σ → Prop) (K : σ → ι → Occupant α ρ → Prop) (due settled : σ → δ → Prop)
    (owes : ι → Occupant α ρ → δ → Prop) : Prop where
  keeps : ∀ {s q a i}, J s → K s q (.live a) → settled s i → settled (p.step s a).1 i
  handed : ∀ {s q a i}, J s → K s q (.live a) → owes q (.live a) i →
    settled (p.step s a).1 i ∨ ∃ x ∈ (p.step s a).2.placed p inside origin q, owes x.1 x.2 i
  fresh : ∀ {s q a i}, J s → K s q (.live a) → due (p.step s a).1 i →
    due s i ∨ settled (p.step s a).1 i ∨
      ∃ x ∈ (p.step s a).2.placed p inside origin q, owes x.1 x.2 i
  rejoin : ∀ {s q a results i}, J s → K s q (.waiting a) →
    (∀ (k : ℕ) r, results[k]? = some r → K s (inside q a k) (.ended r)) →
    (owes q (.waiting a) i ∨
      ∃ (k : ℕ) (r : ρ), results[k]? = some r ∧ owes (inside q a k) (.ended r) i) →
    settled s i ∨ owes q (.live (p.rejoin a results)) i
  outside : ∀ {s s' i}, outside s s' → (settled s i → settled s' i) ∧ (due s' i → due s i)

theorem HonouredAt.covered_step (hh : HonouredAt p outside inside origin J K due settled owes)
    {c d : Pool σ α ρ} (hc : HoldsAt inside origin J K c) (hstep : Step p outside c d) {i : δ}
    (h : CoveredAt inside origin settled owes c i) :
    CoveredAt inside origin settled owes d i := by
  obtain ⟨hJ, hK⟩ := hc
  unfold CoveredAt
  cases hstep with
  | outside hout =>
    rcases h with h | ⟨x, hx, howes⟩
    · exact .inl ((hh.outside hout).1 h)
    · exact .inr ⟨x, hx, howes⟩
  | move hmove =>
    cases hmove with
    | @advance path a hlive =>
      obtain ⟨q, before, after, hs, hnew⟩ :=
        placed_advance (p := p) inside origin hlive
      have ha : K c.shared q (.live a) := hK (q, .live a) (by simp [hs])
      rw [advance_shared]
      rcases h with h | ⟨x, hx, howes⟩
      · exact .inl (hh.keeps hJ ha h)
      rw [hs, List.mem_append, List.mem_cons] at hx
      by_cases hstays : x ∈ before ++ after
      · exact .inr ⟨x, (hnew x).mpr (.inl hstays), howes⟩
      · -- the task that takes the step is the one that owes
        obtain rfl : x = (q, .live a) := by
          rw [List.mem_append] at hstays
          tauto
        rcases hh.handed hJ ha howes with hsettled | ⟨y, hy, howes⟩
        · exact .inl hsettled
        · exact .inr ⟨y, (hnew y).mpr (.inr hy), howes⟩
    | @rejoin path a children results hwait hr =>
      obtain ⟨q, before, after, hold, hnew⟩ :=
        placed_rejoin (p := p) inside origin hwait hr
      have ha : K c.shared q (.waiting a) := hK (q, .waiting a) ((hold _).mpr (.inr (.inl rfl)))
      have hresults : ∀ (k : ℕ) r, results[k]? = some r → K c.shared (inside q a k) (.ended r) :=
        fun k r hkr => hK (inside q a k, .ended r) ((hold _).mpr (.inr (.inr ⟨k, r, hkr, rfl⟩)))
      rw [replace_shared]
      rcases h with h | ⟨x, hx, howes⟩
      · exact .inl h
      rcases (hold x).mp hx with hstays | hreturns
      · exact .inr ⟨x, (hnew x).mpr (.inl hstays), howes⟩
      · -- the task that returns takes over what it and its children owe
        have hreturned : settled c.shared i ∨ owes q (.live (p.rejoin a results)) i := by
          refine hh.rejoin hJ ha hresults ?_
          rcases hreturns with rfl | ⟨k, r, hkr, rfl⟩
          · exact .inl howes
          · exact .inr ⟨k, r, hkr, howes⟩
        rcases hreturned with hsettled | howes
        · exact .inl hsettled
        · exact .inr ⟨_, (hnew _).mpr (.inr rfl), howes⟩

theorem HonouredAt.due_step (hh : HonouredAt p outside inside origin J K due settled owes)
    {c d : Pool σ α ρ} (hc : HoldsAt inside origin J K c) (hstep : Step p outside c d) {i : δ}
    (hdue : due d.shared i) : due c.shared i ∨ CoveredAt inside origin settled owes d i := by
  obtain ⟨hJ, hK⟩ := hc
  cases hstep with
  | outside hout => exact .inl ((hh.outside hout).2 hdue)
  | move hmove =>
    cases hmove with
    | @advance path a hlive =>
      obtain ⟨q, before, after, hs, hnew⟩ :=
        placed_advance (p := p) inside origin hlive
      unfold CoveredAt
      rw [advance_shared] at hdue ⊢
      rcases hh.fresh hJ (hK (q, .live a) (by simp [hs])) hdue with hold | hsettled | ⟨x, hx, howes⟩
      · exact .inl hold
      · exact .inr (.inl hsettled)
      · exact .inr (.inr ⟨x, (hnew x).mpr (.inr hx), howes⟩)
    | rejoin hwait hr =>
      rw [replace_shared] at hdue
      exact .inl hdue

/-- A run keeps covered whatever is due. -/
theorem HonouredAt.covered_reaches (hh : HonouredAt p outside inside origin J K due settled owes)
    (hk : KeptAt p outside inside origin J K) {c d : Pool σ α ρ}
    (hc : HoldsAt inside origin J K c) (h : Reaches p outside c d)
    (hi : ∀ i, due c.shared i → CoveredAt inside origin settled owes c i) :
    ∀ i, due d.shared i → CoveredAt inside origin settled owes d i := by
  induction h with
  | refl => exact hi
  | tail hreach hstep ih =>
    intro i hdue
    have hmid := hk.reaches hc hreach
    rcases hh.due_step hmid hstep hdue with hold | hcovered
    · exact hh.covered_step hmid hstep (ih i hold)
    · exact hcovered

end Debts

end Pool

end Automation.Schedule
