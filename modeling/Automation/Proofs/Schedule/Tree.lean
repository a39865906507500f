/-
Automation/Proofs/Schedule/Tree.lean

Tasks in a tree, by the paths that lead to them.

Most of what is true of all tasks at work does not depend on where they are, so
a tree is read as the list of the states in it (`Task.states`), from the outside
in.  The one fact about places that such readings need is that putting a task in
the place of another exchanges a segment of that list and nothing else
(`Task.exists_split`, `Pool.exists_split`).

Who is ready does depend on places.  For that there are the tasks that are found
after an exchange (`Task.at?_replace`) and the task that can always be found: in
a tree that has not ended some task is live, or waits for children that all have
ended (`Task.exists_ready`).
-/
import Mathlib.Data.List.Basic
import Automation.Schedule.Pool

namespace Automation.Schedule

variable {σ : Type*} {α : Type*} {ρ : Type*}

namespace Task

/-! ### The states in a tree -/

mutual

/-- The states of a task and of the tasks that it waits for. -/
def states : Task α ρ → List α
  | .live a => [a]
  | .waiting a children => a :: statesAll children
  | .ended _ => []

/-- The states of several tasks. -/
def statesAll : List (Task α ρ) → List α
  | [] => []
  | t :: ts => t.states ++ statesAll ts

end

@[simp] theorem states_live (a : α) : (Task.live a : Task α ρ).states = [a] := rfl

@[simp] theorem states_waiting (a : α) (children : List (Task α ρ)) :
    (Task.waiting a children).states = a :: statesAll children := rfl

@[simp] theorem states_ended (r : ρ) : (Task.ended r : Task α ρ).states = [] := rfl

@[simp] theorem statesAll_nil : statesAll ([] : List (Task α ρ)) = [] := rfl

@[simp] theorem statesAll_cons (t : Task α ρ) (ts : List (Task α ρ)) :
    statesAll (t :: ts) = t.states ++ statesAll ts := rfl

@[simp] theorem statesAll_append (ts us : List (Task α ρ)) :
    statesAll (ts ++ us) = statesAll ts ++ statesAll us := by
  induction ts with
  | nil => rfl
  | cons t ts ih => simp [ih]

@[simp] theorem statesAll_map_live (as : List α) :
    statesAll (as.map fun a => (Task.live a : Task α ρ)) = as := by
  induction as with
  | nil => rfl
  | cons a as ih => simp [ih]

theorem mem_statesAll {ts : List (Task α ρ)} {a : α} :
    a ∈ statesAll ts ↔ ∃ t ∈ ts, a ∈ t.states := by
  induction ts with
  | nil => simp
  | cons t ts ih => simp [ih]

/-- The states of a task that waits for live children, one for each of several things. -/
theorem mem_states_forked {γ : Type*} {f : γ → α} {xs : List γ} {a b : α} :
    b ∈ (Task.waiting a ((xs.map f).map .live) : Task α ρ).states ↔ b = a ∨ ∃ x ∈ xs, f x = b := by
  rw [states_waiting, statesAll_map_live, List.mem_cons, List.mem_map]

/-- Tasks that all have ended have no states left. -/
theorem statesAll_eq_nil {ts : List (Task α ρ)} {rs : List ρ} (h : results? ts = some rs) :
    statesAll ts = [] := by
  induction ts generalizing rs with
  | nil => rfl
  | cons t ts ih =>
    cases t with
    | live a => simp [results?, result?] at h
    | waiting a children => simp [results?, result?] at h
    | ended r =>
      rcases hs : results? ts with - | rs'
      · simp [results?, result?, hs] at h
      · simp [ih hs]

/-- There is one result for each task. -/
theorem length_of_results? {ts : List (Task α ρ)} {rs : List ρ} (h : results? ts = some rs) :
    rs.length = ts.length := by
  induction ts generalizing rs with
  | nil => simp_all [results?]
  | cons t ts ih =>
    rcases ht : t.result? with - | r
    · simp [results?, ht] at h
    · rcases hs : results? ts with - | rs'
      · simp [results?, ht, hs] at h
      · have hrs : r :: rs' = rs := by simpa [results?, ht, hs] using h
        rw [← hrs, List.length_cons, ih hs, List.length_cons]

/-- Following one path after another. -/
theorem at?_append {t u : Task α ρ} {path : List Nat} (h : t.at? path = some u) (rest : List Nat) :
    t.at? (path ++ rest) = u.at? rest := by
  induction path generalizing t with
  | nil =>
    obtain rfl : t = u := by simpa [at?] using h
    rfl
  | cons i path ih =>
    cases t with
    | live a => simp [at?] at h
    | ended r => simp [at?] at h
    | waiting a children =>
      obtain ⟨child, hi, hu⟩ := Option.bind_eq_some_iff.mp h
      simpa [at?, hi] using ih hu

/-! ### Exchanging a task -/

/-- The states of a list of tasks, around those of one of them. -/
theorem statesAll_of_getElem? {ts : List (Task α ρ)} {i : Nat} {t : Task α ρ}
    (h : ts[i]? = some t) (f : Task α ρ → Task α ρ) :
    statesAll ts = statesAll (ts.take i) ++ t.states ++ statesAll (ts.drop (i + 1)) ∧
      statesAll (ts.modify i f)
        = statesAll (ts.take i) ++ (f t).states ++ statesAll (ts.drop (i + 1)) := by
  obtain ⟨hi, rfl⟩ := List.getElem?_eq_some_iff.mp h
  constructor
  · conv_lhs => rw [← List.take_append_drop i ts, List.drop_eq_getElem_cons hi]
    simp only [statesAll_append, statesAll_cons, List.append_assoc]
  · rw [List.modify_eq_take_cons_drop hi]
    simp

/-- Putting a task in the place of another exchanges a segment of the states. -/
theorem exists_split {t u : Task α ρ} {path : List Nat} (h : t.at? path = some u) :
    ∃ before after, t.states = before ++ u.states ++ after ∧
      ∀ new, (t.replace path new).states = before ++ new.states ++ after := by
  induction path generalizing t with
  | nil =>
    obtain rfl : t = u := by simpa [at?] using h
    exact ⟨[], [], by simp, fun new => by simp [replace]⟩
  | cons i path ih =>
    cases t with
    | live a => simp [at?] at h
    | ended r => simp [at?] at h
    | waiting a children =>
      obtain ⟨child, hi, hu⟩ := Option.bind_eq_some_iff.mp h
      obtain ⟨before, after, hs, hnew⟩ := ih hu
      refine ⟨a :: (statesAll (children.take i) ++ before),
        after ++ statesAll (children.drop (i + 1)), ?_, fun new => ?_⟩
      · rw [states_waiting, (statesAll_of_getElem? hi id).1, hs]
        simp
      · rw [replace, states_waiting, (statesAll_of_getElem? hi _).2, hnew]
        simp

theorem states_subset {t u : Task α ρ} {path : List Nat} (h : t.at? path = some u) :
    u.states ⊆ t.states := by
  obtain ⟨before, after, hs, -⟩ := exists_split h
  rw [hs]
  intro a ha
  simp [ha]

/-- What is in a list of tasks after an exchange in one of them is part of the new task or was
there before. -/
theorem mem_statesAll_modify {ts : List (Task α ρ)} {i : Nat} {child u new : Task α ρ}
    {path : List Nat} (hi : ts[i]? = some child) (hat : child.at? path = some u) {b : α}
    (hb : b ∈ statesAll (ts.modify i fun t => t.replace path new)) :
    b ∈ new.states ∨ b ∈ statesAll ts := by
  obtain ⟨hold, hmodify⟩ := statesAll_of_getElem? hi fun t => t.replace path new
  obtain ⟨before, after, hs, hnew⟩ := exists_split hat
  rw [hmodify, hnew] at hb
  rw [hold, hs]
  simp only [List.mem_append] at hb ⊢
  tauto

/-- What is found at `q` after the task at `path` was exchanged for `new`, where
`before` is what was found there before: a part of the new task, a task that waits
for the exchanged one, or a task that was there already, and elsewhere. -/
def FoundAfter (path : List Nat) (new : Task α ρ) (q : List Nat) (before : Option (Task α ρ))
    (v : Task α ρ) : Prop :=
  (∃ r, q = path ++ r ∧ new.at? r = some v) ∨
    (∃ i r a children, path = q ++ i :: r ∧ before = some (.waiting a children) ∧
      v = .waiting a (children.modify i fun child => child.replace r new)) ∨
    (¬ path <+: q ∧ before = some v)

/-- Finding after an exchange, one step of the path further out. -/
theorem foundAfter_cons {ts : List (Task α ρ)} {child new v : Task α ρ} {i k : Nat}
    {path q : List Nat} (hi : ts[i]? = some child)
    (hchild : ∀ q v, (child.replace path new).at? q = some v →
      FoundAfter path new q (child.at? q) v)
    (hv : ((ts.modify i fun child => child.replace path new)[k]?).bind (·.at? q) = some v) :
    FoundAfter (i :: path) new (k :: q) ((ts[k]?).bind (·.at? q)) v := by
  obtain ⟨found, hk, hv⟩ := Option.bind_eq_some_iff.mp hv
  rw [List.getElem?_modify] at hk
  by_cases hik : i = k
  · subst hik
    obtain rfl : child.replace path new = found := by simpa [hi] using hk
    rw [hi]
    rcases hchild q v hv with ⟨r, rfl, hr⟩ | ⟨m, r, b, below, rfl, hb, rfl⟩ | ⟨hpre, hold⟩
    · exact .inl ⟨r, rfl, hr⟩
    · exact .inr (.inl ⟨m, r, b, below, rfl, hb, rfl⟩)
    · exact .inr (.inr ⟨fun hp => hpre (List.cons_prefix_cons.mp hp).2, hold⟩)
  · have hk' : ts[k]? = some found := by simpa [hik] using hk
    exact .inr (.inr ⟨fun hp => hik (List.cons_prefix_cons.mp hp).1, by rw [hk']; exact hv⟩)

theorem at?_replace {t u new v : Task α ρ} {path q : List Nat} (h : t.at? path = some u)
    (hv : (t.replace path new).at? q = some v) : FoundAfter path new q (t.at? q) v := by
  -- along the path as long as `q` follows it
  induction path generalizing t q v with
  | nil => exact .inl ⟨q, rfl, hv⟩
  | cons i path ih =>
    cases t with
    | live a => simp [at?] at h
    | ended r => simp [at?] at h
    | waiting a children =>
      obtain ⟨child, hi, hu⟩ := Option.bind_eq_some_iff.mp h
      cases q with
      | nil => exact .inr (.inl ⟨i, path, a, children, rfl, rfl, (Option.some.inj hv).symm⟩)
      | cons k q => exact foundAfter_cons hi (fun q v => ih hu) hv

/-! ### Somebody is ready -/

/-- At a place inside, a task is live or waits for children that all have ended. -/
def ReadyAt (t : Task α ρ) (path : List Nat) : Prop :=
  (∃ a, t.at? path = some (.live a)) ∨
    ∃ a children rs, t.at? path = some (.waiting a children) ∧ results? children = some rs

mutual

/-- A task that has not ended has a place where something can be done. -/
theorem exists_ready : (t : Task α ρ) → (∃ r, t = .ended r) ∨ ∃ path, t.ReadyAt path
  | .live a => .inr ⟨[], .inl ⟨a, rfl⟩⟩
  | .ended r => .inl ⟨r, rfl⟩
  | .waiting a children => by
    rcases exists_ready_all children with ⟨rs, hrs⟩ | ⟨i, child, hi, path, hready⟩
    · exact .inr ⟨[], .inr ⟨a, children, rs, rfl, hrs⟩⟩
    · have hat : (Task.waiting a children).at? (i :: path) = child.at? path := by
        simp [at?, hi]
      exact .inr ⟨i :: path, by unfold ReadyAt; rw [hat]; exact hready⟩

/-- Of several tasks all have ended, or one has such a place. -/
theorem exists_ready_all : (ts : List (Task α ρ)) →
    (∃ rs, results? ts = some rs) ∨
      ∃ (i : Nat) (t : Task α ρ), ts[i]? = some t ∧ ∃ path, t.ReadyAt path
  | [] => .inl ⟨[], rfl⟩
  | t :: ts => by
    rcases exists_ready t with ⟨r, rfl⟩ | ⟨path, hready⟩
    · rcases exists_ready_all ts with ⟨rs, hrs⟩ | ⟨i, u, hi, hu⟩
      · exact .inl ⟨r :: rs, by simp [results?, result?, hrs]⟩
      · exact .inr ⟨i + 1, u, hi, hu⟩
    · exact .inr ⟨0, t, rfl, path, hready⟩

end

end Task

namespace Pool

/-! ### Pools -/

/-- The states of all tasks of a pool. -/
def states (c : Pool σ α ρ) : List α := Task.statesAll c.tasks

/-- The task at a path that is not empty. -/
theorem at?_eq_some {c : Pool σ α ρ} {path : List Nat} {t : Task α ρ} (h : c.at? path = some t) :
    ∃ i rest root, path = i :: rest ∧ c.tasks[i]? = some root ∧ root.at? rest = some t := by
  cases path with
  | nil => simp [at?] at h
  | cons i rest =>
    obtain ⟨root, hi, hroot⟩ := Option.bind_eq_some_iff.mp h
    exact ⟨i, rest, root, rfl, hi, hroot⟩

theorem at?_append {c : Pool σ α ρ} {path : List Nat} {t : Task α ρ} (h : c.at? path = some t)
    (rest : List Nat) : c.at? (path ++ rest) = t.at? rest := by
  obtain ⟨i, tail, root, rfl, hi, hroot⟩ := at?_eq_some h
  simpa [at?, hi] using Task.at?_append hroot rest

theorem exists_split {c : Pool σ α ρ} {t : Task α ρ} {path : List Nat}
    (h : c.at? path = some t) :
    ∃ before after, c.states = before ++ t.states ++ after ∧
      ∀ new, (c.replace path new).states = before ++ new.states ++ after := by
  obtain ⟨i, rest, root, rfl, hi, hroot⟩ := at?_eq_some h
  obtain ⟨before, after, hs, hnew⟩ := Task.exists_split hroot
  refine ⟨Task.statesAll (c.tasks.take i) ++ before,
    after ++ Task.statesAll (c.tasks.drop (i + 1)), ?_, fun new => ?_⟩
  · rw [states, (Task.statesAll_of_getElem? hi id).1, hs]
    simp
  · rw [states, replace, (Task.statesAll_of_getElem? hi _).2, hnew]
    simp

theorem at?_replace {c : Pool σ α ρ} {u new v : Task α ρ} {path q : List Nat}
    (h : c.at? path = some u) (hv : (c.replace path new).at? q = some v) :
    Task.FoundAfter path new q (c.at? q) v := by
  obtain ⟨i, rest, root, rfl, hi, hroot⟩ := at?_eq_some h
  cases q with
  | nil => simp [at?] at hv
  | cons k q => exact Task.foundAfter_cons hi (fun q v => Task.at?_replace hroot) hv

end Pool

end Automation.Schedule
