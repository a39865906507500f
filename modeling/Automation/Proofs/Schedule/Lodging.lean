/-
Automation/Proofs/Schedule/Lodging.lean

A machine inside another one.

A machine with one root is lodged in another machine if one root of the other has the same tasks
as it, and if what is ready and who sleeps in that root are what is ready and who sleeps in the
small machine, in the same order (`Lodged`).  The clocks may differ: the other machine has run
for a while when the root is put up.

Whatever the host does, the guest stays lodged: when it is the turn of another root, nothing changes
for the guest, and when it is the turn of the root, the guest takes the same step
(`Lodged.next`).  So the other roots never change the order in which the tasks of one root work.
-/
import Automation.Proofs.Schedule.Lockstep
import Automation.Proofs.Schedule.Regular
import Automation.Proofs.Schedule.Trail

namespace Automation.Schedule

variable {σ : Type*} {τ : Type*} {α : Type*} {β : Type*} {γ : Type*} {ρ : Type*}
variable {p : Program σ α ρ} {q : Program τ β ρ} {f : α → γ} {g : β → γ} {k : ℕ}

/-! ### The view from one root -/

/-- A path into a root, as a path into a machine with that root alone. -/
def within (k : ℕ) : List ℕ → Option (List ℕ)
  | i :: path => if i = k then some (0 :: path) else none
  | [] => none

@[simp] theorem within_self (path : List ℕ) : within k (k :: path) = some (0 :: path) := if_pos rfl

theorem within_of_ne {i : ℕ} (hi : i ≠ k) (path : List ℕ) : within k (i :: path) = none :=
  if_neg hi

/-- A path into a root that was there before leads past a new one. -/
theorem within_of_leadsInto {path : List ℕ} (h : Machine.LeadsInto k path) :
    within k path = none := by
  obtain ⟨i, rest, rfl, hi⟩ := h
  exact within_of_ne (Nat.ne_of_lt hi) rest

theorem within_eq_some {path inner : List ℕ} (h : within k path = some inner) :
    ∃ rest, path = k :: rest ∧ inner = 0 :: rest := by
  cases path with
  | nil => cases h
  | cons i rest =>
    by_cases hi : i = k
    · subst hi
      exact ⟨rest, rfl, by simpa using h.symm⟩
    · rw [within_of_ne hi] at h
      cases h

namespace Notice

/-- A notice about a root, as a notice in a machine with that root alone. -/
def within (k : ℕ) : Notice → Option Notice
  | .resume path => (Schedule.within k path).map .resume
  | .childEnded parent => (Schedule.within k parent).map .childEnded

theorem within_of_leadsInto {n : Notice} (h : Machine.LeadsInto k n.path) : n.within k = none := by
  cases n <;> exact Option.map_eq_none_iff.mpr (Schedule.within_of_leadsInto h)

theorem childEnded_mem_within {path : List ℕ} {ready : List Notice} :
    .childEnded (0 :: path) ∈ ready.filterMap (within k) ↔ .childEnded (k :: path) ∈ ready := by
  constructor
  · intro h
    obtain ⟨n, hn, hwithin⟩ := List.mem_filterMap.mp h
    cases n with
    | resume r =>
      obtain ⟨inner, -, heq⟩ := Option.map_eq_some_iff.mp hwithin
      cases heq
    | childEnded r =>
      obtain ⟨inner, hinner, heq⟩ := Option.map_eq_some_iff.mp hwithin
      obtain ⟨rest, rfl, rfl⟩ := within_eq_some hinner
      obtain rfl : rest = path := by simpa using heq
      exact hn
  · exact fun h => List.mem_filterMap.mpr ⟨_, h, by simp [within]⟩

end Notice

namespace Sleeper

/-- A sleeper in a root, as a sleeper in a machine with that root alone. -/
def within (k : ℕ) (s : Sleeper) : Option Sleeper :=
  (Schedule.within k s.path).map fun path => { s with path }

/-- A sleeper by a clock that is ahead. -/
def later (T : ℕ) (s : Sleeper) : Sleeper := { s with wakesAt := s.wakesAt + T }

theorem within_self (wakesAt : ℕ) (path : List ℕ) :
    within k ⟨wakesAt, k :: path⟩ = some ⟨wakesAt, 0 :: path⟩ := by
  simp [within]

theorem within_of_ne {i : ℕ} (hi : i ≠ k) (wakesAt : ℕ) (path : List ℕ) :
    within k ⟨wakesAt, i :: path⟩ = none := by
  simp [within, Schedule.within_of_ne hi]

theorem within_of_leadsInto {s : Sleeper} (h : Machine.LeadsInto k s.path) : s.within k = none :=
  Option.map_eq_none_iff.mpr (Schedule.within_of_leadsInto h)

theorem wakesAt_of_within {s t : Sleeper} (h : s.within k = some t) : t.wakesAt = s.wakesAt := by
  obtain ⟨path, -, rfl⟩ := Option.map_eq_some_iff.mp h
  rfl

end Sleeper

namespace Machine

/-! ### Sleepers of one root -/

/-- Who falls asleep in another root is not seen. -/
theorem filterMap_insertSleeper_of_none {s : Sleeper} (hs : s.within k = none)
    (sleepers : List Sleeper) :
    (insertSleeper s sleepers).filterMap (Sleeper.within k)
      = sleepers.filterMap (Sleeper.within k) := by
  induction sleepers with
  | nil => simp [insertSleeper, hs]
  | cons t rest ih =>
    unfold insertSleeper
    split
    · rw [List.filterMap_cons_none hs]
    · rw [List.filterMap_cons, List.filterMap_cons, ih]

/-- Who falls asleep in a root takes the place there that it has among the sleepers of the root. -/
theorem filterMap_insertSleeper {s inner : Sleeper} (hs : s.within k = some inner)
    {sleepers : List Sleeper} (h : InOrder sleepers) :
    (insertSleeper s sleepers).filterMap (Sleeper.within k)
      = insertSleeper inner (sleepers.filterMap (Sleeper.within k)) := by
  have htime := Sleeper.wakesAt_of_within hs
  induction sleepers with
  | nil => simp [insertSleeper, hs]
  | cons t rest ih =>
    obtain ⟨ht, hrest⟩ := List.pairwise_cons.mp h
    by_cases hlt : s.wakesAt < t.wakesAt
    · -- all that is behind it wakes later, in the root as well
      have hfront : ∀ ts : List Sleeper, (∀ u ∈ ts, s.wakesAt < u.wakesAt) →
          insertSleeper inner ts = inner :: ts := by
        intro ts hts
        cases ts with
        | nil => rfl
        | cons u us => rw [insertSleeper, if_pos (htime ▸ hts u List.mem_cons_self)]
      rw [insertSleeper, if_pos hlt, List.filterMap_cons_some hs, hfront]
      intro u hu
      obtain ⟨v, hv, hwithin⟩ := List.mem_filterMap.mp hu
      rw [Sleeper.wakesAt_of_within hwithin]
      rcases List.mem_cons.mp hv with rfl | hv
      · exact hlt
      · exact Nat.lt_of_lt_of_le hlt (ht v hv)
    · rw [insertSleeper, if_neg hlt, List.filterMap_cons, List.filterMap_cons, ih hrest]
      rcases hwithin : t.within k with - | u
      · rfl
      · have htime' := Sleeper.wakesAt_of_within hwithin
        show u :: _ = insertSleeper inner (u :: _)
        rw [insertSleeper, if_neg (by rw [htime, htime']; exact hlt)]

theorem map_insertSleeper (T : ℕ) (s : Sleeper) (sleepers : List Sleeper) :
    (insertSleeper s sleepers).map (Sleeper.later T)
      = insertSleeper (s.later T) (sleepers.map (Sleeper.later T)) := by
  induction sleepers with
  | nil => rfl
  | cons t rest ih =>
    have hiff : (s.later T).wakesAt < (t.later T).wakesAt ↔ s.wakesAt < t.wakesAt := by
      simp [Sleeper.later]
    rw [List.map_cons, insertSleeper, insertSleeper]
    by_cases hlt : s.wakesAt < t.wakesAt
    · rw [if_pos hlt, if_pos (hiff.mpr hlt)]
      rfl
    · rw [if_neg hlt, if_neg (hiff.not.mpr hlt), List.map_cons, ih]

/-- A task that goes back to work has not ended, so whoever has ended now had ended before. -/
theorem tasks_of_childEnded {m : Machine σ α ρ} {parent : List ℕ} {r : ρ}
    (h : (m.childEnded p parent).tasks = [.ended r]) : m.tasks = [.ended r] := by
  unfold childEnded at h
  split at h
  · next a children hat =>
    split at h
    · next results hresults =>
      split at h
      · exact h
      · obtain ⟨i, rest, root, rfl, hi, hroot⟩ := Pool.at?_eq_some hat
        have hnew : (m.tasks.modify i fun t => t.replace rest (.live (p.rejoin a results)))[i]?
            = some (root.replace rest (.live (p.rejoin a results))) := by simp [hi]
        have hended : m.tasks.modify i (fun t => t.replace rest (.live (p.rejoin a results)))
            = [.ended r] := h
        rw [hended] at hnew
        have hsome := List.mem_singleton.mp (List.mem_of_getElem? hnew)
        obtain ⟨-, hlive⟩ := Task.ended_of_replace hroot hsome
        cases hlive
    · exact h
  · exact h

end Machine

/-! ### The same task in two machines -/

namespace Task

variable {t : Task α ρ} {u : Task β ρ}

/-- Tasks that look the same are at work in the same way. -/
theorem exists_live_of_map_eq {a : α} (h : t.map f = u.map g) (ht : t = .live a) :
    ∃ b, u = .live b ∧ f a = g b := by
  rw [ht, map_live] at h
  cases u with
  | live b => exact ⟨b, rfl, by simpa using h⟩
  | waiting b below => simp at h
  | ended r => simp at h

/-- Tasks that look the same wait for the same results. -/
theorem exists_waiting_of_map_eq {a : α} {children : List (Task α ρ)} (h : t.map f = u.map g)
    (ht : t = .waiting a children) :
    ∃ b below, u = .waiting b below ∧ f a = g b ∧ results? below = results? children := by
  rw [ht, map_waiting] at h
  cases u with
  | live b => simp at h
  | waiting b below =>
    rw [map_waiting] at h
    obtain ⟨hstate, hchildren⟩ := waiting.inj h
    refine ⟨b, below, rfl, hstate, ?_⟩
    rw [← results?_map g below, ← hchildren, results?_map]
  | ended r => simp at h

theorem replace_map_congr {new : Task α ρ} {new' : Task β ρ} (h : t.map f = u.map g)
    (hnew : new.map f = new'.map g) (path : List ℕ) :
    (t.replace path new).map f = (u.replace path new').map g := by
  rw [← replace_map, ← replace_map, h, hnew]

end Task

/-- Directives that look the same, and start no root. -/
inductive Parallel (f : α → γ) (g : β → γ) : Directive α ρ → Directive β ρ → Prop
  | proceed {a b} : f a = g b → Parallel f g (.proceed a) (.proceed b)
  | pause {a b} : f a = g b → Parallel f g (.pause a) (.pause b)
  | sleep {microseconds a b} : f a = g b →
    Parallel f g (.sleep microseconds a) (.sleep microseconds b)
  | fork {as bs a b} : as.map f = bs.map g → f a = g b → Parallel f g (.fork as a) (.fork bs b)
  | finish {report} : Parallel f g (.finish report) (.finish report)

namespace Parallel

variable {d : Directive α ρ} {e : Directive β ρ}

theorem roots (h : Parallel f g d e) : d.roots = [] ∧ e.roots = [] := by
  cases h <;> exact ⟨rfl, rfl⟩

/-- What comes of directives that look the same looks the same. -/
theorem task (h : Parallel f g d e)
    (hback : ∀ a b results, f a = g b → f (p.rejoin a results) = g (q.rejoin b results)) :
    (d.task p).map f = (e.task q).map g := by
  cases h with
  | proceed hab | pause hab | sleep hab => simp [Directive.task, hab]
  | @fork as bs a b hchildren hab =>
    cases as with
    | nil =>
      obtain rfl : bs = [] := by simpa using hchildren.symm
      simp [Directive.task, hback a b [] hab]
    | cons child children =>
      cases bs with
      | nil => simp at hchildren
      | cons child' children' =>
        have hlive : ∀ (cs : List α) (ds : List β), cs.map f = ds.map g →
            (cs.map Task.live).map (fun t : Task α ρ => t.map f)
              = (ds.map Task.live).map fun t : Task β ρ => t.map g := by
          intro cs ds h
          simpa [Function.comp_def] using congrArg (List.map Task.live) h
        simp only [Directive.task, Task.map_waiting, hab, hlive _ _ hchildren]
  | finish => simp [Directive.task]

end Parallel

/-! ### Lodging -/

/-- A machine with one root is lodged in root `k` of another machine, whose clock is ahead by
`T` whenever something is ready in the root. -/
structure Lodged (f : α → γ) (g : β → γ) (k T : ℕ) (guest : Machine τ β ρ)
    (host : Machine σ α ρ) : Prop where
  root : ∃ t u, host.tasks[k]? = some t ∧ guest.tasks = [u] ∧ t.map f = u.map g
  ready : host.ready.filterMap (Notice.within k) = guest.ready
  asleep : host.sleepers.filterMap (Sleeper.within k) = guest.sleepers.map (Sleeper.later T)
  clock : guest.ready ≠ [] → host.now = guest.now + T

namespace Lodged

open Machine (InOrder leadsInto_of_at? length_tasks_replace)

variable {T i j : ℕ} {guest guest' : Machine τ β ρ} {host host' : Machine σ α ρ} {path : List ℕ}
  {a : α} {b : β} {d : Directive α ρ} {e : Directive β ρ} {n inner : Notice} {rest : List Notice}

/-- The same task is in the same place. -/
theorem at? (h : Lodged f g k T guest host) (path : List ℕ) :
    (host.at? (k :: path)).map (fun t => t.map f)
      = (guest.at? (0 :: path)).map fun t => t.map g := by
  obtain ⟨t, u, ht, hu, hmap⟩ := h.root
  have hhost : host.at? (k :: path) = t.at? path := by simp [Pool.at?, ht]
  have hguest : guest.at? (0 :: path) = u.at? path := by simp [Pool.at?, hu]
  rw [hhost, hguest, ← Task.at?_map, ← Task.at?_map, hmap]

theorem exists_live (h : Lodged f g k T guest host) (ha : host.at? (k :: path) = some (.live a)) :
    ∃ b, guest.at? (0 :: path) = some (.live b) ∧ f a = g b := by
  have hat := h.at? path
  rw [ha, Option.map_some] at hat
  obtain ⟨u, hu, hmap⟩ := Option.map_eq_some_iff.mp hat.symm
  obtain ⟨b, rfl, hab⟩ := Task.exists_live_of_map_eq hmap.symm rfl
  exact ⟨b, hu, hab⟩

theorem not_live (h : Lodged f g k T guest host) (ha : ¬ ∃ a, host.at? (k :: path) = some (.live a)) :
    ¬ ∃ b, guest.at? (0 :: path) = some (.live b) := by
  rintro ⟨b, hb⟩
  have hat := h.at? path
  rw [hb, Option.map_some] at hat
  obtain ⟨t, ht, hmap⟩ := Option.map_eq_some_iff.mp hat
  obtain ⟨a, rfl, -⟩ := Task.exists_live_of_map_eq hmap.symm rfl
  exact ha ⟨a, ht⟩

theorem exists_waiting (h : Lodged f g k T guest host) {children : List (Task α ρ)}
    (ha : host.at? (k :: path) = some (.waiting a children)) :
    ∃ b below, guest.at? (0 :: path) = some (.waiting b below) ∧ f a = g b ∧
      Task.results? below = Task.results? children := by
  have hat := h.at? path
  rw [ha, Option.map_some] at hat
  obtain ⟨u, hu, hmap⟩ := Option.map_eq_some_iff.mp hat.symm
  obtain ⟨b, below, rfl, hab, hresults⟩ := Task.exists_waiting_of_map_eq hmap.symm rfl
  exact ⟨b, below, hu, hab, hresults⟩

theorem not_waiting (h : Lodged f g k T guest host)
    (ha : ¬ ∃ a children, host.at? (k :: path) = some (.waiting a children)) :
    ¬ ∃ b below, guest.at? (0 :: path) = some (.waiting b below) := by
  rintro ⟨b, below, hb⟩
  have hat := h.at? path
  rw [hb, Option.map_some] at hat
  obtain ⟨t, ht, hmap⟩ := Option.map_eq_some_iff.mp hat
  obtain ⟨a, children, rfl, -⟩ := Task.exists_waiting_of_map_eq hmap.symm rfl
  exact ha ⟨a, children, ht⟩

/-! #### The front of the queue -/

theorem pop_other (h : Lodged f g k T guest host) (hready : host.ready = n :: rest)
    (hn : n.within k = none) : Lodged f g k T guest { host with ready := rest } := by
  refine ⟨h.root, ?_, h.asleep, h.clock⟩
  rw [← h.ready, hready, List.filterMap_cons_none hn]

theorem pop (h : Lodged f g k T guest host) (hready : host.ready = n :: rest)
    (hn : n.within k = some inner) : ∃ rest', guest.ready = inner :: rest' ∧
      host.now = guest.now + T ∧
      Lodged f g k T { guest with ready := rest' } { host with ready := rest } := by
  have hguest := h.ready
  rw [hready, List.filterMap_cons_some hn] at hguest
  have hnow : host.now = guest.now + T := h.clock (by simp [← hguest])
  exact ⟨_, hguest.symm, hnow, h.root, rfl, h.asleep, fun _ => hnow⟩

/-! #### A step of a task -/

/-- Nobody in the root is told of what is appended for others. -/
theorem append_other (h : Lodged f g k T guest host) {notices : List Notice}
    (hnone : ∀ n ∈ notices, n.within k = none) : Lodged f g k T guest (host.append notices) := by
  refine ⟨h.root, ?_, h.asleep, h.clock⟩
  show (host.ready ++ notices).filterMap _ = _
  rw [List.filterMap_append, h.ready, List.filterMap_eq_nil_iff.mpr hnone, List.append_nil]

theorem append (h : Lodged f g k T guest host) (hnow : host.now = guest.now + T)
    {notices inside : List Notice} (hinside : notices.filterMap (Notice.within k) = inside) :
    Lodged f g k T (guest.append inside) (host.append notices) := by
  refine ⟨h.root, ?_, h.asleep, fun _ => hnow⟩
  show (host.ready ++ notices).filterMap _ = guest.ready ++ inside
  rw [List.filterMap_append, h.ready, hinside]

theorem arrange_other (h : Lodged f g k T guest host) (hi : i ≠ k) (hj : j ≠ k) (path : List ℕ)
    (d : Directive α ρ) : Lodged f g k T guest (host.arrange (i :: path) j d) := by
  have hresume : ∀ r, (Notice.resume (i :: r)).within k = none := fun r => by
    simp [Notice.within, within_of_ne hi]
  have hpush : ∀ host' : Machine σ α ρ, Lodged f g k T guest host' →
      Lodged f g k T guest (host'.push (.resume (i :: path))) := by
    intro host' h'
    refine ⟨h'.root, ?_, h'.asleep, h'.clock⟩
    exact (List.filterMap_cons_none (hresume path)).trans h'.ready
  cases d with
  | proceed next => exact hpush host h
  | pause next => exact h.append_other (by simpa using hresume path)
  | sleep microseconds next =>
    refine ⟨h.root, h.ready, ?_, h.clock⟩
    exact (Machine.filterMap_insertSleeper_of_none (Sleeper.within_of_ne hi _ _) _).trans h.asleep
  | spawn child next =>
    exact hpush _ (h.append_other (by simp [Notice.within, within_of_ne hj]))
  | fork children waiting =>
    cases children with
    | nil => exact hpush host h
    | cons child children =>
      refine h.append_other fun n hn => ?_
      obtain ⟨r, hr, rfl⟩ := List.mem_map.mp hn
      obtain ⟨x, -, rfl⟩ := List.mem_map.mp hr
      exact hresume _
  | finish report =>
    refine h.append_other fun n hn => ?_
    unfold Machine.parentNotice at hn
    split at hn
    · cases hn
    · next hlong =>
      obtain rfl := List.mem_singleton.mp hn
      cases path with
      | nil => simp at hlong
      | cons x path => simp [Notice.within, within_of_ne hi]

theorem arrange (h : Lodged f g k T guest host) (hnow : host.now = guest.now + T)
    (horder : InOrder host.sleepers) (hd : Parallel f g d e) (path : List ℕ) (i j : ℕ) :
    Lodged f g k T (guest.arrange (0 :: path) i e) (host.arrange (k :: path) j d) := by
  have hresume : ∀ r, (Notice.resume (k :: r)).within k = some (.resume (0 :: r)) := fun r => by
    simp [Notice.within]
  have hpush : Lodged f g k T (guest.push (.resume (0 :: path)))
      (host.push (.resume (k :: path))) := by
    refine ⟨h.root, ?_, h.asleep, fun _ => hnow⟩
    exact (List.filterMap_cons_some (hresume path)).trans (congrArg _ h.ready)
  cases hd with
  | proceed => exact hpush
  | pause => exact h.append hnow (by simp [hresume])
  | @sleep microseconds next next' =>
    refine ⟨h.root, h.ready, ?_, fun _ => hnow⟩
    have hwakes : host.now + microseconds = guest.now + microseconds + T := by omega
    show (Machine.insertSleeper ⟨host.now + microseconds, k :: path⟩ _).filterMap _ = _
    rw [Machine.filterMap_insertSleeper (Sleeper.within_self ..) horder, h.asleep,
      Machine.arrange, Machine.map_insertSleeper, hwakes]
    rfl
  | @fork as bs next next' hchildren =>
    cases as with
    | nil =>
      obtain rfl : bs = [] := by simpa using hchildren.symm
      exact hpush
    | cons child children =>
      cases bs with
      | nil => simp at hchildren
      | cons child' children' =>
        have hlength : (child :: children).length = (child' :: children').length := by
          simpa using congrArg List.length hchildren
        refine h.append hnow ?_
        rw [← hlength, Machine.childPaths, Machine.childPaths, List.map_map, List.map_map,
          List.filterMap_map]
        exact List.filterMap_eq_map_iff_forall_eq_some.mpr fun x _ => hresume (path ++ [x])
  | finish =>
    refine h.append hnow ?_
    cases path with
    | nil => rfl
    | cons x path => simp [Machine.parentNotice, Notice.within]

/-! #### Tasks that change -/

/-- The root is exchanged for one that looks the same, and roots may be added. -/
theorem exchange (h : Lodged f g k T guest host) {new : Task α ρ} {new' : Task β ρ}
    (hnew : new.map f = new'.map g) {roots : List (Task α ρ)} {c : Pool τ β ρ} {e : Pool σ α ρ}
    (hc : c.tasks = (guest.replace (0 :: path) new').tasks)
    (he : e.tasks = (host.replace (k :: path) new).tasks ++ roots) :
    Lodged f g k T { guest with toPool := c } { host with toPool := e } := by
  obtain ⟨t, u, ht, hu, hmap⟩ := h.root
  refine ⟨⟨t.replace path new, u.replace path new', ?_, ?_, Task.replace_map_congr hmap hnew path⟩,
    h.ready, h.asleep, h.clock⟩
  · have hk := (List.getElem?_eq_some_iff.mp ht).1
    show e.tasks[k]? = _
    rw [he, List.getElem?_append_left (by simpa [Pool.replace] using hk)]
    simp [Pool.replace, ht]
  · show c.tasks = _
    rw [hc, Pool.replace, hu]
    rfl

/-- Another root is exchanged, and roots may be added. -/
theorem exchange_other (h : Lodged f g k T guest host) (hi : i ≠ k) {new : Task α ρ}
    {roots : List (Task α ρ)} {e : Pool σ α ρ}
    (he : e.tasks = (host.replace (i :: path) new).tasks ++ roots) :
    Lodged f g k T guest { host with toPool := e } := by
  obtain ⟨t, u, ht, hu, hmap⟩ := h.root
  refine ⟨⟨t, u, ?_, hu, hmap⟩, h.ready, h.asleep, h.clock⟩
  have hk := (List.getElem?_eq_some_iff.mp ht).1
  show e.tasks[k]? = _
  rw [he, List.getElem?_append_left (by simpa [Pool.replace] using hk)]
  simp [Pool.replace, hi, ht]

/-! #### Putting up a guest -/

/-- The root that a machine begins with, and the only one so far, is ready. -/
theorem alone {s : τ} (htasks : host.tasks = [.live a]) (hready : host.ready = [.resume [0]])
    (hasleep : host.sleepers = []) (hnow : host.now = 0) (hab : f a = g b) :
    Lodged f g 0 0 (Machine.start s b) host where
  root := ⟨.live a, .live b, by simp [htasks], rfl, by simp [hab]⟩
  ready := by
    rw [hready]
    rfl
  asleep := by
    rw [hasleep]
    rfl
  clock _ := hnow

/-- A new root is lodged from the step on that puts it up. -/
theorem spawned {s : τ} {child next : α} (hhost : host.Regular)
    (hready : host.ready = .resume path :: rest) (hat : host.at? path = some (.live a))
    (hstep : (p.step host.shared a).2 = .spawn child next) (hchild : f child = g b) :
    Lodged f g host.tasks.length host.now (Machine.start s b)
      ({ host with ready := rest, toPool := host.advance p path a }.arrange path
        host.tasks.length (p.step host.shared a).2) := by
  have hpath : within host.tasks.length path = none := within_of_leadsInto (leadsInto_of_at? hat)
  -- whatever was to be noticed is about other roots
  have hrest : rest.filterMap (Notice.within host.tasks.length) = [] := by
    refine List.filterMap_eq_nil_iff.mpr fun n hn => ?_
    exact Notice.within_of_leadsInto (hhost.ready n (hready ▸ List.mem_cons_of_mem _ hn))
  have hasleep : host.sleepers.filterMap (Sleeper.within host.tasks.length) = [] :=
    List.filterMap_eq_nil_iff.mpr fun s hs => Sleeper.within_of_leadsInto (hhost.asleep s hs)
  have htasks : (host.advance p path a).tasks
      = (host.replace path (.live next)).tasks ++ [.live child] := by
    obtain ⟨i, inner, rfl, -⟩ := leadsInto_of_at? hat
    show (host.replace (i :: inner) ((p.step host.shared a).2.task p)).tasks
      ++ (p.step host.shared a).2.roots = _
    rw [hstep]
    rfl
  have hlength := length_tasks_replace host.toPool path (.live next)
  rw [hstep]
  refine ⟨⟨.live child, .live b, ?_, rfl, by simp [hchild]⟩, ?_, hasleep, fun _ => ?_⟩
  · show (host.advance p path a).tasks[host.tasks.length]? = _
    rw [htasks, ← hlength]
    simp
  · show (Notice.resume path :: (rest ++ [.resume [host.tasks.length]])).filterMap _ = _
    rw [List.filterMap_cons_none (by simp [Notice.within, hpath]), List.filterMap_append, hrest]
    simp [Notice.within, Machine.start]
  · show host.now = 0 + host.now
    omega

/-! #### A step of the host -/

/-- What a step of the host is for the guest. -/
inductive Next (p : Program σ α ρ) (q : Program τ β ρ) (f : α → γ) (g : β → γ) (k T : ℕ)
    (guest : Machine τ β ρ) (host host' : Machine σ α ρ) : Prop
  /-- A task of the root takes a step, and so does its likeness.  The guest stays if both
  steps look the same. -/
  | own {path : List ℕ} {a : α} {b : β} {guest' : Machine τ β ρ} :
    host.at? (k :: path) = some (.live a) → guest.at? (0 :: path) = some (.live b) → f a = g b →
    host'.toPool = host.toPool.advance p (k :: path) a →
    guest.step? q = some guest' → guest'.toPool = guest.toPool.advance q (0 :: path) b →
    (Parallel f g (p.step host.shared a).2 (q.step guest.shared b).2 →
      Lodged f g k T guest' host') → Next p q f g k T guest host host'
  /-- A task of another root takes a step. -/
  | other {i : ℕ} {path : List ℕ} {a : α} : i ≠ k → host.at? (i :: path) = some (.live a) →
    host'.toPool = host.toPool.advance p (i :: path) a → Lodged f g k T guest host' →
    Next p q f g k T guest host host'
  /-- Nobody takes a step, and nobody ends. -/
  | idle {guest' : Machine τ β ρ} : guest' = guest ∨ guest.step? q = some guest' →
    host'.shared = host.shared → guest'.shared = guest.shared →
    (∀ report, guest'.tasks = [.ended report] → guest.tasks = [.ended report]) →
    Lodged f g k T guest' host' → Next p q f g k T guest host host'

section

variable (hback : ∀ a b results, f a = g b → f (p.rejoin a results) = g (q.rejoin b results))

include hback in
theorem next_resume (h : Lodged f g k T guest host) (horder : InOrder host.sleepers)
    (hready : host.ready = .resume (i :: path) :: rest) :
    Next p q f g k T guest host ({ host with ready := rest }.resume p (i :: path)) := by
  by_cases hi : i = k
  · -- the same notice is in front of the guest, and its task is at work if the host's is
    subst hi
    have hinner : (Notice.resume (i :: path)).within i = some (.resume (0 :: path)) := by
      simp [Notice.within]
    obtain ⟨rest', hguest, hnow, hpop⟩ := h.pop hready hinner
    have hstep : guest.step? q = some ({ guest with ready := rest' }.resume q (0 :: path)) := by
      simp [Machine.step?, hguest]
    by_cases hlive : ∃ a, host.at? (i :: path) = some (.live a)
    · obtain ⟨a, ha⟩ := hlive
      obtain ⟨b, hb, hab⟩ := h.exists_live ha
      rw [Machine.resume_eq (m := { host with ready := rest }) ha]
      rw [Machine.resume_eq (m := { guest with ready := rest' }) hb] at hstep
      refine .own ha hb hab (Machine.toPool_arrange ..) hstep (Machine.toPool_arrange ..)
        fun hd => ?_
      have hguest' : (guest.advance q (0 :: path) b).tasks
          = (guest.replace (0 :: path) ((q.step guest.shared b).2.task q)).tasks :=
        (congrArg _ hd.roots.2).trans (List.append_nil _)
      have hnew := hpop.exchange (e := host.advance p (i :: path) a) (hd.task hback) hguest' rfl
      exact hnew.arrange hnow horder hd path _ _
    · rw [Machine.resume_of_not_live (m := { host with ready := rest }) hlive]
      rw [Machine.resume_of_not_live (m := { guest with ready := rest' }) (h.not_live hlive)] at hstep
      exact .idle (.inr hstep) rfl rfl (fun _ h => h) hpop
  · -- a root that is put up stands behind all others, so the guest keeps its place
    have hpop := h.pop_other hready (by simp [Notice.within, within_of_ne hi])
    by_cases hlive : ∃ a, host.at? (i :: path) = some (.live a)
    · obtain ⟨a, ha⟩ := hlive
      rw [Machine.resume_eq (m := { host with ready := rest }) ha]
      refine .other hi ha (Machine.toPool_arrange ..) ?_
      have hk : host.tasks.length ≠ k := by
        obtain ⟨t, -, ht, -⟩ := h.root
        exact Nat.ne_of_gt (List.getElem?_eq_some_iff.mp ht).1
      have hnew := hpop.exchange_other (e := host.advance p (i :: path) a) hi rfl
      exact hnew.arrange_other hi hk path _
    · rw [Machine.resume_of_not_live (m := { host with ready := rest }) hlive]
      exact .idle (.inl rfl) rfl rfl (fun _ h => h) hpop

include hback in
theorem next_childEnded (h : Lodged f g k T guest host)
    (hready : host.ready = .childEnded (i :: path) :: rest) :
    Next p q f g k T guest host ({ host with ready := rest }.childEnded p (i :: path)) := by
  by_cases hi : i = k
  · -- both wait for the same results, and for the same notices to come
    subst hi
    have hinner : (Notice.childEnded (i :: path)).within i = some (.childEnded (0 :: path)) := by
      simp [Notice.within]
    obtain ⟨rest', hguest, hnow, hpop⟩ := h.pop hready hinner
    have hstep : guest.step? q = some ({ guest with ready := rest' }.childEnded q (0 :: path)) := by
      simp [Machine.step?, hguest]
    refine .idle (.inr hstep) (Machine.childEnded_shared ..) (Machine.childEnded_shared ..)
      (fun _ => Machine.tasks_of_childEnded) ?_
    by_cases hwait : ∃ a children, host.at? (i :: path) = some (.waiting a children)
    · obtain ⟨a, children, ha⟩ := hwait
      obtain ⟨b, below, hb, hab, hbelow⟩ := h.exists_waiting ha
      have hmore : rest'.contains (.childEnded (0 :: path)) = rest.contains (.childEnded (i :: path)) := by
        have hrest : rest.filterMap (Notice.within i) = rest' := hpop.ready
        rw [Bool.eq_iff_iff, List.contains_iff_mem, List.contains_iff_mem, ← hrest,
          Notice.childEnded_mem_within]
      simp only [Machine.childEnded, ha, hb, hbelow, hmore]
      split
      · next results hresults =>
        split
        · exact hpop
        · have hnew : (Task.live (p.rejoin a results) : Task α ρ).map f
              = (Task.live (q.rejoin b results)).map g := by
            simp [hback a b results hab]
          have hlodged := hpop.exchange (e := host.replace (i :: path) (.live (p.rejoin a results)))
            hnew rfl (List.append_nil _).symm
          exact hlodged.append hnow (by simp [Notice.within])
      · exact hpop
    · rw [Machine.childEnded_of_not_waiting (m := { host with ready := rest }) hwait,
        Machine.childEnded_of_not_waiting (m := { guest with ready := rest' }) (h.not_waiting hwait)]
      exact hpop
  · have hpop := h.pop_other hready (by simp [Notice.within, within_of_ne hi])
    refine .idle (.inl rfl) (Machine.childEnded_shared ..) rfl (fun _ h => h) ?_
    unfold Machine.childEnded
    split
    · split
      · next results hresults =>
        split
        · exact hpop
        · next a children ha _ _ =>
          have hlodged := hpop.exchange_other (e := host.replace (i :: path)
            (.live (p.rejoin a results))) hi (List.append_nil _).symm
          exact hlodged.append_other (by simp [Notice.within, within_of_ne hi])
      · exact hpop
    · exact hpop

/-- Time passes. -/
theorem next_wake (h : Lodged f g k T guest host) (hready : host.ready = []) {s : Sleeper}
    {sleepers : List Sleeper} (hasleep : host.sleepers = s :: sleepers) :
    Next p q f g k T guest host
      { host with ready := [.resume s.path], sleepers := sleepers, now := s.wakesAt } := by
  -- nothing is ready in the guest either; it wakes only if the first sleeper is one of its own
  have hidle : guest.ready = [] := by rw [← h.ready, hready, List.filterMap_nil]
  have hsleepers := h.asleep
  rw [hasleep] at hsleepers
  rcases hs : s.within k with - | inner
  · have hnone : (Notice.resume s.path).within k = none := by
      simpa [Sleeper.within, Notice.within] using hs
    rw [List.filterMap_cons_none hs] at hsleepers
    refine .idle (.inl rfl) rfl rfl (fun _ h => h)
      ⟨h.root, ?_, hsleepers, fun hne => absurd hidle hne⟩
    rw [List.filterMap_cons_none hnone, hidle, List.filterMap_nil]
  · obtain ⟨path, hpath, rfl⟩ := Option.map_eq_some_iff.mp hs
    have hsome : (Notice.resume s.path).within k = some (.resume path) := by
      simp [Notice.within, hpath]
    rw [List.filterMap_cons_some hs] at hsleepers
    rcases hguest : guest.sleepers with - | ⟨t, rest⟩
    · rw [hguest] at hsleepers
      cases hsleepers
    · rw [hguest, List.map_cons] at hsleepers
      obtain ⟨hhead, hrest⟩ := List.cons.inj hsleepers
      have hstep : guest.step? q = some
          { guest with ready := [.resume t.path], sleepers := rest, now := t.wakesAt } := by
        simp [Machine.step?, hidle, hguest]
      obtain ⟨htime, htpath⟩ : s.wakesAt = t.wakesAt + T ∧ path = t.path := by
        simpa [Sleeper.later] using hhead
      refine .idle (.inr hstep) rfl rfl (fun _ h => h) ⟨h.root, ?_, hrest, fun _ => htime⟩
      rw [List.filterMap_cons_some hsome, htpath, List.filterMap_nil]

include hback in
/-- Whatever the host does, the guest stays, or takes the same step. -/
theorem next (h : Lodged f g k T guest host) (hhost : host.Regular)
    (hstep : host.step? p = some host') : Next p q f g k T guest host host' := by
  unfold Machine.step? at hstep
  rcases hready : host.ready with - | ⟨path | parent, rest⟩
  · rcases hs : host.sleepers with - | ⟨s, rest⟩
    · simp [hready, hs] at hstep
    · obtain rfl : _ = host' := by simpa [hready, hs] using hstep
      exact h.next_wake hready hs
  · obtain rfl : { host with ready := rest }.resume p path = host' := by simpa [hready] using hstep
    obtain ⟨i, tail, rfl, -⟩ := hhost.ready _ (hready ▸ List.mem_cons_self)
    exact h.next_resume hback hhost.order hready
  · obtain rfl : { host with ready := rest }.childEnded p parent = host' := by
      simpa [hready] using hstep
    obtain ⟨i, tail, rfl, -⟩ := hhost.ready _ (hready ▸ List.mem_cons_self)
    exact h.next_childEnded hback hready

end

end Lodged

end Automation.Schedule
