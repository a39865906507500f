/-
Automation/Proofs/Schedule/Serial.lean

Tasks side by side and one after another.

A task that is left alone tells something and comes to a result, which is its *tale*.  The
tale of a tree is told as if its tasks worked one after another: each child to its end,
then whoever waits for the children (`Reading.tale`).

Side by side the tasks tell the same in another order.  If each step tells the beginning
of the tale of its task, and the tasks that a task waits for tell of different things
(`Reading.Tidy`), then of each thing the same is told in the same order, and the result is
the same (`Orderly.reaches`).  What carries the proof is that putting a task in the place
of another exchanges a segment of the tale of the tree, and that nothing before that
segment tells of what the segment tells of (`Reading.exists_frame`).
-/
import Automation.Proofs.Schedule.Interleaving

namespace Automation.Schedule

variable {σ : Type*} {α : Type*} {ρ : Type*} {ε : Type*} {κ : Type*}

/-- What a task tells, and what it comes to. -/
structure Tale (ε : Type u) (ρ : Type v) where
  events : List ε
  result : ρ

namespace Tale

/-- A tale with something told before it. -/
def prepend (events : List ε) (t : Tale ε ρ) : Tale ε ρ := ⟨events ++ t.events, t.result⟩

@[simp] theorem events_prepend (events : List ε) (t : Tale ε ρ) :
    (t.prepend events).events = events ++ t.events := rfl

@[simp] theorem result_prepend (events : List ε) (t : Tale ε ρ) :
    (t.prepend events).result = t.result := rfl

@[simp] theorem prepend_nil (t : Tale ε ρ) : t.prepend [] = t := rfl

theorem prepend_prepend (first second : List ε) (t : Tale ε ρ) :
    (t.prepend second).prepend first = t.prepend (first ++ second) := by
  simp [prepend]

end Tale

/-- How the runs of a program are read. -/
structure Reading (σ : Type u) (α : Type v) (ρ : Type w) (ε : Type x) (κ : Type y) where
  /-- What has been told so far. -/
  said : σ → List ε
  /-- What a task will tell and come to if it is left alone. -/
  tell : α → Tale ε ρ
  /-- An event tells of a thing. -/
  about : κ → ε → Bool

namespace Reading

variable (p : Program σ α ρ) (r : Reading σ α ρ ε κ)

/-! ### The tale of a tree -/

mutual

/-- What a task and the tasks that it waits for will tell one after another, and what the
task will come to then. -/
def tale : Task α ρ → Tale ε ρ
  | .live a => r.tell a
  | .waiting a children =>
    (r.tell (p.rejoin a ((tales children).map Tale.result))).prepend
      ((tales children).flatMap Tale.events)
  | .ended result => ⟨[], result⟩

def tales : List (Task α ρ) → List (Tale ε ρ)
  | [] => []
  | t :: ts => tale t :: tales ts

end

/-- Two events do not tell of the same thing. -/
def Apart (e f : ε) : Prop := ∀ k, r.about k e = true → r.about k f = false

mutual

/-- The tasks that a task waits for tell of different things, also further inside. -/
def Tidy : Task α ρ → Prop
  | .waiting _ children => TidyAll children
  | _ => True

/-- Several tasks tell of different things, and each of them is tidy. -/
def TidyAll : List (Task α ρ) → Prop
  | [] => True
  | t :: ts => Tidy t ∧ TidyAll ts ∧
    ∀ e ∈ (r.tale p t).events, ∀ f ∈ (r.tales p ts).flatMap Tale.events, r.Apart e f

end

@[simp] theorem tale_live (a : α) : r.tale p (.live a) = r.tell a := rfl

@[simp] theorem tale_ended (result : ρ) : r.tale p (.ended result) = ⟨[], result⟩ := rfl

theorem tale_waiting (a : α) (children : List (Task α ρ)) : r.tale p (.waiting a children)
    = (r.tell (p.rejoin a ((r.tales p children).map Tale.result))).prepend
      ((r.tales p children).flatMap Tale.events) := rfl

@[simp] theorem tales_cons (t : Task α ρ) (ts : List (Task α ρ)) :
    r.tales p (t :: ts) = r.tale p t :: r.tales p ts := rfl

@[simp] theorem tales_live (as : List α) : r.tales p (as.map .live) = as.map r.tell := by
  induction as with
  | nil => rfl
  | cons a as ih => simp [ih]

theorem tidy_live (a : α) : r.Tidy p (.live a) := trivial

/-- Live tasks whose tales tell of different things. -/
theorem tidyAll_live {as : List α}
    (h : as.Pairwise fun a b => ∀ e ∈ (r.tell a).events, ∀ f ∈ (r.tell b).events, r.Apart e f) :
    r.TidyAll p (as.map .live) := by
  induction as with
  | nil => trivial
  | cons a as ih =>
    obtain ⟨hfirst, hrest⟩ := List.pairwise_cons.mp h
    refine ⟨trivial, ih hrest, fun e he f hf => ?_⟩
    rw [tales_live] at hf
    obtain ⟨tale, htale, hf⟩ := List.mem_flatMap.mp hf
    obtain ⟨b, hb, rfl⟩ := List.mem_map.mp htale
    exact hfirst b hb e he f hf

/-- Tasks that all have ended tell nothing more. -/
theorem tales_of_results? {ts : List (Task α ρ)} {results : List ρ}
    (h : Task.results? ts = some results) :
    r.tales p ts = results.map fun result => ⟨[], result⟩ := by
  induction ts generalizing results with
  | nil =>
    obtain rfl := Option.some.inj h
    rfl
  | cons t ts ih =>
    cases t with
    | live a => simp [Task.results?, Task.result?] at h
    | waiting a children => simp [Task.results?, Task.result?] at h
    | ended result =>
      rcases hs : Task.results? ts with - | rest
      · simp [Task.results?, Task.result?, hs] at h
      · obtain rfl : result :: rest = results := by
          simpa [Task.results?, Task.result?, hs] using h
        rw [tales_cons, ih hs]
        rfl

/-- The return to work of a task tells nothing. -/
theorem tale_rejoin {a : α} {children : List (Task α ρ)} {results : List ρ}
    (h : Task.results? children = some results) :
    r.tale p (.waiting a children) = r.tale p (.live (p.rejoin a results)) := by
  have hresults : ((results.map fun result => (⟨[], result⟩ : Tale ε ρ)).map Tale.result)
      = results := by
    rw [List.map_map]
    exact List.map_id' results
  have hevents : ((results.map fun result => (⟨[], result⟩ : Tale ε ρ)).flatMap Tale.events)
      = [] := by
    simp [List.flatMap_eq_nil_iff]
  rw [tale_waiting, tales_of_results? p r h, hresults, hevents, Tale.prepend_nil, tale_live]

/-! ### Exchanging a task -/

/-- What is told around one of several tasks that tell of different things.  Whatever takes
its place, tells no more and comes to the same exchanges its own part. -/
theorem exists_frame_all {ts : List (Task α ρ)} {i : ℕ} {child : Task α ρ}
    (hi : ts[i]? = some child) (htidy : r.TidyAll p ts) :
    ∃ before after, (r.tales p ts).flatMap Tale.events
        = before ++ (r.tale p child).events ++ after ∧
      (∀ e ∈ before, ∀ f ∈ (r.tale p child).events, r.Apart e f) ∧ r.Tidy p child ∧
      ∀ f : Task α ρ → Task α ρ, r.Tidy p (f child) →
        (r.tale p (f child)).result = (r.tale p child).result →
        (r.tale p (f child)).events ⊆ (r.tale p child).events →
        r.TidyAll p (ts.modify i f) ∧
        (r.tales p (ts.modify i f)).map Tale.result = (r.tales p ts).map Tale.result ∧
        (r.tales p (ts.modify i f)).flatMap Tale.events
          = before ++ (r.tale p (f child)).events ++ after := by
  induction ts generalizing i with
  | nil => cases hi
  | cons t ts ih =>
    obtain ⟨ht, hts, hapart⟩ := htidy
    cases i with
    | zero =>
      obtain rfl := Option.some.inj hi
      refine ⟨[], (r.tales p ts).flatMap Tale.events, rfl, fun e he => absurd he (by simp), ht,
        fun f hf hresult hsubset => ⟨⟨hf, hts, fun e he => hapart e (hsubset he)⟩, ?_, rfl⟩⟩
      show (r.tale p (f t)).result :: _ = (r.tale p t).result :: _
      rw [hresult]
    | succ i =>
      obtain ⟨before, after, hevents, hbefore, hchild, hnew⟩ := ih hi hts
      have htold : ∀ f ∈ (r.tale p child).events, f ∈ (r.tales p ts).flatMap Tale.events := by
        intro f hf
        rw [hevents]
        simp [hf]
      refine ⟨(r.tale p t).events ++ before, after, ?_, fun e he f hf => ?_, hchild,
        fun g hg hresult hsubset => ?_⟩
      · simp [hevents]
      · rcases List.mem_append.mp he with he | he
        · exact hapart e he f (htold f hf)
        · exact hbefore e he f hf
      · obtain ⟨htidy, hresults, htales⟩ := hnew g hg hresult hsubset
        -- what is told in the place of the exchanged task was told there before
        have hold : (r.tales p (ts.modify i g)).flatMap Tale.events
            ⊆ (r.tales p ts).flatMap Tale.events := by
          intro f hf
          rw [htales, List.mem_append, List.mem_append] at hf
          rw [hevents, List.mem_append, List.mem_append]
          exact hf.imp_left (Or.imp_right fun hin => hsubset hin)
        refine ⟨⟨ht, htidy, fun e he f hf => hapart e he f (hold hf)⟩, ?_, ?_⟩
        · exact congrArg ((r.tale p t).result :: ·) hresults
        · show (r.tale p t).events ++ (r.tales p (ts.modify i g)).flatMap Tale.events = _
          rw [htales]
          simp

/-- What is told around a task in a tidy tree.  Whatever takes its place and tells the rest
of its tale exchanges its own part. -/
theorem exists_frame {t u : Task α ρ} {path : List ℕ} (h : t.at? path = some u)
    (htidy : r.Tidy p t) :
    ∃ before after, (r.tale p t).events = before ++ (r.tale p u).events ++ after ∧
      (∀ e ∈ before, ∀ f ∈ (r.tale p u).events, r.Apart e f) ∧
      ∀ new events, r.Tidy p new → r.tale p u = (r.tale p new).prepend events →
        r.Tidy p (t.replace path new) ∧
        r.tale p (t.replace path new)
          = ⟨before ++ (r.tale p new).events ++ after, (r.tale p t).result⟩ := by
  induction path generalizing t with
  | nil =>
    obtain rfl : t = u := by simpa [Task.at?] using h
    refine ⟨[], [], by simp, fun e he => absurd he (by simp), fun new events hnew htale => ?_⟩
    refine ⟨by simpa [Task.replace] using hnew, ?_⟩
    rw [htale]
    simp [Task.replace]
  | cons i path ih =>
    cases t with
    | live a => simp [Task.at?] at h
    | ended result => simp [Task.at?] at h
    | waiting a children =>
      obtain ⟨child, hi, hu⟩ := Option.bind_eq_some_iff.mp h
      obtain ⟨before, after, hevents, hbefore, hchild, hmodify⟩ := exists_frame_all p r hi htidy
      obtain ⟨before', after', hevents', hbefore', hnew⟩ := ih hu hchild
      have htold : ∀ f ∈ (r.tale p u).events, f ∈ (r.tale p child).events := by
        intro f hf
        rw [hevents']
        simp [hf]
      refine ⟨before ++ before', after' ++ after ++
          (r.tell (p.rejoin a ((r.tales p children).map Tale.result))).events, ?_,
        fun e he f hf => ?_, fun new events htidy' htale => ?_⟩
      · rw [tale_waiting, Tale.events_prepend, hevents, hevents']
        simp
      · rcases List.mem_append.mp he with he | he
        · exact hbefore e he f (htold f hf)
        · exact hbefore' e he f hf
      · obtain ⟨hkeeps, hreplaced⟩ := hnew new events htidy' htale
        have hsubset : (r.tale p (child.replace path new)).events ⊆ (r.tale p child).events := by
          intro e he
          rw [hreplaced] at he
          rw [hevents', htale]
          simp only [Tale.events_prepend, List.mem_append] at he ⊢
          tauto
        obtain ⟨hall, hresults, htales⟩ := hmodify (fun child => child.replace path new) hkeeps
          (by rw [hreplaced]) hsubset
        refine ⟨hall, ?_⟩
        rw [Task.replace, tale_waiting, tale_waiting, hresults, htales, hreplaced]
        simp [Tale.prepend]

/-! ### Runs -/

/-- What a step of a task does: it tells the beginning of the tale of the task and leaves the
rest, and the tasks that come of it tell of different things. -/
def Carries (K : α → Prop) (s : σ) (a : α) (result : σ × Directive α ρ) : Prop :=
  ∃ events, r.said result.1 = r.said s ++ events ∧
    r.tell a = (r.tale p (result.2.task p)).prepend events ∧ r.Tidy p (result.2.task p) ∧
    (∀ b ∈ (result.2.task p).states, K b) ∧ result.2.roots = []

/-- What makes the steps of a program tell the tales of its tasks, as long as the shared state
is not spoilt: a fact about states that is handed on, and events that are told but once. -/
structure Orderly (outside : σ → σ → Prop) (K : α → Prop) (once : ε → Prop)
    (spoilt : σ → Prop) : Prop where
  carries : ∀ {s a}, ¬ spoilt s → K a → (∀ e ∈ (r.tell a).events, once e → e ∉ r.said s) →
    spoilt (p.step s a).1 ∨ r.Carries p K s a (p.step s a)
  rejoin : ∀ {a} results, K a → K (p.rejoin a results)
  spoils : ∀ {s a}, spoilt s → spoilt (p.step s a).1
  disturbed : ∀ {s s'}, outside s s' → spoilt s' ∨ r.said s' = r.said s
  spoilsOutside : ∀ {s s'}, outside s s' → spoilt s → spoilt s'
  concerns : ∀ {e}, once e → ∃ k, r.about k e = true

/-- A run stands where the tale of its first task, told as if tasks worked one after another,
is told in part: of each thing, what has been told and what is left make up the whole. -/
structure Stands (K : α → Prop) (whole : Tale ε ρ) (c : Pool σ α ρ) (root : Task α ρ) : Prop where
  tasks : c.tasks = [root]
  tidy : r.Tidy p root
  states : ∀ a ∈ root.states, K a
  result : (r.tale p root).result = whole.result
  events : ∀ k, (r.said c.shared).filter (r.about k) ++ (r.tale p root).events.filter (r.about k)
    = whole.events.filter (r.about k)

variable {p r} {outside : σ → σ → Prop} {K : α → Prop} {once : ε → Prop} {spoilt : σ → Prop}
  {whole : Tale ε ρ}

/-- Of each thing, either nothing is told before or nothing here. -/
theorem filter_eq_nil_or {before here : List ε} (h : ∀ e ∈ before, ∀ f ∈ here, r.Apart e f)
    (k : κ) : before.filter (r.about k) = [] ∨ here.filter (r.about k) = [] := by
  rw [or_iff_not_imp_left]
  intro hne
  obtain ⟨e, he⟩ := List.exists_mem_of_ne_nil _ hne
  obtain ⟨hmem, habout⟩ := List.mem_filter.mp he
  refine List.filter_eq_nil_iff.mpr fun f hf => ?_
  simp [h e hmem f hf k habout]

/-- Putting the rest of a tale in the place of a task takes what was told from the front of the
tale of the tree, as far as each thing is concerned. -/
theorem Stands.replace {c d : Pool σ α ρ} {root u new : Task α ρ} {path : List ℕ} {events : List ε}
    (h : r.Stands p K whole c root) (hat : root.at? path = some u) (hnew : r.Tidy p new)
    (htale : r.tale p u = (r.tale p new).prepend events) (hstates : ∀ a ∈ new.states, K a)
    (htasks : d.tasks = [root.replace path new])
    (hsaid : r.said d.shared = r.said c.shared ++ events) :
    r.Stands p K whole d (root.replace path new) := by
  obtain ⟨before, after, hevents, hapart, hreplace⟩ := exists_frame p r hat h.tidy
  obtain ⟨htidy, hreplaced⟩ := hreplace new events hnew htale
  obtain ⟨front, back, hsplit, hsplit'⟩ := Task.exists_split hat
  refine ⟨htasks, htidy, fun a ha => ?_, by rw [hreplaced]; exact h.result, fun k => ?_⟩
  · have hold := h.states a
    rw [hsplit' new] at ha
    rw [hsplit] at hold
    simp only [List.mem_append] at ha hold
    rcases ha with (ha | ha) | ha
    · exact hold (.inl (.inl ha))
    · exact hstates a ha
    · exact hold (.inr ha)
  · -- what is told now stood behind what is told before it, of which one part is empty
    have htold : ∀ e ∈ before, ∀ f ∈ events, r.Apart e f := by
      intro e he f hf
      refine hapart e he f ?_
      rw [htale]
      simp [hf]
    have hwhole := h.events k
    rw [hevents, htale] at hwhole
    rw [hsaid, hreplaced, ← hwhole]
    rcases filter_eq_nil_or htold k with hnone | hnone <;> simp [hnone]

/-- What is told but once and is still to be told by a task has not been told. -/
theorem Stands.fresh (ho : r.Orderly p outside K once spoilt)
    (hwhole : whole.events.Pairwise fun e f => once e → e ≠ f) {c : Pool σ α ρ}
    {root u : Task α ρ} {path : List ℕ} (h : r.Stands p K whole c root)
    (hat : root.at? path = some u) :
    ∀ e ∈ (r.tale p u).events, once e → e ∉ r.said c.shared := by
  intro e he honce hsaid
  obtain ⟨k, hk⟩ := ho.concerns honce
  obtain ⟨before, after, hevents, -, -⟩ := exists_frame p r hat h.tidy
  have htold : e ∈ (r.tale p root).events.filter (r.about k) := by
    rw [hevents]
    simp [he, hk]
  have hpast : e ∈ (r.said c.shared).filter (r.about k) := List.mem_filter.mpr ⟨hsaid, hk⟩
  have hdistinct := hwhole.filter (r.about k)
  rw [← h.events k, List.pairwise_append] at hdistinct
  exact hdistinct.2.2 e hpast e htold honce rfl

theorem Stands.step (ho : r.Orderly p outside K once spoilt)
    (hwhole : whole.events.Pairwise fun e f => once e → e ≠ f) {c d : Pool σ α ρ}
    {root : Task α ρ} (h : r.Stands p K whole c root) (hsound : ¬ spoilt c.shared)
    (hstep : Pool.Step p outside c d) :
    spoilt d.shared ∨ ∃ root', r.Stands p K whole d root' := by
  -- a path into the pool leads into its one root
  have hinto : ∀ {path t}, c.at? path = some t →
      ∃ rest, path = 0 :: rest ∧ root.at? rest = some t := by
    intro path t hat
    obtain ⟨i, rest, first, rfl, hi, hfirst⟩ := Pool.at?_eq_some hat
    rw [h.tasks, List.getElem?_singleton] at hi
    split at hi
    · next hzero =>
      obtain rfl := Option.some.inj hi
      obtain rfl : i = 0 := by simpa using hzero
      exact ⟨rest, rfl, hfirst⟩
    · cases hi
  have hstate : ∀ {rest : List ℕ} {t : Task α ρ} {a : α}, root.at? rest = some t →
      a ∈ t.states → K a := by
    intro rest t a hat ha
    obtain ⟨front, back, hsplit, -⟩ := Task.exists_split hat
    exact h.states a (by simp [hsplit, ha])
  cases hstep with
  | outside hout =>
    refine (ho.disturbed hout).imp_right fun hsaid =>
      ⟨root, h.tasks, h.tidy, h.states, h.result, ?_⟩
    intro k
    rw [hsaid]
    exact h.events k
  | move hmove =>
    cases hmove with
    | @advance path a hlive =>
      obtain ⟨rest, rfl, hat⟩ := hinto hlive
      have hfresh := h.fresh ho hwhole hat
      have ha : K a := hstate hat (by simp)
      rcases ho.carries hsound ha hfresh with hspoilt | ⟨events, hsaid, htale, htidy, hstates, hroots⟩
      · rw [Pool.advance_shared]
        exact .inl hspoilt
      · refine .inr ⟨_, h.replace hat htidy htale hstates ?_ ?_⟩
        · show c.tasks.modify 0 (fun t => t.replace rest _) ++ (p.step c.shared a).2.roots = _
          rw [hroots, h.tasks]
          rfl
        · rw [Pool.advance_shared]
          exact hsaid
    | @rejoin path a children results hwait hr =>
      obtain ⟨rest, rfl, hat⟩ := hinto hwait
      have ha : K a := hstate hat (by simp)
      have htale : r.tale p (.waiting a children)
          = (r.tale p (.live (p.rejoin a results))).prepend [] := r.tale_rejoin p hr
      refine .inr ⟨_, h.replace hat (r.tidy_live p _) htale ?_ ?_ ?_⟩
      · simpa using ho.rejoin results ha
      · show c.tasks.modify 0 (fun t => t.replace rest _) = _
        rw [h.tasks]
        rfl
      · rw [Pool.replace_shared, List.append_nil]

/-- In any order of work the tasks tell what they tell one after another: of each thing, what
has been told and what is left make up the tale of the first task. -/
theorem Orderly.reaches (ho : r.Orderly p outside K once spoilt) {s : σ} {a : α}
    (hempty : r.said s = []) (ha : K a)
    (hwhole : (r.tell a).events.Pairwise fun e f => once e → e ≠ f) {d : Pool σ α ρ}
    (h : Pool.Reaches p outside (Pool.start s a) d) :
    spoilt d.shared ∨ ∃ root, r.Stands p K (r.tell a) d root := by
  induction h with
  | refl =>
    refine .inr ⟨.live a, rfl, trivial, fun b hb => ?_, rfl, fun k => ?_⟩
    · obtain rfl := List.mem_singleton.mp hb
      exact ha
    · show (r.said s).filter _ ++ _ = _
      rw [hempty]
      rfl
  | @tail c d _ hstep ih =>
    by_cases hspoilt : spoilt c.shared
    · left
      cases hstep with
      | outside hout => exact ho.spoilsOutside hout hspoilt
      | move hmove =>
        cases hmove with
        | advance _ =>
          rw [Pool.advance_shared]
          exact ho.spoils hspoilt
        | rejoin _ _ =>
          rw [Pool.replace_shared]
          exact hspoilt
    · obtain ⟨root, hroot⟩ := ih.resolve_left hspoilt
      exact hroot.step ho hwhole hspoilt hstep

/-- Once the first task has ended, all of its tale has been told, of each thing in order, and it
has come to the same. -/
theorem Orderly.ended (ho : r.Orderly p outside K once spoilt) {s : σ} {a : α}
    (hempty : r.said s = []) (ha : K a)
    (hwhole : (r.tell a).events.Pairwise fun e f => once e → e ≠ f) {d : Pool σ α ρ} {result : ρ}
    (h : Pool.Reaches p outside (Pool.start s a) d) (hended : d.tasks = [.ended result])
    (hsound : ¬ spoilt d.shared) :
    result = (r.tell a).result ∧
      ∀ k, (r.said d.shared).filter (r.about k) = (r.tell a).events.filter (r.about k) := by
  obtain ⟨root, hroot⟩ := (ho.reaches hempty ha hwhole h).resolve_left hsound
  obtain rfl : .ended result = root := List.singleton_inj.mp (hended.symm.trans hroot.tasks)
  refine ⟨hroot.result, fun k => ?_⟩
  have hevents := hroot.events k
  simpa using hevents

end Reading

end Automation.Schedule
