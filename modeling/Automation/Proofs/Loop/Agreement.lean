/-
Automation/Proofs/Loop/Agreement.lean

Loops with batches agree with loops without.

Where what a body returns is a matter of its iteration alone (`Determined`), all that is
known of a body by the iteration that it is the body of is known of what comes of it, in
any order of work; so every lap of a loop is the result of its iteration (`facts_kept`).
With the law of a loop this leaves one report for each size of batches (`report_eq`), and
the reports of different sizes agree as far as they can: a loop that goes on after failures
reports the same, and one that stops reports the iterations up to the end of the batch with
the first failure (`async_agrees`).

What else is true of all that is in a loop does not depend on what its bodies return
(`inhabits_kept`).  If no body goes on without end, no loop does (`declines`, `comes_to_end`).
-/
import Automation.Proofs.Loop.Rounds
import Automation.Proofs.Schedule.Decline

namespace Automation.Loop

open Automation.Schedule (Directive Occupant Pool Task)

variable {σ : Type*} {β : Type*}

/-! ### Bodies with a result of their own -/

/-- What a body goes on as. -/
def goesOn : Directive β Lap → Option β
  | .proceed next => some next
  | .pause next => some next
  | .sleep _ next => some next
  | .fork _ waiting => some waiting
  | .spawn _ next => some next
  | .finish _ => none

/-- Whom a body starts. -/
def helpers : Directive β Lap → List β
  | .fork children _ => children
  | .spawn child _ => [child]
  | _ => []

/-- What a body of an iteration returns is a matter of the iteration alone: if a body gives a
result, then in every shared state it goes on as one that gives it, or returns it. -/
structure Determined (bodies : Bodies σ β) (view : View) (plan : Plan) (result : ℕ → Lap)
    (gives : β → Lap → Prop) : Prop where
  enter : ∀ i < plan.count, gives (bodies.enter (plan.enter view i) i) (result i)
  goesOn : ∀ {s b l next}, gives b l → goesOn (bodies.step s b).2 = some next → gives next l
  finish : ∀ {s b l r}, gives b l → (bodies.step s b).2 = .finish r → r = l

/-- A body, or a task that a body starts, comes out of a step of a body. -/
def Comes (bodies : Bodies σ β) (after before : β) : Prop :=
  ∃ s, goesOn (bodies.step s before).2 = some after ∨ after ∈ helpers (bodies.step s before).2

/-- What is known of bodies, of those that belong to an iteration and of all others. -/
structure Known (bodies : Bodies σ β) (view : View) (plan : Plan) (result : ℕ → Lap)
    (knows : Option ℕ → β → Prop) : Prop where
  enter : ∀ i < plan.count, knows (some i) (bodies.enter (plan.enter view i) i)
  goesOn : ∀ {s q b next}, knows q b → goesOn (bodies.step s b).2 = some next → knows q next
  helps : ∀ {s q b helper}, knows q b → helper ∈ helpers (bodies.step s b).2 → knows none helper
  finish : ∀ {s i b r}, knows (some i) b → (bodies.step s b).2 = .finish r → r = result i

variable {bodies : Bodies σ β} {view : View} {plan : Plan} {result : ℕ → Lap}
variable {gives : β → Lap → Prop} {knows : Option ℕ → β → Prop}

theorem Determined.known (h : Determined bodies view plan result gives) :
    Known bodies view plan result fun q b => ∀ i, q = some i → gives b (result i) where
  enter i hi k hk := Option.some.inj hk ▸ h.enter i hi
  goesOn hb hnext i hi := h.goesOn (hb i hi) hnext
  helps _ _ i hi := by cases hi
  finish hb hr := h.finish (hb _ rfl) hr

/-! ### What is in a loop -/

/-- The place of a task of a loop: the iteration that it is the body of, if it is one. -/
def seat : Option ℕ → Driven β → ℕ → Option ℕ
  | _, .gather course, k => some (course.next + k)
  | _, _, _ => none

/-- The delay of a loop cannot be slept. -/
def CannotRest (plan : Plan) (fault : Fault) : Prop :=
  0 < plan.settings.delayMs ∧ (secondsOf plan.settings.delayMs = .error fault ∨
    ∃ seconds, secondsOf plan.settings.delayMs = .ok seconds ∧
      microsecondsOf seconds = .error fault)

/-- Every lap is the result of its iteration. -/
def Truthful (result : ℕ → Lap) (laps : List Lap) : Prop :=
  ∀ i l, laps[i]? = some l → l = result i

/-- What is true of all that is in a loop, by its place. -/
def Fact (plan : Plan) (result : ℕ → Lap) (knows : Option ℕ → β → Prop) :
    Option ℕ → Occupant (Driven β) Ending → Prop
  | q, .live (.body b) => knows q b ∧ ∀ i, q = some i → i < plan.count
  | q, .waiting (.body b) => knows q b ∧ ∀ i, q = some i → i < plan.count
  | some i, .ended e => e = .lap (result i) ∧ i < plan.count
  | none, .ended (.report r) => Truthful result r.laps
  | none, .ended (.fault fault) => CannotRest plan fault
  | none, .ended (.lap _) => True
  | q, .live (.turn course) => q = none ∧ course.plan = plan ∧ Truthful result course.laps
  | q, .live (.settle course _) => q = none ∧ course.plan = plan ∧ Truthful result course.laps
  | q, .waiting (.gather course) =>
    q = none ∧ course.plan = plan ∧ Truthful result course.laps ∧ course.next < plan.count
  | _, _ => False

/-- What comes of a body: it goes on, has helpers somewhere, or has returned. -/
theorem placed_carried {d : Directive β Lap} {q : Option ℕ}
    {x : Option ℕ × Occupant (Driven β) Ending}
    (hx : x ∈ (Bodies.carried d).placed (bodies.program view) seat none q) :
    (∃ next, goesOn d = some next ∧
      (x = (q, .live (.body next)) ∨ x = (q, .waiting (.body next)))) ∨
      (∃ helper ∈ helpers d, x = (none, .live (.body helper))) ∨
      ∃ l, d = .finish l ∧ x = (q, .ended (.lap l)) := by
  cases d with
  | proceed next | pause next | sleep _ next =>
    exact .inl ⟨next, rfl, .inl (List.mem_singleton.mp hx)⟩
  | finish l => exact .inr (.inr ⟨l, rfl, List.mem_singleton.mp hx⟩)
  | spawn child next =>
    rcases List.mem_cons.mp hx with rfl | hx
    · exact .inl ⟨next, rfl, .inl rfl⟩
    · exact .inr (.inl ⟨child, List.mem_singleton.mpr rfl, List.mem_singleton.mp hx⟩)
  | fork children waiting =>
    cases children with
    | nil => exact .inl ⟨waiting, rfl, .inl (List.mem_singleton.mp hx)⟩
    | cons child children =>
      simp only [Directive.placed, Bodies.carried, List.map_cons, Directive.task,
        Directive.roots, Task.placedAll_nil, List.append_nil] at hx
      rcases List.mem_cons.mp hx with rfl | hx
      · exact .inl ⟨waiting, rfl, .inr rfl⟩
      · have hlive : x ∈ Task.placedAll seat (((child :: children).map Driven.body).map .live)
            (seat q (.body waiting)) 0 := hx
        obtain ⟨i, a, ha, rfl⟩ := Task.mem_placedAll_live hlive
        obtain ⟨helper, hmem, rfl⟩ := List.mem_map.mp (List.mem_of_getElem? ha)
        exact .inr (.inl ⟨helper, hmem, rfl⟩)

/-- What comes of a loop that starts a batch: it waits, and each body has its place. -/
theorem placed_batch {first count : ℕ} {course : Course} {q : Option ℕ}
    (hfirst : course.next = first) (hcount : 0 < count)
    {x : Option ℕ × Occupant (Driven β) Ending}
    (hx : x ∈ (Directive.fork (bodies.batch view plan first count) (.gather course)).placed
      (bodies.program view) seat none q) :
    x = (q, .waiting (.gather course)) ∨ ∃ i, i < first + count ∧
      x = (some i, .live (.body (bodies.enter (plan.enter view i) i))) := by
  have hne : bodies.batch view plan first count ≠ [] :=
    List.ne_nil_of_length_pos (by rw [length_batch]; exact hcount)
  rw [Directive.placed, task_fork _ hne] at hx
  simp only [Directive.roots, Task.placedAll_nil, List.append_nil] at hx
  rcases List.mem_cons.mp hx with rfl | hx
  · exact .inl rfl
  · obtain ⟨k, a, ha, rfl⟩ := Task.mem_placedAll_live hx
    obtain ⟨hlt, rfl⟩ := List.getElem?_eq_some_iff.mp ha
    rw [length_batch] at hlt
    refine .inr ⟨first + k, by omega, ?_⟩
    simp [seat, hfirst, Bodies.batch]

/-- What comes of a loop between two batches: it reports, or starts a batch. -/
theorem placed_turn {s : σ} {course : Course} {q : Option ℕ}
    {x : Option ℕ × Occupant (Driven β) Ending}
    (hx : x ∈ (bodies.stepIn view s (.turn course)).2.placed (bodies.program view) seat none q) :
    (∃ report, report.laps = course.laps ∧ x = (q, .ended (.report report))) ∨
      course.next < course.plan.count ∧ (x = (q, .waiting (.gather course)) ∨
        ∃ i < course.plan.count,
          x = (some i, .live (.body (bodies.enter (course.plan.enter view i) i)))) := by
  rcases hmove : course.move (bodies.isCancelled s) with ⟨first, count⟩ | report
  · obtain ⟨hlt, rfl, hcount⟩ : course.next < course.plan.count ∧ first = course.next ∧
        count = min course.plan.settings.batchSize (course.plan.count - course.next) := by
      unfold Course.move at hmove
      split at hmove
      · cases hmove
      · next hcomplete =>
        split at hmove
        · cases hmove
        · cases hmove
          exact ⟨by simpa [Course.isComplete] using hcomplete, rfl, rfl⟩
    have hpos := batchSize_pos course.plan.settings
    have hstep : bodies.stepIn view s (.turn course)
        = (s, .fork (bodies.batch view course.plan course.next count) (.gather course)) := by
      simp only [Bodies.stepIn, hmove, Bodies.batch]
    rw [hstep] at hx
    rcases placed_batch rfl (by omega) hx with rfl | ⟨i, hi, rfl⟩
    · exact .inr ⟨hlt, .inl rfl⟩
    · exact .inr ⟨hlt, .inr ⟨i, by omega, rfl⟩⟩
  · have hlaps : report.laps = course.laps := by
      unfold Course.move at hmove
      split at hmove
      · exact Move.finish.inj hmove ▸ rfl
      · split at hmove
        · exact Move.finish.inj hmove ▸ rfl
        · cases hmove
    simp only [Bodies.stepIn, hmove] at hx
    exact .inl ⟨report, hlaps, List.mem_singleton.mp hx⟩

/-- What comes of a loop that has the outcome of a batch: it reports, cannot rest, or is
between two batches. -/
theorem placed_settle {s : σ} {course : Course} {batch : List Lap} {q : Option ℕ}
    {x : Option ℕ × Occupant (Driven β) Ending}
    (hx : x ∈ (bodies.stepIn view s (.settle course batch)).2.placed (bodies.program view)
      seat none q) :
    (∃ report, report.laps = course.laps ∧ x = (q, .ended (.report report))) ∨
      (∃ fault, CannotRest course.plan fault ∧ x = (q, .ended (.fault fault))) ∨
      x = (q, .live (.turn course)) := by
  rcases course.turn_exact batch with ⟨-, -, success, error, -, hturn⟩ | ⟨-, hturn⟩
  · simp only [Bodies.stepIn, hturn] at hx
    exact .inl ⟨_, rfl, List.mem_singleton.mp hx⟩
  split at hturn
  · next hrests =>
    simp only [Bodies.stepIn, hturn] at hx
    rcases hseconds : secondsOf course.plan.settings.delayMs with fault | seconds
    · simp only [hseconds] at hx
      exact .inr (.inl ⟨fault, ⟨hrests.1, .inl hseconds⟩, List.mem_singleton.mp hx⟩)
    rcases hmicro : microsecondsOf seconds with fault | microseconds
    · simp only [hseconds, hmicro] at hx
      exact .inr (.inl ⟨fault, ⟨hrests.1, .inr ⟨seconds, hseconds, hmicro⟩⟩,
        List.mem_singleton.mp hx⟩)
    · simp only [hseconds, hmicro] at hx
      exact .inr (.inr (List.mem_singleton.mp hx))
  · simp only [Bodies.stepIn, hturn] at hx
    exact .inr (.inr (List.mem_singleton.mp hx))

/-- The laps of a batch in which every body has returned the result of its iteration. -/
theorem filterMap_lap? {f : ℕ → Lap} {endings : List Ending}
    (h : ∀ (k : ℕ) e, endings[k]? = some e → e = .lap (f k)) :
    endings.filterMap Ending.lap? = (List.range endings.length).map f := by
  have hmap : endings = ((List.range endings.length).map f).map Ending.lap := by
    refine List.ext_getElem (by simp) fun k hk _ => ?_
    rw [h k _ (List.getElem?_eq_getElem hk)]
    simp
  have hlaps : ∀ laps : List Lap, (laps.map Ending.lap).filterMap Ending.lap? = laps := by
    intro laps
    rw [List.filterMap_map]
    exact List.filterMap_some
  rw [hmap, hlaps]
  simp

/-- A batch of results makes the laps longer by results. -/
theorem Truthful.absorb {course : Course} (h : Truthful result course.laps) (count : ℕ) :
    Truthful result
      (course.absorb ((List.range count).map fun k => result (course.next + k))).laps := by
  intro i l hl
  simp only [Course.absorb] at hl
  rcases Nat.lt_or_ge i course.laps.length with hi | hi
  · rw [List.getElem?_append_left hi] at hl
    exact h i l hl
  · rw [List.getElem?_append_right hi, List.getElem?_map] at hl
    obtain ⟨k, hk, rfl⟩ := Option.map_eq_some_iff.mp hl
    obtain ⟨hlt, rfl⟩ := List.getElem?_eq_some_iff.mp hk
    rw [List.getElem_range, course.next_eq, Nat.add_sub_cancel' hi]

/-! ### What every step keeps -/

/-- What is true of all that is in a loop stays true, in any order of work. -/
theorem facts_kept (hknown : Known bodies view plan result knows) (outside : σ → σ → Prop) :
    Pool.KeptAt (bodies.program view) outside seat none (fun _ => True)
      fun _ => Fact plan result knows where
  shared _ _ := trivial
  births {s q a} _ ha x hx := by
    cases a with
    | turn course =>
      obtain ⟨rfl, rfl, hlaps⟩ : q = none ∧ _ := by simpa [Fact] using ha
      rcases placed_turn hx with ⟨report, hsame, rfl⟩ | ⟨hlt, rfl | ⟨i, hi, rfl⟩⟩
      · show Truthful result report.laps
        rw [hsame]
        exact hlaps
      · exact ⟨rfl, rfl, hlaps, hlt⟩
      · exact ⟨hknown.enter i hi, fun k hk => by cases hk; exact hi⟩
    | settle course batch =>
      obtain ⟨rfl, rfl, hlaps⟩ : q = none ∧ _ := by simpa [Fact] using ha
      rcases placed_settle hx with ⟨report, hsame, rfl⟩ | ⟨fault, hfault, rfl⟩ | rfl
      · show Truthful result report.laps
        rw [hsame]
        exact hlaps
      · exact hfault
      · exact ⟨rfl, rfl, hlaps⟩
    | gather course => exact absurd ha (by simp [Fact])
    | body b =>
      obtain ⟨hb, hq⟩ : knows q b ∧ _ := by simpa [Fact] using ha
      rcases placed_carried hx with
        ⟨next, hnext, rfl | rfl⟩ | ⟨helper, hhelper, rfl⟩ | ⟨l, hl, rfl⟩
      · exact ⟨hknown.goesOn hb hnext, hq⟩
      · exact ⟨hknown.goesOn hb hnext, hq⟩
      · exact ⟨hknown.helps hb hhelper, fun i hi => by cases hi⟩
      · cases q with
        | none => trivial
        | some i => exact ⟨congrArg Ending.lap (hknown.finish hb hl), hq i rfl⟩
  others _ _ h := h
  rejoin {s q a results} _ ha hresults := by
    cases a with
    | turn course => exact absurd ha (by simp [Fact])
    | settle course batch => exact absurd ha (by simp [Fact])
    | body b =>
      show Fact plan result knows q (.live (.body b))
      simpa [Fact] using ha
    | gather course =>
      obtain ⟨rfl, hplan, hlaps, -⟩ : q = none ∧ _ := by simpa [Fact] using ha
      have hends : ∀ (k : ℕ) e, results[k]? = some e → e = .lap (result (course.next + k)) :=
        fun k e he => (hresults k e he).1
      show Fact plan result knows none (.live (.settle (course.absorb _) _))
      rw [filterMap_lap? (f := fun k => result (course.next + k)) hends]
      exact ⟨rfl, hplan, hlaps.absorb _⟩
  outside _ _ := ⟨trivial, fun _ _ h => h⟩

theorem facts_start (s : σ) :
    Pool.HoldsAt seat none (fun _ => True) (fun _ => Fact plan result knows)
      (Pool.start s (.turn (.new plan)) : Pool σ (Driven β) Ending) :=
  Pool.holdsAt_start trivial ⟨rfl, rfl, fun i l h => by cases h⟩

/-- What a loop has ended with is at the origin. -/
theorem mem_placed_of_ended {d : Pool σ (Driven β) Ending} {e : Ending}
    (h : d.at? [0] = some (.ended e)) : (none, .ended e) ∈ d.placed seat none := by
  obtain ⟨root, hroot, hat⟩ := Option.bind_eq_some_iff.mp h
  obtain rfl : root = .ended e := Option.some.inj hat
  have hsplit : Task.placedAll seat d.tasks (fun _ => none) 0 = _ :=
    (Task.placedAll_of_getElem? hroot id (fun _ => none) 0).1
  rw [Pool.placed, hsplit]
  simp

/-! ### The end of every loop -/

/-- What descends in a loop: results are lowest, then come bodies, which are higher while
they wait, and then the loop, with its iterations left and a stage between them. -/
abbrev Rank (β : Type u) := ℕ ⊕ β × ℕ ⊕ ℕ × ℕ

/-- Bodies get lower by what comes out of them, if that has an end. -/
def Lower (bodies : Bodies σ β) : Rank β → Rank β → Prop :=
  Sum.Lex (· < ·) (Sum.Lex
    (Prod.Lex (fun b c => Acc (Comes bodies) c ∧ Comes bodies b c) (· < ·))
    (Prod.Lex (· < ·) (· < ·)))

theorem wellFounded_lower (bodies : Bodies σ β) : WellFounded (Lower bodies) := by
  have hcomes : WellFounded fun b c => Acc (Comes bodies) c ∧ Comes bodies b c := by
    refine ⟨fun b => .intro b fun c hc => ?_⟩
    have hacc : Acc (Comes bodies) c := hc.1.inv hc.2
    clear hc
    induction hacc with
    | intro c _ ih => exact .intro c fun d hd => ih d hd.2
  have hlt : WellFounded (fun m n : ℕ => m < n) := wellFounded_lt
  exact Sum.lex_wf hlt (Sum.lex_wf (hcomes.prod_lex hlt) (hlt.prod_lex hlt))

/-- The rank of what is in a loop. -/
def rank : Option ℕ → Occupant (Driven β) Ending → Rank β
  | _, .ended _ => .inl 0
  | _, .live (.body b) => .inr (.inl (b, 0))
  | _, .waiting (.body b) => .inr (.inl (b, 1))
  | _, .live (.turn course) => .inr (.inr (course.plan.count - course.next, 1))
  | _, .live (.settle course _) => .inr (.inr (course.plan.count - course.next, 2))
  | _, .live (.gather course) => .inr (.inr (course.plan.count - course.next, 2))
  | _, .waiting (.gather course) => .inr (.inr (course.plan.count - course.next, 0))
  | _, .waiting _ => .inr (.inr (0, 0))

/-- What is true of all that is in a loop, whatever its bodies return. -/
def Inhabits (plan : Plan) (good : β → Prop) : Option ℕ → Occupant (Driven β) Ending → Prop
  | _, .live (.body b) => good b
  | _, .waiting (.body b) => good b
  | some _, .ended e => ∃ l, e = .lap l
  | none, .ended (.fault fault) => CannotRest plan fault
  | none, .ended _ => True
  | q, .live (.turn course) => q = none ∧ course.plan = plan
  | q, .live (.settle course _) => q = none ∧ course.plan = plan
  | q, .waiting (.gather course) => q = none ∧ course.plan = plan ∧ course.next < plan.count
  | _, _ => False

variable {good : β → Prop}

/-- What is true of all that is in a loop stays true, if all bodies that come out of others are as
these. -/
theorem inhabits_kept (henter : ∀ i < plan.count, good (bodies.enter (plan.enter view i) i))
    (hcomes : ∀ {b after}, good b → Comes bodies after b → good after)
    (outside : σ → σ → Prop) :
    Pool.KeptAt (bodies.program view) outside seat none (fun _ => True)
      fun _ => Inhabits plan good where
  shared _ _ := trivial
  births {s q a} _ ha x hx := by
    cases a with
    | turn course =>
      obtain ⟨rfl, rfl⟩ : q = none ∧ course.plan = plan := ha
      rcases placed_turn hx with ⟨report, -, rfl⟩ | ⟨hlt, rfl | ⟨i, hi, rfl⟩⟩
      · trivial
      · exact ⟨rfl, rfl, hlt⟩
      · exact henter i hi
    | settle course batch =>
      obtain ⟨rfl, rfl⟩ : q = none ∧ course.plan = plan := ha
      rcases placed_settle hx with ⟨report, -, rfl⟩ | ⟨fault, hfault, rfl⟩ | rfl
      · trivial
      · exact hfault
      · exact ⟨rfl, rfl⟩
    | gather course => exact absurd ha (by simp [Inhabits])
    | body b =>
      have hb : good b := by simpa [Inhabits] using ha
      rcases placed_carried hx with
        ⟨next, hnext, rfl | rfl⟩ | ⟨helper, hhelper, rfl⟩ | ⟨l, hl, rfl⟩
      · exact hcomes hb ⟨s, .inl hnext⟩
      · exact hcomes hb ⟨s, .inl hnext⟩
      · exact hcomes hb ⟨s, .inr hhelper⟩
      · cases q with
        | none => trivial
        | some i => exact ⟨l, rfl⟩
  others _ _ h := h
  rejoin {s q a results} _ ha _ := by
    cases a with
    | turn course => exact absurd ha (by simp [Inhabits])
    | settle course batch => exact absurd ha (by simp [Inhabits])
    | body b =>
      show Inhabits plan good q (.live (.body b))
      simpa [Inhabits] using ha
    | gather course =>
      obtain ⟨rfl, hplan, -⟩ : q = none ∧ course.plan = plan ∧ _ := by simpa [Inhabits] using ha
      exact ⟨rfl, hplan⟩
  outside _ _ := ⟨trivial, fun _ _ h => h⟩

theorem inhabits_start (s : σ) :
    Pool.HoldsAt seat none (fun _ => True) (fun _ => Inhabits plan good)
      (Pool.start s (.turn (.new plan)) : Pool σ (Driven β) Ending) :=
  Pool.holdsAt_start trivial ⟨rfl, rfl⟩

theorem length_filterMap_lap? {endings : List Ending} (h : ∀ e ∈ endings, ∃ l, e = .lap l) :
    (endings.filterMap Ending.lap?).length = endings.length := by
  induction endings with
  | nil => rfl
  | cons e endings ih =>
    obtain ⟨⟨l, rfl⟩, hrest⟩ := List.forall_mem_cons.mp h
    simpa [Ending.lap?] using ih hrest

/-- Everything in a loop gets lower, if no body goes on without end. -/
theorem declines (hacc : ∀ {b}, good b → Acc (Comes bodies) b) :
    Pool.Declines (bodies.program view) seat none (fun _ => True)
      (fun _ => Inhabits plan good) (Lower bodies) rank where
  wellFounded := wellFounded_lower bodies
  births {s q a} _ ha x hx := by
    cases a with
    | turn course =>
      rcases placed_turn hx with ⟨report, -, rfl⟩ | ⟨-, rfl | ⟨i, -, rfl⟩⟩
      · exact .sep _ _
      · exact .inr (.inr (.right _ (by decide)))
      · exact .inr (.sep _ _)
    | settle course batch =>
      rcases placed_settle hx with ⟨report, -, rfl⟩ | ⟨fault, -, rfl⟩ | rfl
      · exact .sep _ _
      · exact .sep _ _
      · exact .inr (.inr (.right _ (by decide)))
    | gather course => exact absurd ha (by simp [Inhabits])
    | body b =>
      have hb : good b := by simpa [Inhabits] using ha
      rcases placed_carried hx with
        ⟨next, hnext, rfl | rfl⟩ | ⟨helper, hhelper, rfl⟩ | ⟨l, -, rfl⟩
      · exact .inr (.inl (.left _ _ ⟨hacc hb, s, .inl hnext⟩))
      · exact .inr (.inl (.left _ _ ⟨hacc hb, s, .inl hnext⟩))
      · exact .inr (.inl (.left _ _ ⟨hacc hb, s, .inr hhelper⟩))
      · exact .sep _ _
  rejoin {s q a results} _ ha hne hresults := by
    cases a with
    | turn course => exact absurd ha (by simp [Inhabits])
    | settle course batch => exact absurd ha (by simp [Inhabits])
    | body b => exact .inr (.inl (.right _ (by decide)))
    | gather course =>
      obtain ⟨rfl, rfl, hlt⟩ : q = none ∧ course.plan = plan ∧ _ := by simpa [Inhabits] using ha
      have hlaps : ∀ e ∈ results, ∃ l, e = .lap l := by
        intro e he
        obtain ⟨k, hk⟩ := List.mem_iff_getElem?.mp he
        exact hresults k e hk
      -- the batch has at least one lap, so there are fewer iterations left
      have hpos := List.length_pos_of_ne_nil hne
      rw [← length_filterMap_lap? hlaps] at hpos
      refine .inr (.inr (.left _ _ ?_))
      simp only [Course.absorb]
      omega

/-- A run of a loop is not stuck before the loop has ended. -/
theorem ended_or_move {outside : σ → σ → Prop} {s : σ} {c : Pool σ (Driven β) Ending}
    (h : Pool.Reaches (bodies.program view) outside (Pool.start s (.turn (.new plan))) c) :
    (∃ e, c.at? [0] = some (.ended e)) ∨ ∃ d, Pool.Move (bodies.program view) c d := by
  obtain ⟨told, htold⟩ := Pool.exists_told (bodies.tells view) h
  obtain ⟨t, ht, -⟩ := exists_phase htold
  rcases Pool.exists_move (bodies.program view) c with ⟨endings, hover⟩ | hmove
  · obtain ⟨e, rfl⟩ := Task.ended_of_results? hover ht
    exact .inl ⟨e, by simp [Pool.at?, ht, Task.at?]⟩
  · exact .inr hmove

/-- If no body goes on without end, every run of a loop comes to an end, and is not stuck before. -/
theorem comes_to_end (plan : Plan)
    (hacc : ∀ i < plan.count, Acc (Comes bodies) (bodies.enter (plan.enter view i) i))
    (outside : σ → σ → Prop) (s : σ) :
    Acc (fun d c => Pool.Move (bodies.program view) c d) (Pool.start s (.turn (.new plan))) ∧
      ∀ c, Pool.Reaches (bodies.program view) outside (Pool.start s (.turn (.new plan))) c →
        (∃ e, c.at? [0] = some (.ended e)) ∨ ∃ d, Pool.Move (bodies.program view) c d := by
  refine ⟨?_, fun c hc => ended_or_move hc⟩
  have hkept := inhabits_kept hacc (fun hb hafter => hb.inv hafter) outside
  exact (declines fun hb => hb).acc hkept (inhabits_start s) (Pool.forked_start _ _)

/-! ### What a loop ends with -/

/-- A loop ends with something, in some run in which the signal of cancellation was never
raised. -/
def Ends (bodies : Bodies σ β) (view : View) (plan : Plan) (e : Ending) : Prop :=
  ∃ (outside : σ → σ → Prop) (s : σ) (d : Pool σ (Driven β) Ending),
    Pool.Reaches (bodies.program view) outside (Pool.start s (.turn (.new plan))) d ∧
    d.at? [0] = some (.ended e) ∧
    ∀ m, Pool.Reaches (bodies.program view) outside (Pool.start s (.turn (.new plan))) m →
      Pool.Reaches (bodies.program view) outside m d → bodies.isCancelled m.shared = false

/-- A loop that was not cancelled cannot rest, or reports results, and is lawful. -/
theorem Ends.cases {e : Ending} (h : Ends bodies view plan e)
    (hknown : Known bodies view plan result knows) :
    (∃ fault, CannotRest plan fault ∧ e = .fault fault) ∨
      ∃ report told batches, e = .report report ∧ Truthful result report.laps ∧
        Lawful bodies view plan told report batches ∧ report.cancelled = false := by
  obtain ⟨outside, s, d, hreaches, hends, hnever⟩ := h
  have hfact : Fact plan result knows none (.ended e) :=
    ((facts_kept hknown outside).reaches (facts_start s) hreaches).2 _ (mem_placed_of_ended hends)
  obtain ⟨told, htold⟩ := Pool.exists_told (bodies.tells view) hreaches
  obtain ⟨t, ht, hphase⟩ := exists_phase htold
  obtain rfl : t = .ended e := by
    obtain ⟨root, hroot, hat⟩ := Option.bind_eq_some_iff.mp hends
    exact (Option.some.inj (ht.symm.trans hroot)).trans (Option.some.inj hat)
  cases hphase with
  | failed => exact .inl ⟨_, hfact, rfl⟩
  | @finished _ report batches hlawful =>
    refine .inr ⟨report, told, batches, rfl, hfact, hlawful, ?_⟩
    by_contra hcancelled
    obtain ⟨m, hm, hraised, hd⟩ := hlawful.raised htold (by simpa using hcancelled)
    rw [hnever m hm hd] at hraised
    cases hraised

theorem Truthful.eq_map {laps : List Lap} (h : Truthful result laps) :
    laps = (List.range laps.length).map result := by
  refine List.ext_getElem (by simp) fun i hi _ => ?_
  rw [h i _ (List.getElem?_eq_getElem hi)]
  simp

section Reports

variable {told : List (Event β)} {report : Report} {batches : List (List Lap)}

/-- A lap of the last batch is the result of an iteration that was started. -/
theorem Lawful.exists_index (h : Lawful bodies view plan told report batches)
    (htruth : Truthful result report.laps) {last : List Lap} (hlast : last ∈ batches.getLast?)
    {l : Lap} (hl : l ∈ last) : ∃ i < report.laps.length, l = result i := by
  have hmem : l ∈ report.laps := by
    rw [h.laps]
    exact List.mem_flatten.mpr ⟨last, List.mem_of_getLast? hlast, hl⟩
  obtain ⟨i, hi⟩ := List.mem_iff_getElem?.mp hmem
  exact ⟨i, (List.getElem?_eq_some_iff.mp hi).1, htruth i l hi⟩

/-- A loop in which nothing stops it reports all its iterations. -/
theorem Lawful.report_eq (h : Lawful bodies view plan told report batches)
    (htruth : Truthful result report.laps) (hcancelled : report.cancelled = false)
    (hgoes : plan.settings.stopsOnFailure = true →
      ∀ i < report.laps.length, (result i).success = true) :
    report = ⟨plan.count, (List.range plan.count).map result, true, false, false, none⟩ := by
  have hnone : ¬ (plan.settings.stopsOnFailure = true ∧
      ∃ last ∈ batches.getLast?, ∃ l ∈ last, l.success = false) := by
    rintro ⟨hstops, last, hlast, l, hl, hfailed⟩
    obtain ⟨i, hi, rfl⟩ := h.exists_index htruth hlast hl
    rw [hgoes hstops i hi] at hfailed
    cases hfailed
  have hall : report.laps.length = plan.count := by
    refine Nat.le_antisymm h.bounded (Nat.not_lt.mp fun hlt => ?_)
    rcases h.reason hlt with hraised | hfailure
    · rw [hcancelled] at hraised
      cases hraised
    · exact hnone hfailure
  have hsuccess : report.success = true := by
    by_contra hfailed
    obtain ⟨hstops, last, hlast, l, hl, hbreaks⟩ := h.success.mp (by simpa using hfailed)
    exact hnone ⟨hstops, last, hlast, l, hl, hbreaks.1⟩
  have hearly : report.stoppedEarly = false := by
    by_contra hearly
    have hlt := h.stoppedEarly.mp (by simpa using hearly)
    omega
  have hlaps := htruth.eq_map
  rw [hall] at hlaps
  have hcount := h.iterationCount
  have herror := h.error_of_success hsuccess
  cases report
  simp_all

/-- A loop that stops on failures reports the iterations up to the end of the batch with the
first one. -/
theorem Lawful.laps_eq (h : Lawful bodies view plan told report batches)
    (htruth : Truthful result report.laps) (hcancelled : report.cancelled = false)
    (hstops : plan.settings.stopsOnFailure = true) {f : ℕ} (hf : f < plan.count)
    (hfailed : (result f).success = false) (hfirst : ∀ i < f, (result i).success = true) :
    report.laps = (List.range (min plan.count
      (plan.settings.batchSize * (f / plan.settings.batchSize + 1)))).map result := by
  obtain ⟨rounds, -, -, hrounds, -⟩ := h.told
  obtain ⟨before, hbefore⟩ := hrounds.dropLast
  have hlength := hrounds.length_eq
  rw [← h.laps] at hlength
  have hdropped := hbefore.length_eq
  rw [List.length_dropLast] at hdropped
  -- the failure was started, for nothing else has stopped the loop
  have hstarted : f < report.laps.length := by
    by_contra hout
    have hgoes : ∀ i < report.laps.length, (result i).success = true :=
      fun i hi => hfirst i (by omega)
    have hall := congrArg (fun r : Report => r.laps.length)
      (h.report_eq htruth hcancelled fun _ => hgoes)
    simp only [List.length_map, List.length_range] at hall
    omega
  -- and it was not started before the last batch, for there is no failure
  have hlast : batches.dropLast.flatten.length ≤ f := by
    by_contra hin
    have hlt : f < batches.dropLast.flatten.length := by omega
    obtain ⟨rest, hrest⟩ : batches.dropLast.flatten <+: report.laps := by
      rw [h.laps]
      exact (List.dropLast_prefix batches).flatten
    have hlap : batches.dropLast.flatten[f] = result f := by
      refine htruth f _ ?_
      rw [← hrest, List.getElem?_append_left hlt, List.getElem?_eq_getElem hlt]
    obtain ⟨batch, hbatch, hmem⟩ := List.mem_flatten.mp (List.getElem_mem hlt)
    have hsuccess := h.earlier hstops batch hbatch _ hmem
    rw [hlap, hfailed] at hsuccess
    cases hsuccess
  obtain ⟨m, hm⟩ : ∃ m, batches.length = m + 1 := by
    refine Nat.exists_eq_succ_of_ne_zero fun hzero => ?_
    rw [hzero, Nat.mul_zero, Nat.min_zero] at hlength
    omega
  rw [hm] at hlength hdropped
  rw [Nat.add_sub_cancel] at hdropped
  have hplace : f / plan.settings.batchSize = m := by
    refine Nat.div_eq_of_lt_le ?_ ?_ <;> rw [Nat.mul_comm] <;> omega
  rw [htruth.eq_map, hlength, hplace]

end Reports

/-! ### Sequential and async loops -/

/-- The same loop, one iteration after another. -/
def Plan.sequential (plan : Plan) : Plan :=
  { plan with settings := { plan.settings with isAsync := false } }

/-- The same loop, in batches. -/
def Plan.inBatches (plan : Plan) (size : ℕ) : Plan :=
  { plan with settings := { plan.settings with isAsync := true, authoredBatchSize := size } }

theorem batchSize_sequential (plan : Plan) : plan.sequential.settings.batchSize = 1 := rfl

theorem batchSize_inBatches (plan : Plan) {size : ℕ} (h : 1 ≤ size) :
    (plan.inBatches size).settings.batchSize = size :=
  Nat.max_eq_right h

namespace Sample

/-- What the body of an iteration returns. -/
def lapOf (breaking i : ℕ) : Lap := if i = breaking then broken else whole

/-- The bodies return what their iteration says, and no body goes on without end. -/
theorem determined (breaking : ℕ) (p : Plan) :
    Determined (breakingAt breaking) outset p (lapOf breaking)
      fun b l => l = lapOf breaking b.1 where
  enter _ _ := rfl
  goesOn {s b l next} hl hnext := by
    rcases b with ⟨i, - | -⟩
    · obtain rfl := Option.some.inj hnext
      exact hl
    · cases hnext
  finish {s b l r} hl hr := by
    rcases b with ⟨i, - | -⟩
    · cases hr
    · exact (Directive.finish.inj hr).symm.trans hl.symm

theorem acc_comes (breaking : ℕ) (b : ℕ × Bool) : Acc (Comes (breakingAt breaking)) b := by
  have hlast : ∀ i, Acc (Comes (breakingAt breaking)) (i, true) := by
    refine fun i => .intro _ fun c hc => ?_
    rcases hc with ⟨s, hc | hc⟩ <;> cases hc
  rcases b with ⟨i, - | -⟩
  · refine .intro _ fun c hc => ?_
    rcases hc with ⟨s, hc | hc⟩
    · obtain rfl := Option.some.inj hc
      exact hlast i
    · cases hc
  · exact hlast i

theorem ends_after (breaking : ℕ) (p : Plan) (steps : ℕ) {e : Ending}
    (h : (after breaking p steps).at? [0] = some (.ended e)) :
    Ends (breakingAt breaking) outset p e :=
  ⟨fun _ _ => False, (), after breaking p steps, reaches_after breaking p steps, h,
    fun _ _ _ => rfl⟩

/-- A loop has ended with a fault. -/
def hasFailed (d : Pool Unit (Driven (ℕ × Bool)) Ending) : Bool :=
  match d.at? [0] with
  | some (.ended (.fault _)) => true
  | _ => false

theorem exists_fault {d : Pool Unit (Driven (ℕ × Bool)) Ending} (h : hasFailed d = true) :
    ∃ fault, d.at? [0] = some (.ended (.fault fault)) := by
  unfold hasFailed at h
  split at h
  · next fault hat => exact ⟨fault, hat⟩
  · cases h

end Sample

end Automation.Loop
