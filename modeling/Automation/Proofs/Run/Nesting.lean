/-
Automation/Proofs/Run/Nesting.lean

What a branch sees of the loops around it.

A branch is in the iterations of the loops that wait for it; they are its nest (`enclosing`).  A
loop goes on in its own nest, and each of its iterations is in one that is longer by the plan of the
loop and the index.  In every run each branch lies inside its nest: it sees what the iterations of
the nest bind, inner ones over outer ones, and the frame of each (`enclosed_kept`).

A run tells of each loop that is begun the scope in which it is and the plan by which it proceeds
(`begun`).  A loop is taken once in a scope, so it has one plan there (`Ledger`); hence a scope
stands for one nest throughout a run (`Ledger.nest_eq`), and whatever happens in a loop, behind it
the branch sees what it saw in front of it.
-/
import Automation.Proofs.Loop.Nest
import Automation.Proofs.Run.Iterations
import Automation.Proofs.Run.Visibility

namespace Automation.Run

open Automation.Binding
open Automation.Loop (Nest Plan)
open Automation.Schedule (Noting Occupant Pool Task)

variable {setup : Setup}

/-! ### Nests of branches -/

/-- The nest of a branch that another one waits for: that of the other one or, where a loop waits
for a batch, the nest of an iteration. -/
def enclosing (nest : Nest) : Strand → ℕ → Nest
  | .gather _ course _, k => nest ++ [(course.plan, course.next + k)]
  | _, _ => nest

/-- The plan of the loop that a branch carries out. -/
def Strand.plan? : Strand → Option Plan
  | .turn _ course _ => some course.plan
  | .gather _ course _ => some course.plan
  | .settle _ course _ _ => some course.plan
  | _ => none

/-- The loop that a step begins, with its scope and plan. -/
def begun : Strand → Task Strand Report → List (Scope × Plan)
  | .visit _ b, .live (.turn _ course _) => [(b.view.scope, course.plan)]
  | _, _ => []

/-- All loops of a nest were told of, each in the scope around it. -/
def Recorded (told : List (Scope × Plan)) (nest : Nest) : Prop :=
  ∀ outer e inner, nest = outer ++ e :: inner → (Nest.scope outer, e.1) ∈ told

theorem Recorded.append {told : List (Scope × Plan)} {nest : Nest} (h : Recorded told nest)
    (more : List (Scope × Plan)) : Recorded (told ++ more) nest :=
  fun outer e inner hnest => List.mem_append_left _ (h outer e inner hnest)

/-- An iteration of a loop that was told of. -/
theorem Recorded.enter {told : List (Scope × Plan)} {nest : Nest} {p : Plan}
    (h : Recorded told nest) (hp : (Nest.scope nest, p) ∈ told) (i : ℕ) :
    Recorded told (nest ++ [(p, i)]) := by
  intro outer e inner hnest
  rcases List.eq_nil_or_concat inner with rfl | ⟨front, last, rfl⟩
  · obtain ⟨rfl, hlast⟩ := List.append_inj' hnest rfl
    obtain rfl := List.singleton_inj.mp hlast
    exact hp
  · -- the loop is around the last one
    rw [List.concat_eq_append, ← List.cons_append, ← List.append_assoc] at hnest
    obtain ⟨rfl, -⟩ := List.append_inj' hnest rfl
    exact h outer e front rfl

/-- A branch has its grounds and lies inside its nest, and the loops of the nest and the one that
the branch carries out were told of. -/
structure Enclosed (setup : Setup) (j : Journal) (told : List (Scope × Plan)) (nest : Nest)
    (a : Strand) : Prop where
  grounded : Grounded setup j a
  inside : ∀ view, a.view? = some view → Nest.Inside nest view
  recorded : Recorded told nest
  plan : ∀ p, a.plan? = some p → (Nest.scope nest, p) ∈ told

section Branches

variable {j : Journal} {told : List (Scope × Plan)} {nest : Nest} {a b : Strand}

theorem Enclosed.adding (h : Enclosed setup j told nest a) (events : List Event)
    (more : List (Scope × Plan)) : Enclosed setup (j.adding events) (told ++ more) nest a :=
  ⟨h.grounded.mono events, h.inside, h.recorded.append more,
    fun p hp => List.mem_append_left _ (h.plan p hp)⟩

/-- A branch that goes on in its nest, and carries out no other loop. -/
theorem Enclosed.goesOn (h : Enclosed setup j told nest a) {k : Journal}
    (hgrounded : Grounded setup k b)
    (hview : ∀ view, b.view? = some view → ∃ old, a.view? = some old ∧
      view.scope = old.scope ∧ view.loopScope = old.loopScope ∧ view.loopFrames = old.loopFrames)
    (hplan : ∀ p, b.plan? = some p → a.plan? = some p) : Enclosed setup k told nest b := by
  refine ⟨hgrounded, fun view hb => ?_, h.recorded, fun p hp => h.plan p (hplan p hp)⟩
  obtain ⟨old, ha, hscope, hbound, hframes⟩ := hview view hb
  obtain ⟨hscope', hbound', hframes'⟩ := h.inside old ha
  exact ⟨hscope.trans hscope', hbound.trans hbound', hframes.trans hframes'⟩

/-- What comes of a deed is in its nest. -/
theorem Deed.enclosed {events : List Event} {task : Task Strand Report}
    (h : Deed setup j a events task) (ha : Enclosed setup j told nest a) :
    ∀ x ∈ task.placed enclosing nest, ∀ b, stateAt x.2 = some b →
      Enclosed setup (j.adding events) (told ++ begun a task) x.1 b := by
  have hlater := ha.adding events (begun a task)
  have hgrounded := h.grounded ha.grounded
  intro x hx c hc
  cases h with
  | turnBack | repeated | abort | stop | merge | close =>
    obtain rfl := List.mem_singleton.mp hx
    cases hc
  | @start id b n opening next htakes henabled hopening =>
    obtain rfl := List.mem_singleton.mp hx
    obtain rfl := Option.some.inj hc
    have hnext := hgrounded _ (List.mem_singleton_self _)
    cases hopening with
    | @loop config plan hloop hplan =>
      refine ⟨hnext, hlater.inside, hlater.recorded, ?_⟩
      rintro p ⟨⟩
      rw [← (ha.inside b.view rfl).scope]
      exact List.mem_append_right _ (List.mem_singleton_self _)
    | _ => exact hlater.goesOn hnext (fun view hview => ⟨view, hview, rfl, rfl, rfl⟩) nofun
  | @batch n course b count _ _ _ =>
    rcases exists_of_mem_placed_batch hx with rfl | ⟨k, hk, rfl⟩
    · obtain rfl := Option.some.inj hc
      exact hlater.goesOn (hgrounded _ List.mem_cons_self)
        (fun view hview => ⟨view, hview, rfl, rfl, rfl⟩) fun p hp => hp
    · obtain rfl := Option.some.inj hc
      have hin : course.next + k ∈ List.range' course.next count :=
        List.mem_range'_1.mpr (by omega)
      refine ⟨hgrounded _ (Task.mem_states_forked.mpr (.inr ⟨_, hin, rfl⟩)), ?_,
        hlater.recorded.enter (hlater.plan _ rfl) _, nofun⟩
      rintro view ⟨⟩
      exact (hlater.inside b.view rfl).enter course.plan (course.next + k)
  | @fan targets b _ =>
    rcases exists_of_mem_placed_fan hx with rfl | ⟨k, target, htarget, rfl⟩
    · obtain rfl := Option.some.inj hc
      exact hlater.goesOn (hgrounded _ List.mem_cons_self) nofun nofun
    · obtain rfl := Option.some.inj hc
      exact hlater.goesOn (hgrounded _ (Task.mem_states_forked.mpr (.inr ⟨target, htarget, rfl⟩)))
        (fun view hview => ⟨view, hview, rfl, rfl, rfl⟩) nofun
  | @leave n outcome b _ =>
    obtain rfl := List.mem_singleton.mp hx
    obtain rfl := Option.some.inj hc
    refine hlater.goesOn (hgrounded _ (List.mem_singleton_self _)) ?_ nofun
    -- what is written is a result
    rintro view ⟨⟩
    exact ⟨b.view, rfl, rfl, rfl, rfl⟩
  | again =>
    obtain rfl := List.mem_singleton.mp hx
    obtain rfl := Option.some.inj hc
    exact hlater.goesOn (hgrounded _ (List.mem_singleton_self _))
      (fun view hview => ⟨view, hview, rfl, rfl, rfl⟩) fun p hp => hp
  | _ =>
    obtain rfl := List.mem_singleton.mp hx
    obtain rfl := Option.some.inj hc
    exact hlater.goesOn (hgrounded _ (List.mem_singleton_self _))
      (fun view hview => ⟨view, hview, rfl, rfl, rfl⟩) nofun

theorem Enclosed.rejoin (h : Enclosed setup j told nest a) (reports : List Report) :
    Enclosed setup j told nest (rejoin a reports) := by
  refine h.goesOn (h.grounded.rejoin reports) ?_ ?_
  · intro view hview
    refine ⟨view, ?_, rfl, rfl, rfl⟩
    cases a <;> exact hview
  · cases a <;> exact fun p hp => hp

end Branches

/-! ### The loops of a run -/

/-- A plan is made in a scope by the settings of a loop. -/
def MadeIn (setup : Setup) (scope : Scope) (p : Plan) : Prop :=
  ∃ n view, setup.graph.node? p.loop = some n ∧ n.isLoop = true ∧ view.scope = scope ∧
    planFor setup n view = .ok p

/-- Each loop that was told of was taken in its scope, and told of once there. -/
structure Ledger (setup : Setup) (j : Journal) (told : List (Scope × Plan)) : Prop where
  once : (told.map fun e => (e.1, e.2.loop)).Nodup
  claimed : ∀ e ∈ told, .claimed e.1 e.2.loop ∈ j
  made : ∀ e ∈ told, MadeIn setup e.1 e.2

section Loops

variable {j : Journal} {told : List (Scope × Plan)}

theorem Ledger.adding (h : Ledger setup j told) (events : List Event) :
    Ledger setup (j.adding events) told :=
  ⟨h.once, fun e he => by simp [h.claimed e he], h.made⟩

/-- A loop that is taken now is told of for the first time in its scope. -/
theorem Ledger.record (h : Ledger setup j told) {events : List Event} {scope : Scope} {p : Plan}
    (hfresh : .claimed scope p.loop ∉ j) (hclaimed : .claimed scope p.loop ∈ events)
    (hmade : MadeIn setup scope p) : Ledger setup (j.adding events) (told ++ [(scope, p)]) where
  once := by
    rw [List.map_append, List.nodup_append]
    refine ⟨h.once, List.nodup_singleton _, fun old hold new hnew heq => ?_⟩
    obtain ⟨e, he, rfl⟩ := List.mem_map.mp hold
    obtain rfl := List.mem_singleton.mp hnew
    obtain ⟨hscope, hloop⟩ := Prod.mk.inj heq
    have hold := h.claimed e he
    rw [hscope, hloop] at hold
    exact hfresh hold
  claimed := by
    refine List.forall_mem_append.mpr ⟨(h.adding events).claimed, ?_⟩
    exact List.forall_mem_singleton.mpr (by simp [hclaimed])
  made := List.forall_mem_append.mpr ⟨h.made, List.forall_mem_singleton.mpr hmade⟩

theorem Deed.ledger {a : Strand} {events : List Event} {task : Task Strand Report}
    (h : Deed setup j a events task) (hprepared : Prepared setup a task)
    (hj : Ledger setup j told) : Ledger setup (j.adding events) (told ++ begun a task) := by
  have hlater := hj.adding events
  cases h with
  | @start id b n opening next htakes henabled hopening =>
    cases hopening with
    | @loop config plan hloop hplan =>
      have hplanned : plan.loop = id :=
        (loop_of_planOf hplan).trans (Graph.id_of_node? htakes.node)
      have hfresh : .claimed b.view.scope plan.loop ∉ j := by
        rw [hplanned, ← Journal.hasClaimed_iff, htakes.claimed]
        decide
      exact hj.record (p := plan) hfresh (by simp [hplanned])
        ⟨n, b.view, hplanned ▸ htakes.node, hloop, rfl, hprepared⟩
    | _ => exact (List.append_nil told).symm ▸ hlater
  | _ => exact (List.append_nil told).symm ▸ hlater

theorem Ledger.plan_eq (h : Ledger setup j told) {scope : Scope} {p q : Plan}
    (hp : (scope, p) ∈ told) (hq : (scope, q) ∈ told) (hloop : p.loop = q.loop) : p = q :=
  congrArg Prod.snd (List.inj_on_of_nodup_map h.once hp hq (congrArg (scope, ·) hloop))

/-- A scope stands for one nest. -/
theorem Ledger.nest_eq (h : Ledger setup j told) {m n : Nest} (hm : Recorded told m)
    (hn : Recorded told n) (hscope : Nest.scope m = Nest.scope n) : m = n := by
  induction m using List.reverseRecOn generalizing n with
  | nil => exact (List.map_eq_nil_iff.mp hscope.symm).symm
  | append_singleton m e ih =>
    rcases List.eq_nil_or_concat n with rfl | ⟨n, d, rfl⟩
    · exact absurd hscope (by simp [Nest.scope])
    rw [List.concat_eq_append] at hn hscope ⊢
    rw [Nest.scope_concat, Nest.scope_concat] at hscope
    obtain ⟨hscope, hlast⟩ := List.append_inj' hscope rfl
    obtain ⟨hloop, hindex⟩ := Prod.mk.inj (List.singleton_inj.mp hlast)
    have hsame : m = n := by
      refine ih (fun outer e inner hm' => ?_) (fun outer e inner hn' => ?_) hscope
      · exact hm outer e (inner ++ _) (by rw [hm', List.append_assoc]; rfl)
      · exact hn outer e (inner ++ _) (by rw [hn', List.append_assoc]; rfl)
    subst hsame
    have hplan : e.1 = d.1 := h.plan_eq (hm m e [] rfl) (hn m d [] rfl) hloop
    rw [Prod.ext hplan (Int.ofNat_inj.mp hindex)]

end Loops

/-- Runs keep their branches inside their nests. -/
theorem enclosed_kept : Pool.KeptAt ((program setup).noted (notes setup begun)) (Noting Disturbs)
    enclosing [] (fun s => Ledger setup s.1.journal s.2)
    (fun s nest x => ∀ a, stateAt x = some a → Enclosed setup s.1.journal s.2 nest a) :=
  keptAt_of_deeds_noted (J := Ledger setup)
    (K := fun j told nest x => ∀ a, stateAt x = some a → Enclosed setup j told nest a)
    (fun hj _ h hprepared => h.ledger hprepared hj)
    (fun _ ha h _ => h.enclosed (ha _ rfl))
    (fun _ ha _ _ hb => Option.some.inj hb ▸ (ha _ rfl).rejoin _)
    (fun hj => hj.adding [.cancelled])
    (fun events more hx a ha => (hx a ha).adding events more)

theorem enclosed_opening (setup : Setup) (given : Given) (world : World) :
    Pool.HoldsAt enclosing [] (fun s => Ledger setup s.1.journal s.2)
      (fun s nest x => ∀ a, stateAt x = some a → Enclosed setup s.1.journal s.2 nest a)
      ((opening setup given world).withNotes ([] : List (Scope × Plan))) := by
  refine Pool.holdsAt_start ⟨List.nodup_nil, nofun, nofun⟩ fun a ha => ?_
  obtain rfl := Option.some.inj ha
  refine ⟨⟨nested_nil, .start⟩, ?_, ?_, nofun⟩
  · rintro view ⟨⟩
    exact ⟨rfl, rfl, rfl⟩
  · exact fun outer e inner hnest => absurd hnest.symm (by simp)

/-! ### Runs -/

section Runs

variable {given : Given} {world : World} {c d : Pool State Strand Report}
  {told : List (Scope × Plan)}

/-- A run with the loops that it has begun. -/
abbrev BeginsLoops (setup : Setup) (given : Given) (world : World) :
    List (Scope × Plan) → Pool State Strand Report → Prop :=
  Pool.Told (program setup) Disturbs (fun _ => notes setup begun) (opening setup given world)

/-- In every run each loop is told of once in a scope, and each branch lies inside its nest. -/
theorem enclosed_of_begins (h : BeginsLoops setup given world told c) :
    Ledger setup c.shared.journal told ∧ ∀ nest x, (nest, x) ∈ c.placed enclosing [] →
      ∀ a, stateAt x = some a → Enclosed setup c.shared.journal told nest a := by
  obtain ⟨hledger, hall⟩ := enclosed_kept.reaches (enclosed_opening setup given world) h.noted
  exact ⟨hledger, fun nest x hx => hall (nest, x) hx⟩

/-- Every branch of a pool is in some nest. -/
theorem exists_nest {a : Strand} (h : a ∈ c.states) :
    ∃ nest x, (nest, x) ∈ c.placed enclosing [] ∧ stateAt x = some a := by
  obtain ⟨nest, hlive | hwaiting⟩ :=
    Task.exists_placedAll_of_statesAll enclosing c.tasks (fun _ => []) 0 h
  · exact ⟨nest, _, hlive, rfl⟩
  · exact ⟨nest, _, hwaiting, rfl⟩

/-- The loops of a nest are different. -/
theorem Enclosed.nodup_loops {j : Journal} {nest : Nest} {a : Strand}
    (h : Enclosed setup j told nest a) {view : View} (hview : a.view? = some view) :
    (Nest.loops nest).Nodup := by
  have hnested : Nested setup view.scope := h.grounded.nested (congrArg (·.map View.scope) hview)
  have hloops : view.scope.map (·.1) = Nest.loops nest := by
    rw [(h.inside view hview).scope, Nest.scope, List.map_map]
    rfl
  exact hloops ▸ hnested.nodup

/-- What a branch sees of the loops depends on its scope only, throughout a run. -/
theorem bindings_eq_of_scope_eq (hc : Reaches setup (opening setup given world) c)
    (hd : Reaches setup c d) {a b : Strand} (ha : a ∈ c.states) (hb : b ∈ d.states) {v w : View}
    (hv : a.view? = some v) (hw : b.view? = some w) (hscope : v.scope = w.scope) :
    v.loopScope = w.loopScope ∧ v.loopFrames = w.loopFrames := by
  obtain ⟨told, htold⟩ := Pool.exists_told (fun _ => notes setup begun) hc
  obtain ⟨more, hmore⟩ := htold.exists_append hd
  obtain ⟨-, hearly⟩ := enclosed_of_begins htold
  obtain ⟨hledger, hlate⟩ := enclosed_of_begins hmore
  obtain ⟨m, x, hx, hax⟩ := exists_nest ha
  obtain ⟨n, y, hy, hby⟩ := exists_nest hb
  have hm := hearly m x hx a hax
  have hn := hlate n y hy b hby
  have hinm := hm.inside v hv
  have hinn := hn.inside w hw
  -- both scopes stand for the nest that was told of
  have hnest : m = n := by
    refine hledger.nest_eq (hm.recorded.append more) hn.recorded ?_
    rw [← hinm.scope, hscope, hinn.scope]
  subst hnest
  exact ⟨hinm.bound.trans hinn.bound.symm, hinm.frames.trans hinn.frames.symm⟩

end Runs

/-- What branches see of the loops around them.  In every run each branch is in a nest of
iterations, and its scope is that of the nest.  It has the frames of these loops and no others; the
loops are different, and each runs by the plan that its settings make in the scope around it.  If
the loops can be addressed, the frame of each tells the index, the number of iterations and the
counter of its iteration, and the names that all iterations bind are those of the innermost one.
And whatever has happened between two moments of a run, branches in the same scope see the same
bindings and frames; so behind a loop a branch sees again what it saw in front of it. -/
theorem loops_bind_by_nest (setup : Setup) (given : Given) (world : World) :
    (∀ c, Reaches setup (opening setup given world) c →
      (∀ a ∈ c.states, ∃ nest x, (nest, x) ∈ c.placed enclosing [] ∧ stateAt x = some a) ∧
      ∀ nest x a view, (nest, x) ∈ c.placed enclosing [] → stateAt x = some a →
        a.view? = some view →
        view.scope = Nest.scope nest ∧ view.loopFrames.keys = Nest.loops nest ∧
        (Nest.loops nest).Nodup ∧
        (∀ outer e inner, nest = outer ++ e :: inner → MadeIn setup (Nest.scope outer) e.1) ∧
        ((∀ e ∈ nest, e.1.Addressable) →
          (∀ e ∈ nest,
            view.resolve (bindingTo (e.1.reference "index")) = .ok (.int e.2) ∧
            view.resolve (bindingTo (e.1.reference "total")) = .ok (.int e.1.count) ∧
            view.resolve (bindingTo (e.1.reference "iteration"))
              = .ok (.int (e.1.settings.counterStart + e.2))) ∧
          ∀ (outer : Nest) (p : Plan) (i : ℕ), nest = outer ++ [(p, i)] →
            view.resolve (bindingTo "loop.index") = .ok (.int i) ∧
            view.resolve (bindingTo "loop_iteration")
              = .ok (.int (p.settings.counterStart + i)) ∧
            view.resolve (bindingTo "loop.isFirst") = .ok (.bool (i = 0)) ∧
            view.resolve (bindingTo "loop.isLast") = .ok (.bool (i + 1 = p.count)) ∧
            view.resolve (bindingTo "loop.total") = .ok (.int p.count))) ∧
    ∀ c d, Reaches setup (opening setup given world) c → Reaches setup c d →
      ∀ a ∈ c.states, ∀ b ∈ d.states, ∀ v w, a.view? = some v → b.view? = some w →
        v.scope = w.scope → v.loopScope = w.loopScope ∧ v.loopFrames = w.loopFrames := by
  refine ⟨fun c hc => ⟨fun a ha => exists_nest ha, fun nest x a view hx ha hview => ?_⟩,
    fun c d hc hd a ha b hb v w hv hw => bindings_eq_of_scope_eq hc hd ha hb hv hw⟩
  obtain ⟨told, htold⟩ := Pool.exists_told (fun _ => notes setup begun) hc
  obtain ⟨hledger, hall⟩ := enclosed_of_begins htold
  have henclosed := hall nest x hx a ha
  have hinside := henclosed.inside view hview
  have hnodup := henclosed.nodup_loops hview
  refine ⟨hinside.scope, ?_, hnodup, ?_, fun haddressable => ⟨fun e he => ⟨?_, ?_, ?_⟩, ?_⟩⟩
  · rw [hinside.frames, Nest.keys_frames hnodup]
  · exact fun outer e inner hnest => hledger.made _ (henclosed.recorded outer e inner hnest)
  · exact hinside.resolve_frame hnodup haddressable he rfl
  · exact hinside.resolve_frame hnodup haddressable he rfl
  · exact hinside.resolve_frame hnodup haddressable he rfl
  · rintro outer p i rfl
    have hnames : ∀ n ∈ p.names, n ∉ Plan.reservedNames :=
      fun n hn => ((haddressable (p, i) (by simp)).names n hn).2.1
    refine ⟨?_, ?_, ?_, ?_, ?_⟩
    · exact hinside.resolve_innermost hnames rfl
    · exact hinside.resolve_innermost hnames rfl
    · rw [← Plan.isFirst_natCast]
      exact hinside.resolve_innermost hnames rfl
    · rw [← Plan.isLast_natCast]
      exact hinside.resolve_innermost hnames rfl
    · exact hinside.resolve_innermost hnames rfl

namespace Sample

/-- A loop of two iterations around another one, with a node behind the inner one. -/
def nestedLoops : Setup where
  graph :=
    { document :=
        { authoredNodes := some [node "a" "start" [], node "l" "loop" [("maxIterations", .int 2)],
            node "m" "loop" [("maxIterations", .int 2)], node "z" "step" [], node "y" "step" []]
          authoredEdges := some [edge "1" "a" "l" none, edge "2" "l" "m" (some "each"),
            edge "3" "m" "z" (some "each"), edge "4" "m" "y" (some "after")]
          authoredTrigger := none
          authoredComponent := none
          others := [] }
      start := node "a" "start" []
      sound := rfl
      start_mem := by simp [Document.nodes]
      start_isStart := isStart_node }
  registry := registry
  defaultMaxIterations := 500

/-- A branch is in a scope and in a nest of loops that can be addressed. -/
def isNested (scope : Scope) (x : Nest × Occupant Strand Report) : Bool :=
  match (stateAt x.2).bind Strand.view? with
  | some view => decide (view.scope = scope) && x.1.all fun e => decide e.1.Addressable
  | none => false

theorem exists_view_of_isNested {scope : Scope} {x : Nest × Occupant Strand Report}
    (h : isNested scope x = true) : ∃ a view, stateAt x.2 = some a ∧ a.view? = some view ∧
      view.scope = scope ∧ ∀ e ∈ x.1, e.1.Addressable := by
  unfold isNested at h
  split at h
  · next view hview =>
    obtain ⟨a, ha, hview⟩ := Option.bind_eq_some_iff.mp hview
    exact ⟨a, view, ha, hview, by simpa using h⟩
  · cases h

/-- A branch is to go on at some nodes in a scope. -/
def isAt (nodes : List String) (scope : Scope) (a : Strand) : Bool :=
  decide (a.heads = nodes ∧ a.scope? = some scope)

end Sample

/-- In the first iteration of the inner loop, in the second one of the outer loop, a branch sees
both; and the node behind the inner loop sees what the inner loop saw. -/
theorem loops_bind_by_nest_in_sample :
    (∃ view : View, view.scope = [("l", 1), ("m", 0)] ∧ view.loopFrames.keys = ["l", "m"] ∧
      view.resolve (bindingTo "l._loop.index") = .ok (.int 1) ∧
      view.resolve (bindingTo "m._loop.index") = .ok (.int 0) ∧
      view.resolve (bindingTo "loop.index") = .ok (.int 0)) ∧
    ∃ a ∈ (Sample.after Sample.nestedLoops 6).states,
      ∃ b ∈ (Sample.after Sample.nestedLoops 26).states, ∃ v w : View, a.view? = some v ∧
        b.view? = some w ∧ a.heads = ["m"] ∧ b.heads = ["y"] ∧ v.scope = [("l", 0)] ∧
        v.loopScope = w.loopScope ∧ v.loopFrames = w.loopFrames := by
  obtain ⟨hsees, hsame⟩ := loops_bind_by_nest Sample.nestedLoops Sample.given Sample.world
  constructor
  · have hnested : ((Sample.after Sample.nestedLoops 37).placed enclosing []).any
        (Sample.isNested [("l", 1), ("m", 0)]) = true := by decide +kernel
    obtain ⟨⟨nest, x⟩, hx, hin⟩ := List.any_eq_true.mp hnested
    obtain ⟨a, view, ha, hview, hscope, haddressable⟩ := Sample.exists_view_of_isNested hin
    obtain ⟨hnest, hframes, -, -, hbinds⟩ :=
      (hsees _ (Sample.reaches_after _ 37)).2 nest x a view hx ha hview
    obtain ⟨hall, hlast⟩ := hbinds haddressable
    obtain ⟨⟨p, i⟩, nest, rfl, hp, hrest⟩ := List.map_eq_cons_iff.mp (hnest.symm.trans hscope)
    obtain ⟨⟨q, k⟩, nest, rfl, hq, hnil⟩ := List.map_eq_cons_iff.mp hrest
    obtain rfl := List.map_eq_nil_iff.mp hnil
    obtain ⟨hp, hi⟩ := Prod.mk.inj hp
    obtain ⟨hq, hk⟩ := Prod.mk.inj hq
    obtain rfl : i = 1 := Int.ofNat_inj.mp hi
    obtain rfl : k = 0 := Int.ofNat_inj.mp hk
    have hloops : p.reference "index" = "l._loop.index" ∧
        q.reference "index" = "m._loop.index" := by
      rw [Plan.reference, Plan.reference, hp, hq]
      exact ⟨rfl, rfl⟩
    refine ⟨view, hscope, ?_, ?_, ?_, (hlast [(p, 1)] q 0 rfl).1⟩
    · rw [hframes, ← hp, ← hq]
      rfl
    · exact hloops.1 ▸ (hall (p, 1) List.mem_cons_self).1
    · exact hloops.2 ▸ (hall (q, 0) (by simp)).1
  · have hbefore : (Sample.after Sample.nestedLoops 6).states.any
        (Sample.isAt ["m"] [("l", 0)]) = true := by decide +kernel
    have hbehind : (Sample.after Sample.nestedLoops 26).states.any
        (Sample.isAt ["y"] [("l", 0)]) = true := by decide +kernel
    obtain ⟨a, ha, hm⟩ := List.any_eq_true.mp hbefore
    obtain ⟨b, hb, hy⟩ := List.any_eq_true.mp hbehind
    obtain ⟨hm, hv⟩ := of_decide_eq_true hm
    obtain ⟨hy, hw⟩ := of_decide_eq_true hy
    obtain ⟨v, hv, hvscope⟩ := Option.map_eq_some_iff.mp hv
    obtain ⟨w, hw, hwscope⟩ := Option.map_eq_some_iff.mp hw
    exact ⟨a, ha, b, hb, v, w, hv, hw, hm, hy, hvscope,
      hsame _ _ (Sample.reaches_after _ 6) (Sample.reaches_later _ 6 20) a ha b hb v w hv hw
        (hvscope.trans hwscope.symm)⟩

end Automation.Run
