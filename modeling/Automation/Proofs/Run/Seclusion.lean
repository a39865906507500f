/-
Automation/Proofs/Run/Seclusion.lean

Runs that keep to themselves.

Two things about a run come from those around it: its name, and the world that all runs
share.  No step looks at either, but for the actions that send requests or publish messages
(`Secluded`).  So a run whose nodes have no such action does the same whatever it is called, and
whatever others do to the world in between: seen without both, its steps are the same
(`sealed_of_secluded`).
-/
import Automation.Proofs.Run.Secrecy

namespace Automation

namespace View

/-- The view of a run that has no name. -/
def anonymous (v : View) : View := { v with occasion := { v.occasion with runId := "" } }

@[simp] theorem lookup_anonymous (v : View) (ref : String) :
    v.anonymous.lookup ref = v.lookup ref := by
  rcases hcut : Binding.headAndRest ref with ⟨head, rest⟩
  unfold lookup
  simp only [hcut]
  rfl

@[simp] theorem lookupText_anonymous (v : View) : v.anonymous.lookupText = v.lookupText := by
  funext ref
  unfold lookupText
  rw [lookup_anonymous]

@[simp] theorem secretsAsked_anonymous (v : View) (refs : List String) :
    v.anonymous.secretsAsked refs = v.secretsAsked refs := by
  unfold secretsAsked
  simp only [lookup_anonymous]

mutual

/-- Bindings are resolved without looking at the name of the run. -/
@[simp] theorem resolve_anonymous (v : View) : (x : Value) → v.anonymous.resolve x = v.resolve x
  | .text s => by
    unfold resolve
    simp only [lookup_anonymous, lookupText_anonymous]
  | .list items => by
    unfold resolve
    rw [resolveItems_anonymous v items]
  | .object fields => by
    unfold resolve
    rw [resolveFields_anonymous v fields]
  | .table entries => by
    unfold resolve
    rw [resolveEntries_anonymous v entries]
  | .null => by simp [resolve]
  | .bool _ => by simp [resolve]
  | .int _ => by simp [resolve]
  | .float _ => by simp [resolve]

theorem resolveItems_anonymous (v : View) : (xs : List Value) →
    v.anonymous.resolveItems xs = v.resolveItems xs
  | [] => by simp [resolveItems]
  | x :: xs => by
    unfold resolveItems
    rw [resolve_anonymous v x, resolveItems_anonymous v xs]

@[simp] theorem resolveFields_anonymous (v : View) : (fs : List (String × Value)) →
    v.anonymous.resolveFields fs = v.resolveFields fs
  | [] => by simp [resolveFields]
  | (_, x) :: fs => by
    unfold resolveFields
    rw [resolve_anonymous v x, resolveFields_anonymous v fs]

theorem resolveEntries_anonymous (v : View) : (es : List (Key × Value)) →
    v.anonymous.resolveEntries es = v.resolveEntries es
  | [] => by simp [resolveEntries]
  | (_, x) :: es => by
    unfold resolveEntries
    rw [resolve_anonymous v x, resolveEntries_anonymous v es]

end

end View

namespace Loop.Plan

/-- A loop is planned without looking at the name of the run. -/
theorem make_anonymous (loop : String) (settings : Settings) (view : View) :
    make loop settings view.anonymous = make loop settings view := by
  have hcollect : ∀ vars, collect settings.trims view.anonymous vars
      = collect settings.trims view vars := by
    intro vars
    induction vars with
    | nil => rfl
    | cons v vars ih =>
      unfold collect
      rw [ih]
      rfl
  unfold make
  rw [hcollect]

end Loop.Plan

namespace Condition

theorem boundValues_anonymous (view : View) (refs : Fields String) :
    boundValues view.anonymous refs = boundValues view refs := by
  induction refs with
  | nil => rfl
  | cons r refs ih =>
    unfold boundValues
    rw [ih, View.lookup_anonymous]

theorem evaluate_anonymous (view : View) (expression : String) :
    evaluate view.anonymous expression = evaluate view expression := by
  have hactivation : ∀ b, activation view.anonymous b = activation view b := by
    intro b
    unfold activation
    rw [boundValues_anonymous]
    rfl
  unfold evaluate
  simp only [hactivation]

namespace Case

theorem verdict_anonymous (view : View) (c : Case) :
    c.verdict view.anonymous = c.verdict view := by
  unfold verdict holds
  simp only [evaluate_anonymous, View.resolve_anonymous]

theorem firstFrom_anonymous (view : View) (cs : List Case) (start : ℕ) :
    firstFrom view.anonymous start cs = firstFrom view start cs := by
  induction cs generalizing start with
  | nil => rfl
  | cons c cs ih =>
    unfold firstFrom
    rw [verdict_anonymous, ih]

theorem tried_anonymous (view : View) (cs : List Case) :
    tried view.anonymous cs = tried view cs := by
  induction cs with
  | nil => rfl
  | cons c cs ih =>
    unfold tried
    rw [verdict_anonymous, ih]

end Case

namespace Selection

/-- What a condition comes to does not depend on the name of the run. -/
theorem ofConfig_anonymous (view : View) (config : Fields Value) :
    ofConfig view.anonymous config = ofConfig view config := by
  unfold ofConfig ofCases ofExpression Case.first
  simp only [Case.firstFrom_anonymous, evaluate_anonymous]

theorem references_anonymous (view : View) (config : Fields Value) :
    references view.anonymous config = references view config := by
  unfold references
  simp only [Case.tried_anonymous]

end Selection

end Condition

/-! ### Actions that keep to their run -/

/-- The activity reaches nobody outside its run: it sends and publishes nothing, and does not
cancel the run. -/
def Activity.Secluded : Activity → Prop
  | .finish _ => True
  | .pause next => next.Secluded
  | .sleep _ next => next.Secluded
  | .cancelRun _ => False
  | .askSecrets _ next => next.Secluded
  | .note _ next => next.Secluded
  | .send .. => False
  | .publish .. => False

theorem Activity.secluded_attempt {α : Type} {r : Except Fault α} {next : α → Activity}
    (h : ∀ a, (next a).Secluded) : (attempt r next).Secluded := by
  cases r with
  | error fault => trivial
  | ok a => exact h a

/-- The action does not look at the name of its run, and reaches nobody outside it. -/
structure Behaviour.Secluded (b : Behaviour) : Prop where
  blind : ∀ config view, b.invoke config view.anonymous = b.invoke config view
  kept : ∀ config view, (b.invoke config view).Secluded

namespace Action

open Activity

theorem secluded_entrance : entrance.Secluded where
  blind _ _ := rfl
  kept _ _ := secluded_attempt fun _ => trivial

theorem secluded_assign : assign.Secluded where
  blind _ _ := rfl
  kept _ _ := secluded_attempt fun _ => trivial

theorem secluded_delay : delay.Secluded where
  blind _ _ := rfl
  kept config view := by
    refine secluded_attempt fun ms => ?_
    dsimp only
    split
    · trivial
    · split
      · trivial
      · exact secluded_attempt fun _ => trivial

theorem secluded_respond : respond.Secluded where
  blind _ _ := rfl
  kept _ _ := secluded_attempt fun _ => trivial

theorem secluded_filter : filter.Secluded where
  blind _ _ := rfl
  kept config view := by
    refine secluded_attempt fun source => ?_
    cases source with
    | list records => exact secluded_attempt fun _ => trivial
    | _ => trivial

theorem secluded_report : report.Secluded where
  blind _ _ := rfl
  kept config view := by
    show (ite _ _ _ : Activity).Secluded
    split
    · trivial
    · exact secluded_attempt fun _ => trivial

theorem secluded_decide : decide.Secluded where
  blind config view := by
    simp only [decide, Condition.Selection.references_anonymous, View.secretsAsked_anonymous,
      Condition.Selection.ofConfig_anonymous]
    rfl
  kept _ _ := secluded_attempt fun _ => trivial

/-- The actions that come with the engine keep to their run, but for those that send requests or
publish events. -/
theorem secluded_of_standard {settings : Settings} {kind : String} {b : Behaviour}
    (h : (Registry.standard settings).find? kind = some b) (hfetch : kind ≠ "http-request")
    (hannounce : kind ≠ "publish-event") : b.Secluded := by
  have hmem : (kind, b) ∈ Registry.standard settings := Fields.mem_of_get? h
  simp only [Registry.standard, List.mem_cons, Prod.mk.injEq, List.not_mem_nil, or_false] at hmem
  rcases hmem with ⟨-, rfl⟩ | ⟨-, rfl⟩ | ⟨-, rfl⟩ | ⟨rfl, -⟩ | ⟨-, rfl⟩ | ⟨-, rfl⟩ | ⟨-, rfl⟩ | ⟨-, rfl⟩ |
    ⟨-, rfl⟩ | ⟨rfl, -⟩
  · exact secluded_entrance
  · exact secluded_entrance
  · exact secluded_decide
  · exact absurd rfl hfetch
  · exact secluded_assign
  · exact secluded_delay
  · exact secluded_report
  · exact secluded_respond
  · exact secluded_filter
  · exact absurd rfl hannounce

end Action

namespace Run

open Automation.Schedule (Directive Machine Mask Pool Sealed Task)

/-- All actions that the nodes of a flow call for keep to their run. -/
def Secluded (setup : Setup) : Prop :=
  ∀ n ∈ setup.graph.nodes, ∀ behaviour, setup.registry.find? n.kind = some behaviour →
    behaviour.Secluded

/-! ### What is hidden -/

/-- The branch of a run that has no name. -/
def Branch.anonymous (b : Branch) : Branch := { b with view := b.view.anonymous }

@[simp] theorem Branch.anonymous_view (b : Branch) : b.anonymous.view = b.view.anonymous := rfl

namespace Strand

/-- The strand of a run that has no name. -/
def anonymous : Strand → Strand
  | .visit id b => .visit id b.anonymous
  | .act n activity b => .act n activity b.anonymous
  | .turn n course b => .turn n course b.anonymous
  | .gather n course b => .gather n course b.anonymous
  | .settle n course batch b => .settle n course batch b.anonymous
  | .follow targets b => .follow targets b.anonymous
  | .merge report => .merge report
  | .close report => .close report

/-- An action at work keeps to its run. -/
def Secluded : Strand → Prop
  | .act _ activity _ => activity.Secluded
  | _ => True

theorem secluded_anonymous (a : Strand) : a.anonymous.Secluded ↔ a.Secluded := by
  cases a <;> rfl

theorem Secluded.rejoin {a : Strand} (h : a.Secluded) (reports : List Report) :
    (rejoin a reports).Secluded := by
  cases a with
  | act n activity b => exact h
  | _ => trivial

end Strand

theorem rejoin_anonymous (a : Strand) (reports : List Report) :
    (rejoin a reports).anonymous = rejoin a.anonymous reports := by
  cases a <;> rfl

/-- A world without anything in it. -/
def nowhere : World := ⟨[], none, []⟩

/-- The state of a run without the world. -/
def State.unworldly (s : State) : State := { s with world := nowhere }

@[simp] theorem State.unworldly_journal (s : State) : s.unworldly.journal = s.journal := rfl

/-- The store of secrets is asked in the same way in any world. -/
theorem State.unworldly_askSecrets (s : State) (names : List String) :
    (s.unworldly.askSecrets names).unworldly = (s.askSecrets names).unworldly := by
  cases s with
  | mk journal vault world => cases vault <;> rfl

theorem State.unworldly_adding {s t : State} (h : s.unworldly = t.unworldly)
    (events : List Event) : (s.adding events).unworldly = (t.adding events).unworldly :=
  congrArg (State.adding · events) h

/-- What is hidden of a run: its name in all branches, and the world. -/
def seclusion : Mask State Strand := ⟨State.unworldly, Strand.anonymous⟩

/-! ### Steps -/

/-- What comes of a step looks like what comes of it without name and world, and whatever
goes on keeps to its run. -/
structure Alike (setup : Setup) (result hidden : State × Directive Strand Report) : Prop where
  shared : hidden.1.unworldly = result.1.unworldly
  directive : hidden.2.map Strand.anonymous = result.2.map Strand.anonymous
  births : ∀ b ∈ result.2.births (program setup), b.Secluded

section Steps

variable {setup : Setup} {s s' hidden : State}

theorem Alike.finish (report : Report) (hshared : hidden.unworldly = s'.unworldly) :
    Alike setup (s', .finish report) (hidden, .finish report) :=
  ⟨hshared, rfl, by simp [Directive.births, Directive.task, Directive.roots]⟩

theorem Alike.goOn {f : Strand → Directive Strand Report} (hf : GoesOn f) {a a' : Strand}
    (hshared : hidden.unworldly = s'.unworldly) (ha : a'.anonymous = a.anonymous)
    (hkept : a.Secluded) : Alike setup (s', f a) (hidden, f a') where
  shared := hshared
  directive := by cases hf <;> simp only [Directive.map, ha]
  births := by
    cases hf <;> simpa [Directive.births, Directive.task, Directive.roots] using hkept

theorem Alike.fork {children children' : List Strand} {a a' : Strand}
    (hshared : hidden.unworldly = s'.unworldly)
    (hchildren : children'.map Strand.anonymous = children.map Strand.anonymous)
    (ha : a'.anonymous = a.anonymous) (hkept : ∀ b ∈ children, b.Secluded)
    (hwaiting : a.Secluded) : Alike setup (s', .fork children a) (hidden, .fork children' a') := by
  refine ⟨hshared, ?_, ?_⟩
  · simp only [Directive.map, hchildren, ha]
  · cases children with
    | nil =>
      have hrejoined : ((program setup).rejoin a []).Secluded := hwaiting.rejoin []
      simpa [Directive.births, Directive.task, Directive.roots] using hrejoined
    | cons child children =>
      intro b hb
      have hmem : b = a ∨ b ∈ child :: children := by
        simpa [Directive.births, Directive.task, Directive.roots, -List.map_cons] using hb
      rcases hmem with rfl | hmem
      · exact hwaiting
      · exact hkept b hmem

theorem alike_follow (setup : Setup) (s : State) (targets : List String) (b : Branch) :
    Alike setup (follow s targets b) (follow s.unworldly targets b.anonymous) := by
  match targets with
  | [] => exact .finish _ rfl
  | [target] => exact .goOn .proceed rfl rfl trivial
  | first :: second :: rest =>
    refine .fork rfl ?_ rfl ?_ trivial
    · simp [Strand.anonymous, Branch.anonymous, View.anonymous]
    · rintro child hchild
      obtain ⟨target, -, rfl⟩ := List.mem_map.mp hchild
      trivial

theorem alike_settle (setup : Setup) (s : State) (n : Node) (course : Loop.Course)
    (batch : List Loop.Lap) (b : Branch) :
    Alike setup (settle s n course batch b) (settle s.unworldly n course batch b.anonymous) := by
  unfold settle
  split
  · exact .goOn .proceed rfl rfl trivial
  · exact .goOn .proceed rfl rfl trivial
  · split
    · exact .goOn .proceed rfl rfl trivial
    · dsimp only
      split
      · exact .goOn .proceed rfl rfl trivial
      · exact .goOn (.sleep _) rfl rfl trivial

theorem alike_turn (setup : Setup) (s : State) (n : Node) (course : Loop.Course) (b : Branch) :
    Alike setup (turn setup s n course b) (turn setup s.unworldly n course b.anonymous) := by
  unfold turn
  rw [State.unworldly_journal]
  split
  · exact .goOn .proceed rfl rfl trivial
  · refine .fork rfl ?_ rfl ?_ trivial
    · rw [List.map_map, List.map_map]
      rfl
    · rintro child hchild
      obtain ⟨i, -, rfl⟩ := List.mem_map.mp hchild
      trivial

theorem alike_complete (setup : Setup) (s : State) (n : Node) (outcome : Except Fault Value)
    (b : Branch) :
    Alike setup (complete setup s n outcome b)
      (complete setup s.unworldly n outcome b.anonymous) := by
  unfold complete
  dsimp only
  split
  · exact .finish _ rfl
  · exact .goOn .proceed rfl rfl trivial

theorem alike_act (setup : Setup) (s : State) (n : Node) {activity : Activity}
    (h : activity.Secluded) (b : Branch) :
    Alike setup (act setup s n activity b) (act setup s.unworldly n activity b.anonymous) := by
  cases activity with
  | finish outcome => exact alike_complete setup s n outcome b
  | pause next => exact .goOn .pause rfl rfl h
  | sleep seconds next =>
    unfold act
    dsimp only
    split
    · exact .goOn .proceed rfl rfl trivial
    · exact .goOn (.sleep _) rfl rfl h
  | askSecrets names next => exact .goOn .proceed (s.unworldly_askSecrets names) rfl h
  | note effect next => exact .goOn .proceed rfl rfl h
  | cancelRun | send | publish => exact h.elim

theorem alike_beginLoop (setup : Setup) (s : State) (n : Node) (b : Branch) :
    Alike setup (beginLoop setup s n b) (beginLoop setup s.unworldly n b.anonymous) := by
  have hplan : ∀ config, planOf setup n config b.view.anonymous = planOf setup n config b.view := by
    intro config
    unfold planOf
    simp only [Loop.Plan.make_anonymous]
  unfold beginLoop
  simp only [Branch.anonymous_view, View.secretsAsked_anonymous, View.resolveFields_anonymous, hplan]
  have hasked := s.unworldly_askSecrets
    (b.view.secretsAsked (Binding.references (.object n.config)))
  split
  · exact .goOn .proceed hasked rfl trivial
  · split
    · exact .goOn .proceed (State.unworldly_adding hasked _) rfl trivial
    · exact .goOn .proceed (State.unworldly_adding hasked _) rfl trivial

theorem alike_beginAction (hsecluded : Secluded setup) (s : State) {n : Node}
    (hn : n ∈ setup.graph.nodes) (b : Branch) :
    Alike setup (beginAction setup s n b) (beginAction setup s.unworldly n b.anonymous) := by
  unfold beginAction
  rcases hb : setup.registry.find? n.kind with - | behaviour
  · exact .goOn .proceed rfl rfl trivial
  have hsettings : settingsFor behaviour n b.view.anonymous = settingsFor behaviour n b.view := by
    unfold settingsFor
    rw [View.resolveFields_anonymous]
  obtain ⟨hblind, hkept⟩ := hsecluded n hn behaviour hb
  simp only [Branch.anonymous_view, View.secretsAsked_anonymous, hsettings, Behaviour.start, hblind]
  have hasked : (if behaviour.resolves then s.unworldly.askSecrets
      (b.view.secretsAsked (Binding.references (.object n.config))) else s.unworldly).unworldly
      = (if behaviour.resolves then s.askSecrets
        (b.view.secretsAsked (Binding.references (.object n.config))) else s).unworldly := by
    split
    · exact s.unworldly_askSecrets _
    · rfl
  split
  · exact .goOn .proceed hasked rfl trivial
  · exact .goOn .proceed (State.unworldly_adding hasked _) rfl
      (Activity.secluded_attempt fun prepared => hkept prepared b.view)

theorem alike_begin (hsecluded : Secluded setup) (s : State) {n : Node}
    (hn : n ∈ setup.graph.nodes) (b : Branch) :
    Alike setup (begin setup s n b) (begin setup s.unworldly n b.anonymous) := by
  let s' := s.adding [lineOf n (.executing n.kind), .reached b.view.scope n.id .resolving]
  show Alike setup (if n.isLoop then beginLoop setup s' n b else beginAction setup s' n b)
    (if n.isLoop then beginLoop setup s'.unworldly n b.anonymous
      else beginAction setup s'.unworldly n b.anonymous)
  split
  · exact alike_beginLoop setup s' n b
  · exact alike_beginAction hsecluded s' hn b

theorem alike_visit (hsecluded : Secluded setup) (s : State) (id : String) (b : Branch) :
    Alike setup (visit setup s id b) (visit setup s.unworldly id b.anonymous) := by
  -- the tests look at the journal and the scope only, and neither is hidden
  unfold visit
  rw [State.unworldly_journal]
  split
  · exact .finish _ rfl
  rcases hn : setup.graph.node? id with - | n
  · exact .finish _ rfl
  dsimp only
  have hinside : b.anonymous.view.isInside id = b.view.isInside id := rfl
  have hscope : b.anonymous.view.scope = b.view.scope := rfl
  rw [hinside, hscope]
  split
  · exact .finish _ rfl
  rcases s.journal.claim b.view.scope id with ⟨fresh, journal⟩
  cases fresh with
  | false => exact .finish _ rfl
  | true =>
    dsimp only
    split
    · exact .goOn .proceed rfl rfl trivial
    · exact alike_begin hsecluded { s with journal } (List.mem_of_find?_eq_some hn) b

/-- A step looks the same without name and world. -/
theorem alike_step (hsecluded : Secluded setup) (s : State) {a : Strand} (ha : a.Secluded) :
    Alike setup (step setup s a) (step setup s.unworldly a.anonymous) := by
  cases a with
  | visit id b => exact alike_visit hsecluded s id b
  | act n activity b => exact alike_act setup s n ha b
  | turn n course b => exact alike_turn setup s n course b
  | gather n course b => exact .goOn .proceed rfl rfl trivial
  | settle n course batch b => exact alike_settle setup s n course batch b
  | follow targets b => exact alike_follow setup s targets b
  | merge report => exact .finish report rfl
  | close report => exact .finish report rfl

theorem sealed_of_secluded (hsecluded : Secluded setup) :
    Sealed (program setup) Strand.Secluded seclusion where
  births {s _} ha := (alike_step hsecluded s ha).births
  returns results ha := ha.rejoin results
  shared {s _} ha := (alike_step hsecluded s ha).shared
  directive {s _} ha := (alike_step hsecluded s ha).directive
  rejoin := rejoin_anonymous

end Steps

end Run

end Automation
