/-
Automation/Proofs/Run/Secrecy.lean

Runs keep to themselves what they are not asked for.

Texts from outside are data: only what is written in a flow is ever resolved.  So if the
nodes of a flow refer neither to the environment nor to secrets, and no action looks
at them (`Careful`), both might as well be missing: a step looks the same without
them (`sealed`), runs that differ in nothing else come to the same, and no secret is
asked for (`secrets_do_not_interfere`).
-/
import Automation.Proofs.Action
import Automation.Proofs.Run.Conclusion
import Automation.Proofs.Schedule.Mask

namespace Automation

/-- The secrets that were asked for, latest first. -/
def World.asked (w : World) : List Effect := w.noticed.filter Effect.asks

theorem World.asked_notice (w : World) {e : Effect} (h : e.asks = false) :
    (w.notice e).asked = w.asked := List.filter_cons_of_neg (by simp [h])

theorem World.asked_send (w : World) (r : Request) : (w.send r).2.asked = w.asked := by
  unfold send
  dsimp only
  split <;> exact w.asked_notice rfl

theorem World.asked_publish (w : World) (m : Message) : (w.publish m).2.asked = w.asked := by
  unfold publish
  split
  · rfl
  · exact w.asked_notice rfl

namespace Loop.Plan

theorem collect_veil (trims : Bool) (view : View) (vars : List Variable) :
    collect trims view.veil vars = collect trims view vars := by
  induction vars with
  | nil => rfl
  | cons v vars ih =>
    unfold collect
    rw [ih]
    rfl

/-- A loop is planned from results alone. -/
theorem make_veil (loop : String) (settings : Settings) (view : View) :
    make loop settings view.veil = make loop settings view := by
  unfold make
  rw [collect_veil]

end Loop.Plan

namespace Run

open Automation.Binding
open Automation.Schedule (Directive Machine Mask Pool Sealed Task)

/-- The nodes of a flow refer neither to the environment nor to secrets, also not in cases
that are written as a text, and no action looks at either; a condition looks at what its
settings refer to. -/
structure Careful (setup : Setup) : Prop where
  settings : ∀ n ∈ setup.graph.nodes, Unreserved (.object n.config)
  cases : ∀ n ∈ setup.graph.nodes, setup.registry.find? n.kind = some Action.decide →
    Unreserved (Condition.decoded (n.config.at "cases"))
  actions : ∀ kind behaviour, setup.registry.find? kind = some behaviour →
    behaviour = Action.decide ∨ behaviour.Oblivious

/-! ### What is hidden -/

/-- The branch without environment and secrets. -/
def Branch.veil (b : Branch) : Branch := { b with view := b.view.veil }

@[simp] theorem Branch.veil_view (b : Branch) : b.veil.view = b.view.veil := rfl

namespace Strand

/-- The strand without environment and secrets. -/
def veil : Strand → Strand
  | .visit id b => .visit id b.veil
  | .act n activity b => .act n activity b.veil
  | .turn n course b => .turn n course b.veil
  | .gather n course b => .gather n course b.veil
  | .settle n course batch b => .settle n course batch b.veil
  | .follow targets b => .follow targets b.veil
  | .merge report => .merge report
  | .close report => .close report

/-- An action at work asks for no secret. -/
def NeverAsks : Strand → Prop
  | .act _ activity _ => activity.NeverAsks
  | _ => True

end Strand

namespace State

/-- The state without the secret store. -/
def unvaulted (s : State) : State := { s with vault := none }

@[simp] theorem unvaulted_journal (s : State) : s.unvaulted.journal = s.journal := rfl

theorem askSecrets_nil (s : State) : s.askSecrets [] = s := by
  cases s with
  | mk journal vault world => cases vault <;> rfl

end State

/-- What is hidden of a run: environment and secrets in all branches, and the secret store. -/
def blindfold : Mask State Strand := ⟨State.unvaulted, Strand.veil⟩

/-! ### Steps -/

/-- What comes of a step looks like what comes of it without environment and secrets;
nothing was asked for, and nothing that goes on will ask. -/
structure Impartial (setup : Setup) (s : State) (result hidden : State × Directive Strand Report) :
    Prop where
  shared : hidden.1.unvaulted = result.1.unvaulted
  directive : hidden.2.map Strand.veil = result.2.map Strand.veil
  asked : result.1.world.asked = s.world.asked
  births : ∀ b ∈ result.2.births (program setup), b.NeverAsks

theorem rejoin_veil (a : Strand) (reports : List Report) :
    (rejoin a reports).veil = rejoin a.veil reports := by
  cases a <;> rfl

theorem Strand.NeverAsks.rejoin {a : Strand} (h : a.NeverAsks) (reports : List Report) :
    (rejoin a reports).NeverAsks := by
  cases a with
  | act n activity b => exact h
  | _ => trivial

section Steps

variable {setup : Setup} {s s' hidden : State}

theorem Impartial.finish (report : Report) (hshared : hidden.unvaulted = s'.unvaulted)
    (hasked : s'.world.asked = s.world.asked) :
    Impartial setup s (s', .finish report) (hidden, .finish report) :=
  ⟨hshared, rfl, hasked, by simp [Directive.births, Directive.task, Directive.roots]⟩

/-- A directive that lets a strand go on, at once or later. -/
inductive GoesOn : (Strand → Directive Strand Report) → Prop
  | proceed : GoesOn .proceed
  | pause : GoesOn .pause
  | sleep (microseconds : ℕ) : GoesOn (.sleep microseconds)

theorem Impartial.goOn {f : Strand → Directive Strand Report} (hf : GoesOn f) {a a' : Strand}
    (hshared : hidden.unvaulted = s'.unvaulted) (hasked : s'.world.asked = s.world.asked)
    (ha : a'.veil = a.veil) (hnever : a.NeverAsks) :
    Impartial setup s (s', f a) (hidden, f a') where
  shared := hshared
  directive := by cases hf <;> simp only [Directive.map, ha]
  asked := hasked
  births := by
    cases hf <;> simpa [Directive.births, Directive.task, Directive.roots] using hnever

theorem Impartial.fork {children children' : List Strand} {a a' : Strand}
    (hshared : hidden.unvaulted = s'.unvaulted) (hasked : s'.world.asked = s.world.asked)
    (hchildren : children'.map Strand.veil = children.map Strand.veil) (ha : a'.veil = a.veil)
    (hnever : ∀ b ∈ children, b.NeverAsks) (hwaiting : a.NeverAsks) :
    Impartial setup s (s', .fork children a) (hidden, .fork children' a') := by
  refine ⟨hshared, ?_, hasked, ?_⟩
  · simp only [Directive.map, hchildren, ha]
  · cases children with
    | nil =>
      have hrejoined : ((program setup).rejoin a []).NeverAsks := hwaiting.rejoin []
      simpa [Directive.births, Directive.task, Directive.roots] using hrejoined
    | cons child children =>
      intro b hb
      have hmem : b = a ∨ b ∈ child :: children := by
        simpa [Directive.births, Directive.task, Directive.roots, -List.map_cons] using hb
      rcases hmem with rfl | hmem
      · exact hwaiting
      · exact hnever b hmem

/-- Nothing is asked for by recording something beforehand. -/
theorem Impartial.after {result hidden : State × Directive Strand Report}
    (h : Impartial setup s' result hidden) (hworld : s'.world = s.world) :
    Impartial setup s result hidden :=
  { h with asked := hworld ▸ h.asked }

theorem impartial_follow (setup : Setup) (s : State) (targets : List String) (b : Branch) :
    Impartial setup s (follow s targets b) (follow s.unvaulted targets b.veil) := by
  match targets with
  | [] => exact .finish _ rfl rfl
  | [target] => exact .goOn .proceed rfl rfl rfl trivial
  | first :: second :: rest =>
    refine .fork rfl rfl ?_ rfl ?_ trivial
    · simp [Strand.veil, Branch.veil, View.veil]
    · rintro child hchild
      obtain ⟨target, -, rfl⟩ := List.mem_map.mp hchild
      trivial

theorem impartial_settle (setup : Setup) (s : State) (n : Node) (course : Loop.Course)
    (batch : List Loop.Lap) (b : Branch) :
    Impartial setup s (settle s n course batch b) (settle s.unvaulted n course batch b.veil) := by
  unfold settle
  split
  · exact .goOn .proceed rfl rfl rfl trivial
  · exact .goOn .proceed rfl rfl rfl trivial
  · split
    · exact .goOn .proceed rfl rfl rfl trivial
    · dsimp only
      split
      · exact .goOn .proceed rfl (s.world.asked_notice rfl) rfl trivial
      · exact .goOn (.sleep _) rfl (s.world.asked_notice rfl) rfl trivial

theorem impartial_turn (setup : Setup) (s : State) (n : Node) (course : Loop.Course) (b : Branch) :
    Impartial setup s (turn setup s n course b) (turn setup s.unvaulted n course b.veil) := by
  unfold turn
  rw [State.unvaulted_journal]
  split
  · exact .goOn .proceed rfl rfl rfl trivial
  · refine .fork rfl rfl ?_ rfl ?_ trivial
    · rw [List.map_map, List.map_map]
      rfl
    · rintro child hchild
      obtain ⟨i, -, rfl⟩ := List.mem_map.mp hchild
      trivial

theorem impartial_complete (setup : Setup) (s : State) (n : Node) (outcome : Except Fault Value)
    (b : Branch) :
    Impartial setup s (complete setup s n outcome b)
      (complete setup s.unvaulted n outcome b.veil) := by
  unfold complete
  dsimp only
  split
  · exact .finish _ rfl rfl
  · exact .goOn .proceed rfl rfl rfl trivial

theorem impartial_act (setup : Setup) (s : State) (n : Node) {activity : Activity}
    (h : activity.NeverAsks) (b : Branch) :
    Impartial setup s (act setup s n activity b) (act setup s.unvaulted n activity b.veil) := by
  cases activity with
  | finish outcome => exact impartial_complete setup s n outcome b
  | pause next => exact .goOn .pause rfl rfl rfl h
  | sleep seconds next =>
    unfold act
    dsimp only
    split
    · exact .goOn .proceed rfl (s.world.asked_notice rfl) rfl trivial
    · exact .goOn (.sleep _) rfl (s.world.asked_notice rfl) rfl h
  | cancelRun next => exact .goOn .proceed rfl rfl rfl h
  | askSecrets names next =>
    -- it asks for no name, so the store is not touched
    obtain ⟨rfl, hnext⟩ := h
    unfold act
    dsimp only
    rw [State.askSecrets_nil, State.askSecrets_nil]
    exact .goOn .proceed rfl rfl rfl hnext
  | note effect next => exact .goOn .proceed rfl (s.world.asked_notice h.1) rfl h.2
  | send request next => exact .goOn .proceed rfl (s.world.asked_send request) rfl (h _)
  | publish message next => exact .goOn .proceed rfl (s.world.asked_publish message) rfl (h _)

/-- Settings that refer neither to the environment nor to secrets are resolved in the same
way without both, and nothing is asked for. -/
theorem resolveFields_veil_of_careful (hcareful : Careful setup) {n : Node}
    (hn : n ∈ setup.graph.nodes) (view : View) :
    view.veil.resolveFields n.config = view.resolveFields n.config ∧
      ∀ v : View, v.secretsAsked (references (.object n.config)) = [] :=
  ⟨view.resolveFields_veil n.config (hcareful.settings n hn).references,
    fun v => v.secretsAsked_eq_nil (hcareful.settings n hn).references⟩

theorem impartial_beginLoop (hcareful : Careful setup) {n : Node} (hn : n ∈ setup.graph.nodes)
    (b : Branch) :
    Impartial setup s (beginLoop setup s n b) (beginLoop setup s.unvaulted n b.veil) := by
  obtain ⟨hresolve, hasked⟩ := resolveFields_veil_of_careful hcareful hn b.view
  have hplan : ∀ config, planOf setup n config b.view.veil = planOf setup n config b.view := by
    intro config
    unfold planOf
    simp only [Loop.Plan.make_veil]
  unfold beginLoop
  simp only [Branch.veil_view, hasked, hresolve, hplan, State.askSecrets_nil]
  split
  · exact .goOn .proceed rfl rfl rfl trivial
  · split
    · exact .goOn .proceed rfl rfl rfl trivial
    · exact .goOn .proceed rfl rfl rfl trivial

theorem impartial_beginAction (hcareful : Careful setup) {n : Node} (hn : n ∈ setup.graph.nodes)
    (b : Branch) :
    Impartial setup s (beginAction setup s n b) (beginAction setup s.unvaulted n b.veil) := by
  obtain ⟨hresolve, hasked⟩ := resolveFields_veil_of_careful hcareful hn b.view
  unfold beginAction
  rcases hb : setup.registry.find? n.kind with - | behaviour
  · exact .goOn .proceed rfl rfl rfl trivial
  have hsettings : settingsFor behaviour n b.view.veil = settingsFor behaviour n b.view := by
    unfold settingsFor
    rw [hresolve]
  simp only [Branch.veil_view, hasked, hsettings, State.askSecrets_nil, ite_self]
  rcases hconfig : settingsFor behaviour n b.view with fault | config
  · exact .goOn .proceed rfl rfl rfl trivial
  -- a condition gets its settings as they are written, all others get them resolved
  have hdiscreet : behaviour = Action.decide → Condition.Discreet config := by
    rintro rfl
    obtain rfl : n.config = config := Except.ok.inj hconfig
    exact ⟨hcareful.settings n hn, hcareful.cases n hn hb⟩
  obtain ⟨hstart, hnever⟩ :=
    Action.start_veil (hcareful.actions n.kind behaviour hb) b.view hdiscreet
  simp only [hstart]
  exact .goOn .proceed rfl rfl rfl hnever

theorem impartial_begin (hcareful : Careful setup) {n : Node} (hn : n ∈ setup.graph.nodes)
    (b : Branch) : Impartial setup s (begin setup s n b) (begin setup s.unvaulted n b.veil) := by
  let s' := s.adding [lineOf n (.executing n.kind), .reached b.view.scope n.id .resolving]
  show Impartial setup s (if n.isLoop then beginLoop setup s' n b else beginAction setup s' n b)
    (if n.isLoop then beginLoop setup s'.unvaulted n b.veil
      else beginAction setup s'.unvaulted n b.veil)
  split
  · exact (impartial_beginLoop hcareful hn b).after rfl
  · exact (impartial_beginAction hcareful hn b).after rfl

theorem impartial_visit (hcareful : Careful setup) (id : String) (b : Branch) :
    Impartial setup s (visit setup s id b) (visit setup s.unvaulted id b.veil) := by
  -- the tests look at the journal and the scope only, and neither is hidden
  unfold visit
  rw [State.unvaulted_journal]
  split
  · exact .finish _ rfl rfl
  rcases hn : setup.graph.node? id with - | n
  · exact .finish _ rfl rfl
  dsimp only
  have hinside : b.veil.view.isInside id = b.view.isInside id := rfl
  have hscope : b.veil.view.scope = b.view.scope := rfl
  rw [hinside, hscope]
  split
  · exact .finish _ rfl rfl
  rcases s.journal.claim b.view.scope id with ⟨fresh, journal⟩
  cases fresh with
  | false => exact .finish _ rfl rfl
  | true =>
    dsimp only
    split
    · exact .goOn .proceed rfl rfl rfl trivial
    · have hbegin := impartial_begin (s := { s with journal }) hcareful
        (List.mem_of_find?_eq_some hn) b
      exact hbegin.after rfl

/-- A step looks the same without environment and secrets, and asks for no secret. -/
theorem impartial_step (hcareful : Careful setup) {a : Strand} (ha : a.NeverAsks) :
    Impartial setup s (step setup s a) (step setup s.unvaulted a.veil) := by
  cases a with
  | visit id b => exact impartial_visit hcareful id b
  | act n activity b => exact impartial_act setup s n ha b
  | turn n course b => exact impartial_turn setup s n course b
  | gather n course b => exact .goOn .proceed rfl rfl rfl trivial
  | settle n course batch b => exact impartial_settle setup s n course batch b
  | follow targets b => exact impartial_follow setup s targets b
  | merge report => exact .finish report rfl rfl
  | close report => exact .finish report rfl rfl

theorem sealed_of_careful (hcareful : Careful setup) :
    Sealed (program setup) Strand.NeverAsks blindfold where
  births ha := (impartial_step hcareful ha).births
  returns results ha := ha.rejoin results
  shared ha := (impartial_step hcareful ha).shared
  directive ha := (impartial_step hcareful ha).directive
  rejoin := rejoin_veil

/-- No step asks for a secret. -/
theorem kept_asked (hcareful : Careful setup) (asked : List Effect) :
    Pool.Kept (program setup) (fun _ _ => False) (fun s => s.world.asked = asked)
      (fun _ a => a.NeverAsks) where
  shared h ha := (impartial_step hcareful ha).asked.trans h
  births _ ha := (impartial_step hcareful ha).births
  others _ _ hb := hb
  rejoin results _ ha := ha.rejoin results
  outside h := h.elim

end Steps

/-! ### Runs -/

/-- What happens outside between two steps of a run, told by what is to be seen of it: the
journal and the world.  The secret store may change as it likes. -/
def Amid (foreign : Journal × World → Journal × World → Prop) (s s' : State) : Prop :=
  foreign (s.journal, s.world) (s'.journal, s'.world)

variable {setup : Setup} {given : Given} {world : World}
variable {foreign : Journal × World → Journal × World → Prop}

theorem neverAsks_opening (setup : Setup) (given : Given) (journal : Journal) (world : World) :
    ∀ a ∈ (beginning setup given journal world).states, a.NeverAsks := by
  intro a ha
  obtain rfl : a = firstStrand setup.graph given := by
    simpa [beginning, Machine.start, Pool.start, Pool.states] using ha
  trivial

theorem reportOf_masked (m : Machine State Strand Report) :
    reportOf (m.masked blindfold) = reportOf m := by
  show ((m.tasks.map fun t => t.map Strand.veil).head?).bind Task.result? = _
  rw [List.head?_map, Option.bind_map]
  exact congrArg m.tasks.head?.bind (funext fun t => t.result?_map Strand.veil)

/-- A run is matched by one with another environment and other secrets: what can be
seen of them is the same throughout, so they record and report the same. -/
theorem exists_alike_run (hcareful : Careful setup) (environment secrets : Source)
    {c : Pool State Strand Report}
    (h : Pool.Reaches (program setup) (Amid foreign) (opening setup given world) c) :
    ∃ d, Pool.Reaches (program setup) (Amid foreign)
        (opening setup { given with environment, secrets } world) d ∧
      d.shared.journal = c.shared.journal ∧ d.shared.world = c.shared.world ∧
      Task.results? d.tasks = Task.results? c.tasks := by
  have hopening : (opening setup given world).masked blindfold
      = (opening setup { given with environment, secrets } world).masked blindfold := rfl
  have hamid : ∀ {s s' t : State}, Amid foreign s s' → s.unvaulted = t.unvaulted →
      ∃ t', Amid foreign t t' ∧ s'.unvaulted = t'.unvaulted := by
    -- what has changed outside for the one changes for the other
    intro s s' t hout hst
    refine ⟨{ t with journal := s'.journal, world := s'.world }, ?_, rfl⟩
    obtain ⟨hjournal, -, hworld⟩ := State.mk.inj hst
    unfold Amid at hout ⊢
    rwa [← hjournal, ← hworld]
  obtain ⟨d, hd, halike⟩ := (sealed_of_careful hcareful).exists_alike_reaches hamid hopening
    (neverAsks_opening setup given [] world) (neverAsks_opening setup _ [] world) h
  obtain ⟨hshared, -⟩ := Pool.mk.inj halike
  obtain ⟨hjournal, -, hworld⟩ := State.mk.inj hshared
  refine ⟨d, hd, hjournal.symm, hworld.symm, ?_⟩
  rw [← Pool.results?_masked (k := blindfold), ← halike, Pool.results?_masked]

/-- The machine does the same with another environment and other secrets. -/
theorem run_alike (hcareful : Careful setup) (environment secrets : Source) (fuel : ℕ)
    (journal : Journal) :
    run fuel setup { given with environment, secrets } journal world
      = run fuel setup given journal world := by
  have hbeginning : (beginning setup { given with environment, secrets } journal world).masked
      blindfold = (beginning setup given journal world).masked blindfold := rfl
  obtain ⟨halike, -⟩ := (sealed_of_careful hcareful).alike_run hbeginning
    (neverAsks_opening setup _ journal world) (neverAsks_opening setup given journal world) fuel
  have hreport := congrArg reportOf halike
  rw [reportOf_masked, reportOf_masked] at hreport
  obtain ⟨hshared, -⟩ := Pool.mk.inj (congrArg Machine.toPool halike)
  obtain ⟨hjournal, -, hworld⟩ := State.mk.inj hshared
  simp only [run, hreport, hjournal, hworld]

/-- The machine asks for no secret. -/
theorem asked_run (hcareful : Careful setup) (fuel : ℕ) (journal : Journal) :
    (run fuel setup given journal world).2.asked = world.asked :=
  ((kept_asked hcareful world.asked).reaches ⟨rfl, neverAsks_opening setup given journal world⟩
    (Machine.reaches_run (program setup) _ fuel (beginning setup given journal world))).1

/-- What a run can come to it can come to with another environment and other secrets. -/
theorem ComesTo.alike (hcareful : Careful setup) (environment secrets : Source) {j : Journal}
    {outcome : Outcome} (h : ComesTo setup given world j outcome) :
    ComesTo setup { given with environment, secrets } world j outcome := by
  obtain ⟨hreach, hended⟩ := h
  -- cancelling is something that is seen, so it happens to both
  have hamid : Pool.Reaches (program setup)
      (Amid fun seen seen' => seen'.1 = seen.1 ∨ seen'.1 = seen.1.adding [.cancelled])
      (opening setup given world) _ := hreach
  obtain ⟨d, hd, hjournal, -, hresults⟩ := exists_alike_run hcareful environment secrets hamid
  rw [hended] at hresults
  rw [← hjournal]
  exact .intro hd (Task.eq_ended_of_results? hresults)

/-- Texts from outside are data.  If the nodes of a flow refer neither to the environment nor
to secrets, and no action looks at either, then whatever sets the run off and
whatever variables the flow declares:
* the machine comes to the same outcome and the same effects with another environment and
  other secrets, and no secret is asked for;
* the same is true in any order of work: no move asks for a secret, and with the same events outside
  another environment and other secrets lead to the same journal, the same world and the
  same reports;
* so the outcomes that a run can come to are the same. -/
theorem secrets_do_not_interfere (hcareful : Careful setup) (given : Given)
    (environment secrets : Source) (world : World) :
    (∀ fuel journal,
      run fuel setup { given with environment, secrets } journal world
        = run fuel setup given journal world ∧
      (run fuel setup given journal world).2.asked = world.asked) ∧
    (∀ foreign c, Pool.Reaches (program setup) (Amid foreign) (opening setup given world) c →
      (∀ d, Pool.Move (program setup) c d → d.shared.world.asked = c.shared.world.asked) ∧
      ∃ d, Pool.Reaches (program setup) (Amid foreign)
          (opening setup { given with environment, secrets } world) d ∧
        d.shared.journal = c.shared.journal ∧ d.shared.world = c.shared.world ∧
        Task.results? d.tasks = Task.results? c.tasks) ∧
    ∀ j outcome, ComesTo setup { given with environment, secrets } world j outcome ↔
      ComesTo setup given world j outcome := by
  refine ⟨fun fuel journal => ⟨run_alike hcareful environment secrets fuel journal,
    asked_run hcareful fuel journal⟩, fun foreign c hc => ⟨fun d hmove => ?_,
    exists_alike_run hcareful environment secrets hc⟩, fun j outcome => ⟨fun h => ?_, fun h => ?_⟩⟩
  · have hnever := ((sealed_of_careful hcareful).kept.reaches
      ⟨trivial, neverAsks_opening setup given [] world⟩ hc).2
    exact ((kept_asked hcareful c.shared.world.asked).move ⟨rfl, hnever⟩ hmove).1
  · exact h.alike hcareful given.environment given.secrets
  · exact h.alike hcareful environment secrets

namespace Sample

/-- A start, a condition whose cases are written as a text, and an action that keeps a text from
outside. -/
def curious : Setup where
  graph :=
    { document :=
        { authoredNodes := some [node "a" "start" [],
            node "c" "condition" [("multipleConditions", .bool true), ("cases", .text
              "[\x7b\"id\": \"1\", \"leftOperand\": \"\x7b\x7ba.note\x7d\x7d\", \"operator\": \"isNotEmpty\"\x7d]")],
            node "v" "set-variable" [("variableName", .text "kept"),
              ("value", .text "\x7b\x7ba.note\x7d\x7d \x7b\x7bgreeting\x7d\x7d")]]
          authoredEdges := some [edge "1" "a" "c" none, edge "2" "c" "v" (some "true")]
          authoredTrigger := none
          authoredComponent := none
          others := [] }
      start := node "a" "start" []
      sound := rfl
      start_mem := List.mem_cons_self
      start_isStart := isStart_node }
  registry := .standard (.load [] none)
  defaultMaxIterations := 500

/-- The payload and a variable are texts that ask for a secret. -/
def prying : Given where
  occasion := ⟨"run", .object [("note", .text "\x7b\x7bsecrets.key\x7d\x7d")], ⟨"", 0⟩⟩
  declared := .table [("greeting", .text "\x7b\x7benv.key\x7d\x7d")] false
  environment := .empty
  secrets := .secrets ⟨"store", [("key", .object [("key", .text "hidden")])]⟩

theorem careful_curious : Careful curious where
  settings := by decide +kernel
  cases := by
    have hall : ∀ n ∈ curious.graph.nodes,
        Unreserved (Condition.decoded (n.config.at "cases")) := by decide +kernel
    exact fun n hn _ => hall n hn
  actions _ _ := Action.oblivious_of_standard

end Sample

/-- A flow keeps texts that ask for a secret as they are, though the secret is there for a text
of the flow itself. -/
theorem secrets_do_not_interfere_in_curious :
    Careful Sample.curious ∧
      (Sample.prying.view.resolve (.text "\x7b\x7bsecrets.key\x7d\x7d")).toOption
        = some (.text "hidden") ∧
      (run 60 Sample.curious Sample.prying [] Sample.world).1.map (fun o => (o.status,
        (o.results.at "v").field "kept"))
        = some (.succeeded, .text "\x7b\x7bsecrets.key\x7d\x7d \x7b\x7benv.key\x7d\x7d") ∧
      (run 60 Sample.curious Sample.prying [] Sample.world).2.asked = [] ∧
      ∀ environment secrets,
        run 60 Sample.curious { Sample.prying with environment, secrets } [] Sample.world
          = run 60 Sample.curious Sample.prying [] Sample.world := by
  have halike := fun environment secrets => (secrets_do_not_interfere Sample.careful_curious
    Sample.prying environment secrets Sample.world).1 60 []
  exact ⟨Sample.careful_curious, by decide +kernel, by decide +kernel, (halike .empty .empty).2,
    fun environment secrets => (halike environment secrets).1⟩

end Run

end Automation
