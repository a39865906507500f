/-
Automation/Proofs/Action.lean

Actions that look at no secrets.

An action is oblivious if it neither reads the environment or the secrets of its view nor
asks for secrets (`Oblivious`).  All actions that come with the engine are, but for the
condition, which resolves its own operands (`oblivious_of_standard`); that one does
the same without environment and secrets if its settings are discreet (`start_veil`).
-/
import Automation.Action.Standard
import Automation.Proofs.Condition

namespace Automation

/-- The effect tells that a secret was asked for. -/
def Effect.asks : Effect → Bool
  | .askedSecret .. => true
  | _ => false

/-- The activity asks for no secret, and does not note that one was asked for. -/
def Activity.NeverAsks : Activity → Prop
  | .finish _ => True
  | .pause next => next.NeverAsks
  | .sleep _ next => next.NeverAsks
  | .cancelRun next => next.NeverAsks
  | .askSecrets names next => names = [] ∧ next.NeverAsks
  | .note effect next => effect.asks = false ∧ next.NeverAsks
  | .send _ next => ∀ reply, (next reply).NeverAsks
  | .publish _ next => ∀ failure, (next failure).NeverAsks

theorem Activity.neverAsks_attempt {α : Type} {r : Except Fault α} {next : α → Activity}
    (h : ∀ a, (next a).NeverAsks) : (attempt r next).NeverAsks := by
  cases r with
  | error fault => trivial
  | ok a => exact h a

namespace Behaviour

/-- The action reads neither the environment nor the secrets of its view, and asks for no
secret. -/
structure Oblivious (b : Behaviour) : Prop where
  blind : ∀ config view environment secrets,
    b.invoke config { view with environment, secrets } = b.invoke config view
  silent : ∀ config view, (b.invoke config view).NeverAsks

end Behaviour

namespace Action

open Activity

theorem oblivious_entrance : entrance.Oblivious where
  blind _ _ _ _ := rfl
  silent _ _ := neverAsks_attempt fun _ => trivial

theorem oblivious_assign : assign.Oblivious where
  blind _ _ _ _ := rfl
  silent _ _ := neverAsks_attempt fun _ => trivial

theorem oblivious_delay : delay.Oblivious where
  blind _ _ _ _ := rfl
  silent config view := by
    refine neverAsks_attempt fun ms => ?_
    dsimp only
    split
    · trivial
    · split
      · trivial
      · exact neverAsks_attempt fun _ => trivial

theorem oblivious_respond : respond.Oblivious where
  blind _ _ _ _ := rfl
  silent _ _ := neverAsks_attempt fun _ => trivial

theorem oblivious_filter : filter.Oblivious where
  blind _ _ _ _ := rfl
  silent config view := by
    refine neverAsks_attempt fun source => ?_
    cases source with
    | list records => exact neverAsks_attempt fun _ => trivial
    | _ => trivial

theorem oblivious_report : report.Oblivious where
  blind _ _ _ _ := rfl
  silent config view := by
    show (ite _ _ _ : Activity).NeverAsks
    split
    · trivial
    · exact neverAsks_attempt fun _ => ⟨rfl, trivial⟩

theorem oblivious_announce (settings : Settings) : (announce settings).Oblivious where
  blind _ _ _ _ := rfl
  silent _ _ := neverAsks_attempt fun _ _ => trivial

theorem neverAsks_replyResult (timeout : Binary64) (reply : Reply) :
    (replyResult timeout reply).NeverAsks := by
  cases reply with
  | timedOut => trivial
  | failed reason => trivial
  | response => exact neverAsks_attempt fun _ => trivial

theorem oblivious_fetch (settings : Settings) : (fetch settings).Oblivious := by
  have hinvoke : ∀ config view, (fetch settings).invoke config view =
      attempt (requestOf settings.requestTimeout config) fun request =>
        .send request (replyResult request.timeout) := fun _ _ => by simp only [fetch]
  constructor
  · intros
    rw [hinvoke, hinvoke]
  · intro config view
    rw [hinvoke]
    -- how the request is worked out does not matter
    generalize requestOf settings.requestTimeout config = request
    exact neverAsks_attempt fun r => neverAsks_replyResult r.timeout

/-- The actions that come with the engine are oblivious, but for the condition. -/
theorem oblivious_of_standard {settings : Settings} {kind : String} {b : Behaviour}
    (h : (Registry.standard settings).find? kind = some b) : b = decide ∨ b.Oblivious := by
  have hmem : (kind, b) ∈ Registry.standard settings := Fields.mem_of_get? h
  simp only [Registry.standard, List.mem_cons, Prod.mk.injEq, List.not_mem_nil, or_false] at hmem
  rcases hmem with ⟨-, rfl⟩ | ⟨-, rfl⟩ | ⟨-, rfl⟩ | ⟨-, rfl⟩ | ⟨-, rfl⟩ | ⟨-, rfl⟩ | ⟨-, rfl⟩ | ⟨-, rfl⟩ |
    ⟨-, rfl⟩ | ⟨-, rfl⟩
  · exact .inr oblivious_entrance
  · exact .inr oblivious_entrance
  · exact .inl rfl
  · exact .inr (oblivious_fetch settings)
  · exact .inr oblivious_assign
  · exact .inr oblivious_delay
  · exact .inr oblivious_report
  · exact .inr oblivious_respond
  · exact .inr oblivious_filter
  · exact .inr (oblivious_announce settings)

/-- A condition with discreet settings asks for nothing, and does the same without environment
and secrets. -/
theorem decide_invoke_veil (view : View) {config : Fields Value} (h : Condition.Discreet config) :
    decide.invoke config view.veil = decide.invoke config view ∧
      (decide.invoke config view).NeverAsks := by
  have hnone : ∀ v : View, v.secretsAsked (Condition.Selection.references v config) = [] :=
    fun v => v.secretsAsked_eq_nil (Condition.Selection.references_not_reserved v h)
  constructor
  · simp only [decide, hnone, Condition.Selection.ofConfig_veil view h]
    rfl
  · exact ⟨hnone view, neverAsks_attempt fun _ => trivial⟩

/-- An action that is oblivious, or a condition with discreet settings, does the same without
environment and secrets and asks for none. -/
theorem start_veil {b : Behaviour} (hb : b = decide ∨ b.Oblivious) (view : View)
    {config : Fields Value} (hconfig : b = decide → Condition.Discreet config) :
    b.start config view.veil = b.start config view ∧ (b.start config view).NeverAsks := by
  rcases hb with rfl | hb
  · exact decide_invoke_veil view (hconfig rfl)
  · have hinvoke : ∀ prepared, b.invoke prepared view.veil = b.invoke prepared view :=
      fun prepared => hb.blind prepared view .empty .empty
    constructor
    · simp only [Behaviour.start, hinvoke]
    · exact neverAsks_attempt fun prepared => hb.silent prepared view

end Action

end Automation
