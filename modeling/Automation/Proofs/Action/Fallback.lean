/-
Automation/Proofs/Action/Fallback.lean

Numbers in settings that cannot be used.

Something stands in for them: a default in the settings of a loop and for the status of a reply,
and a refusal for a duration.  So it is for all values but those beyond the range of numbers.
Settings with an infinite number cannot be read, a reply with an infinite status is not sent, and a
wait breaks down if its duration is too large for a number or infinite in milliseconds
(`Overflows`).  Each of the three has its cases (`ofConfig_cases`, `durationOf_cases`,
`respond_cases`), and they make up the main result (`unusable_numbers_fall_back`).
-/
import Automation.Action.Delay
import Automation.Action.Respond
import Automation.Proofs.Condition.Comparison
import Automation.Proofs.Loop.Settings

namespace Automation.Action

variable {config : Fields Value} {v : Value} {unit : ℤ}

/-! ### Durations -/

/-- So many of a unit in milliseconds, as a number. -/
def milliseconds (x : Binary64) (unit : ℤ) : Binary64 :=
  if unit = 1 then x else x.mul (.ofInt unit)

/-- A duration is this many milliseconds, cut to an integer. -/
def Measures (v : Value) (unit n : ℤ) : Prop :=
  ∃ x, v.toFloat = .ok x ∧ (Value.float (milliseconds x unit)).Denotes n

/-- A duration is no number of milliseconds, because it is too large for one. -/
def IsEndless (v : Value) (unit : ℤ) : Prop :=
  v.IsOverlarge ∨ ∃ x, v.toFloat = .ok x ∧ (Value.float (milliseconds x unit)).IsInfinite

/-- Taking a value as a number fails for an integer that is too large; other failures mean that
a duration is none. -/
theorem toFloat_cases (v : Value) :
    v.IsOverlarge ∧ v.toFloat = .error .integerTooLarge ∨
      ¬ v.IsOverlarge ∧ ((∃ x, v.toFloat = .ok x) ∨
        ∃ fault, v.toFloat = .error fault ∧ asDelayFault fault = .delayNotANumber) := by
  cases v with
  | int n =>
    rcases Nat.lt_or_ge n.natAbs Binary64.overflow with h | h
    · exact .inr ⟨not_le.mpr h, .inl ⟨_, Value.floatOfInt_of_lt h⟩⟩
    · exact .inl ⟨h, Value.floatOfInt_of_ge h⟩
  | bool b => exact .inr ⟨id, .inl ⟨_, rfl⟩⟩
  | float x => exact .inr ⟨id, .inl ⟨x, rfl⟩⟩
  | text s =>
    refine .inr ⟨id, ?_⟩
    rcases h : Numeral.float? s with - | x
    · exact .inr ⟨.unreadableFloat s, by simp [Value.toFloat, h], rfl⟩
    · exact .inl ⟨x, by simp [Value.toFloat, h]⟩
  | _ => exact .inr ⟨id, .inr ⟨_, rfl, rfl⟩⟩

theorem scaled_of_float {x : Binary64} (h : v.toFloat = .ok x) :
    scaled v unit = (Value.intOfFloat (milliseconds x unit)).mapError asDelayFault := by
  simp only [scaled, milliseconds, h]
  cases Value.intOfFloat (if unit = 1 then x else x.mul (.ofInt unit)) <;> rfl

theorem scaled_of_error {fault : Fault} (h : v.toFloat = .error fault) :
    scaled v unit = .error (asDelayFault fault) := by
  simp only [scaled, h]

/-- A duration is measured or refused as no number, unless it is endless. -/
theorem scaled_cases (v : Value) (unit : ℤ) :
    IsEndless v unit ∧
        (∃ fault ∈ [Fault.integerTooLarge, .infiniteInteger], scaled v unit = .error fault) ∨
      ¬ IsEndless v unit ∧ ((∃ n, scaled v unit = .ok n ∧ Measures v unit n) ∨
        scaled v unit = .error .delayNotANumber ∧ ∀ n, ¬ Measures v unit n) := by
  rcases toFloat_cases v with ⟨hlarge, h⟩ | ⟨hsmall, ⟨x, h⟩ | ⟨fault, h, hfault⟩⟩
  · exact .inl ⟨.inl hlarge, .integerTooLarge, by simp, scaled_of_error h⟩
  · -- the value is a number, and its milliseconds decide
    have hmeasures : ∀ n, Measures v unit n ↔ (Value.float (milliseconds x unit)).Denotes n := by
      intro n
      simp [Measures, h]
    have hendless : IsEndless v unit ↔ (Value.float (milliseconds x unit)).IsInfinite := by
      simp [IsEndless, hsmall, h]
    simp only [scaled_of_float h, hmeasures, hendless, ← Value.intOfFloat_eq_ok_iff]
    cases milliseconds x unit with
    | nan => exact .inr ⟨nofun, .inr ⟨rfl, nofun⟩⟩
    | infinite negative => exact .inl ⟨⟨negative, rfl⟩, .infiniteInteger, by simp, rfl⟩
    | finite => exact .inr ⟨nofun, .inl ⟨_, rfl, rfl⟩⟩
  · have hnone : ∀ x, v.toFloat ≠ .ok x := by simp [h]
    refine .inr ⟨?_, .inr ⟨?_, ?_⟩⟩
    · rintro (hlarge | ⟨x, hx, -⟩)
      · exact hsmall hlarge
      · exact hnone x hx
    · rw [scaled_of_error h, hfault]
    · rintro n ⟨x, hx, -⟩
      exact hnone x hx

/-- The settings for a duration, with the milliseconds of their units. -/
def units : List (String × ℤ) :=
  [("durationMs", 1), ("durationSeconds", 1000), ("durationMinutes", 60000)]

/-- The duration that counts, with the milliseconds of its unit: the first one given. -/
def counted? (config : Fields Value) : Option (Value × ℤ) :=
  (units.map fun u => (config.at u.1, u.2)).find? fun d => !d.1.isMissing

/-- The settings make for a wait of so many milliseconds; without a duration there is none. -/
def Lasts (config : Fields Value) (n : ℤ) : Prop :=
  match counted? config with
  | none => n = 0
  | some (v, unit) => Measures v unit n

/-- The duration that counts is endless. -/
def Overflows (config : Fields Value) : Prop :=
  ∃ v unit, counted? config = some (v, unit) ∧ IsEndless v unit

theorem durationOf_eq (config : Fields Value) : durationOf config =
    match counted? config with
    | none => .ok 0
    | some (v, unit) => scaled v unit := by
  unfold durationOf counted? units
  simp only [List.map_cons, List.map_nil, List.find?_cons, List.find?_nil]
  cases (config.at "durationMs").isMissing
  · rfl
  cases (config.at "durationSeconds").isMissing
  · rfl
  cases (config.at "durationMinutes").isMissing
  · rfl
  · rfl

/-- A wait takes what its settings say or is refused, unless the duration is endless. -/
theorem durationOf_cases (config : Fields Value) :
    Overflows config ∧
        (∃ fault ∈ [Fault.integerTooLarge, .infiniteInteger], durationOf config = .error fault) ∨
      ¬ Overflows config ∧ ((∃ n, durationOf config = .ok n ∧ Lasts config n) ∨
        durationOf config = .error .delayNotANumber ∧ ∀ n, ¬ Lasts config n) := by
  rw [durationOf_eq]
  unfold Overflows Lasts
  rcases counted? config with - | ⟨v, unit⟩
  · exact .inr ⟨by simp, .inl ⟨0, rfl, rfl⟩⟩
  · simpa using scaled_cases v unit

/-! ### Replies -/

/-- The status of a reply: what the setting stands for, and the usual one if that counts as
nothing. -/
def StatusOf (v : Value) (n : ℤ) : Prop := if v.isTruthy then v.StandsFor 200 n else n = 200

/-- A value is no text that the reader of structured text gives up on. -/
def Readable (v : Value) : Prop := ∀ s, v = .text s → ∃ read, Json.data? s = .ok read

theorem structuredOr_of_readable (fallback : Value) (h : Readable v) :
    ∃ w, structuredOr fallback v = .ok w := by
  unfold structuredOr
  split
  · exact ⟨fallback, rfl⟩
  · cases v with
    | text s =>
      obtain ⟨read, hread⟩ := h s rfl
      refine ⟨read.getD (.text s), ?_⟩
      show (Json.data? s).map _ = _
      rw [hread]
      rfl
    | _ => exact ⟨_, rfl⟩

/-- The texts of a reply can be read. -/
structure ReplyReadable (config : Fields Value) : Prop where
  headers : Readable ((config.at "headers").orElse (config.at "customHeaders"))
  body : Readable (config.at "body")

theorem exists_replyHeaders
    (h : Readable ((config.at "headers").orElse (config.at "customHeaders"))) :
    ∃ headers, replyHeaders config = .ok headers := by
  obtain ⟨headers, hheaders⟩ := structuredOr_of_readable (.object []) h
  unfold replyHeaders
  dsimp only
  rw [hheaders]
  exact ⟨_, rfl⟩

/-- A status comes to an integer, unless it is infinite. -/
theorem status_cases (v : Value) :
    v.IsInfinite ∧ (v.orElse (.int 200)).toIntOr 200 = .error .infiniteInteger ∨
      ¬ v.IsInfinite ∧ ∃ n, (v.orElse (.int 200)).toIntOr 200 = .ok n ∧ StatusOf v n := by
  unfold Value.orElse StatusOf
  by_cases htruthy : v.isTruthy = true
  · simpa only [htruthy, if_true] using Value.toIntOr_cases 200 v
  · have hfinite : ¬ v.IsInfinite := by
      rintro ⟨negative, rfl⟩
      exact htruthy rfl
    rw [if_neg htruthy]
    refine .inr ⟨hfinite, 200, rfl, ?_⟩
    rw [if_neg htruthy]

/-- A reply has the status that its setting stands for, unless that is infinite. -/
theorem respond_cases (h : ReplyReadable config) (view : View) :
    (config.at "statusCode").IsInfinite ∧
        respond.invoke config view = Activity.fail .infiniteInteger ∨
      ¬ (config.at "statusCode").IsInfinite ∧
        ∃ n reply, StatusOf (config.at "statusCode") n ∧
          respond.invoke config view = Activity.done reply ∧
          reply.get? "statusCode" = some (.int n) := by
  have hinvoke : respond.invoke config view =
      Activity.attempt (replyFields config) Activity.done := rfl
  rw [hinvoke]
  unfold replyFields
  rcases status_cases (config.at "statusCode") with
    ⟨hinfinite, hstatus⟩ | ⟨hfinite, n, hstatus, hn⟩
  · rw [hstatus]
    exact .inl ⟨hinfinite, rfl⟩
  obtain ⟨headers, hheaders⟩ := exists_replyHeaders h.headers
  obtain ⟨body, hbody⟩ := structuredOr_of_readable (.object []) h.body
  rw [hstatus, hheaders, hbody]
  exact .inr ⟨hfinite, n, _, hn, rfl, rfl⟩

/-! ### Numbers of every kind -/

open Loop (Settings)
open Loop.Settings (VariablesWellFormed numberKeys)

/-- The settings of a loop with well-formed variables are read, with defaults for what is no
number, unless one of them is infinite; a wait takes as long as its settings say or is refused,
unless its duration is endless; and a reply whose texts can be read has the status that is set, or
the usual one, unless that is infinite. -/
theorem unusable_numbers_fall_back (config : Fields Value) (view : View)
    (defaultMaxIterations : ℤ) :
    (VariablesWellFormed config →
      ((∃ s, Settings.ofConfig config defaultMaxIterations = .ok s ∧
          s.Follows config defaultMaxIterations) ↔
        ∀ key ∈ numberKeys, ¬ (config.at key).IsInfinite)) ∧
      (((∃ n, durationOf config = .ok n ∧ Lasts config n) ∨
          durationOf config = .error .delayNotANumber ∧ ∀ n, ¬ Lasts config n) ↔
        ¬ Overflows config) ∧
      (ReplyReadable config →
        ((∃ n reply, StatusOf (config.at "statusCode") n ∧
            respond.invoke config view = Activity.done reply ∧
            reply.get? "statusCode" = some (.int n)) ↔
          ¬ (config.at "statusCode").IsInfinite)) := by
  refine ⟨fun h => ?_, ?_, fun h => ?_⟩
  · rcases Settings.ofConfig_cases h defaultMaxIterations with
      ⟨⟨key, hkey, hinfinite⟩, hfault⟩ | ⟨hfinite, hsettings⟩
    · rw [hfault]
      exact iff_of_false nofun fun hfinite => hfinite key hkey hinfinite
    · exact iff_of_true hsettings hfinite
  · rcases durationOf_cases config with ⟨hendless, fault, hfault, hduration⟩ | ⟨hfinite, hduration⟩
    · refine iff_of_false ?_ fun hfinite => hfinite hendless
      rw [hduration]
      rintro (⟨n, hn, -⟩ | ⟨hrefused, -⟩)
      · cases hn
      · rw [Except.error.inj hrefused] at hfault
        simp at hfault
    · exact iff_of_true hduration hfinite
  · rcases respond_cases h view with ⟨hinfinite, hfault⟩ | ⟨hfinite, hreply⟩
    · rw [hfault]
      exact iff_of_false nofun fun hfinite => hfinite hinfinite
    · exact iff_of_true hreply hfinite

/-- None of the numbers here is one; the infinite batch size is a word. -/
theorem unusable_numbers_fall_back_of_words :
    let entry : Value := .object [("variableName", .text "item"), ("sourceNodeId", .text "n"),
      ("sourceField", .text "f")]
    let config : Fields Value :=
      [("loopVariables", .list [.text "note", entry]), ("maxIterations", .text "lots"),
        ("loopCounterStart", .list []), ("delayMs", .float .nan), ("batchSize", .text "inf"),
        ("durationMs", .text ""), ("durationSeconds", .object [("n", .int 2)]),
        ("statusCode", .text "teapot"), ("body", .text "gone")]
    let view : View := .bare ⟨"run", .null, ⟨"", 0⟩⟩
    (VariablesWellFormed config ∧ ∃ s, Settings.ofConfig config 500 = .ok s ∧
        s.Follows config 500) ∧
      (¬ Overflows config ∧ ((∃ n, durationOf config = .ok n ∧ Lasts config n) ∨
        durationOf config = .error .delayNotANumber ∧ ∀ n, ¬ Lasts config n)) ∧
      ReplyReadable config ∧ ∃ n reply, StatusOf (config.at "statusCode") n ∧
        respond.invoke config view = Activity.done reply ∧
        reply.get? "statusCode" = some (.int n) := by
  intro entry config view
  obtain ⟨hloop, hwait, hreply⟩ := unusable_numbers_fall_back config view 500
  have hvariables : VariablesWellFormed config := Settings.varsOf_isOk_iff.mp ⟨_, rfl⟩
  have hendless : ¬ Overflows config := by
    rintro ⟨v, unit, hcounted, hlarge⟩
    have hseconds : counted? config = some (.object [("n", .int 2)], 1000) := rfl
    obtain ⟨rfl, rfl⟩ := Prod.mk.inj (Option.some.inj (hseconds.symm.trans hcounted))
    rcases hlarge with hlarge | ⟨x, hx, -⟩
    · exact hlarge
    · cases hx
  have hreadable : ReplyReadable config := by
    constructor
    case headers =>
      have hheaders : (config.at "headers").orElse (config.at "customHeaders") = .null := rfl
      intro s hs
      cases hheaders.symm.trans hs
    case body =>
      intro s hs
      obtain rfl := Value.text.inj hs
      exact ⟨none, by cbv⟩
  have hnumbers : ∀ key ∈ numberKeys, ¬ (config.at key).IsInfinite := by
    have hcap : config.at "maxIterations" = .text "lots" := rfl
    have hstart : config.at "loopCounterStart" = .list [] := rfl
    have hdelay : config.at "delayMs" = .float .nan := rfl
    have hbatch : config.at "batchSize" = .text "inf" := rfl
    simp [numberKeys, Value.IsInfinite, hcap, hstart, hdelay, hbatch]
  have hstatus : ¬ (config.at "statusCode").IsInfinite := by
    have hword : config.at "statusCode" = .text "teapot" := rfl
    simp [Value.IsInfinite, hword]
  exact ⟨⟨hvariables, (hloop hvariables).mpr hnumbers⟩, ⟨hendless, hwait.mpr hendless⟩,
    hreadable, (hreply hreadable).mpr hstatus⟩

end Automation.Action
