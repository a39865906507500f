/-
Automation/Proofs/Action/Filter.lean

Which records a filter keeps.

The settings of a filter put one question to each record: how the value at a path of the record
compares (`Question`).  If there is a value to compare with and each record has an answer, the
records that answer yes are kept in order, and no others.  So it is with every operator; where the
operator looks at the record alone, the value decides nothing beyond being there
(`filter_keeps_met`).  Without a value the question is not put and all records are kept, also where
the operator could do without one (`filter_without_value`).
-/
import Automation.Action.Filter
import Automation.Proofs.Value

namespace Automation

namespace Condition

/-- The operators of these names look at the left side alone. -/
def LooksLeft (operator : String) : Prop :=
  ∃ op ∈ [Operator.isEmpty, .isNotEmpty, .isTrue, .isFalse], Operator.ofName? operator = some op

theorem compare_of_looksLeft {operator : String} (h : LooksLeft operator)
    (left right other : Value) : compare left operator right = compare left operator other := by
  obtain ⟨op, hop, hname⟩ := h
  unfold compare
  rw [hname]
  show holds op left right = holds op left other
  simp only [List.mem_cons, List.not_mem_nil, or_false] at hop
  rcases hop with rfl | rfl | rfl | rfl <;> rfl

end Condition

namespace Action

/-- What is asked of a record: how the value at a path compares. -/
structure Question where
  path : String
  operator : String
  value : Value

namespace Question

variable {q : Question} {record : Value} {records : List Value}

/-- The answer of a record, unless the path cannot be walked or its end not be compared. -/
def answer (q : Question) (record : Value) : Except Fault Bool := do
  Condition.compare (← record.at q.path) q.operator q.value

/-- The record answers yes. -/
def isMet (q : Question) (record : Value) : Bool :=
  match q.answer record with
  | .ok met => met
  | .error _ => false

theorem isMet_of_answer {met : Bool} (h : q.answer record = .ok met) : q.isMet record = met := by
  unfold isMet
  rw [h]

/-- A record answers yes if what stands at the path compares as asked. -/
theorem isMet_iff : q.isMet record = true ↔
    ∃ v, record.at q.path = .ok v ∧ Condition.compare v q.operator q.value = .ok true := by
  unfold isMet answer
  rcases record.at q.path with fault | v
  · exact iff_of_false nofun fun ⟨_, h, _⟩ => nomatch h
  show (match Condition.compare v q.operator q.value with
    | .ok met => met
    | .error _ => false) = true ↔ _
  constructor
  · intro h
    refine ⟨v, rfl, ?_⟩
    split at h
    · next hmet => rw [hmet, h]
    · cases h
  · rintro ⟨w, hw, hmet⟩
    obtain rfl := Except.ok.inj hw
    rw [hmet]

/-- A record is kept or left out before the records behind it are asked. -/
theorem keep_cons (q : Question) (record : Value) (rest : List Value) :
    keep q.path q.operator q.value (record :: rest) =
      (q.answer record).bind fun met =>
        (keep q.path q.operator q.value rest).map fun kept =>
          if met then record :: kept else kept := by
  rw [keep]
  unfold answer
  rcases record.at q.path with fault | v
  · rfl
  show (Condition.compare v q.operator q.value).bind _ =
    (Condition.compare v q.operator q.value).bind _
  refine congrArg (Except.bind _) (funext fun met => ?_)
  rcases keep q.path q.operator q.value rest with fault | kept <;> rfl

/-- If each record has an answer, those that answer yes are kept. -/
theorem keep_eq_filter (h : ∀ r ∈ records, ∃ met, q.answer r = .ok met) :
    keep q.path q.operator q.value records = .ok (records.filter q.isMet) := by
  induction records with
  | nil => rfl
  | cons record rest ih =>
    obtain ⟨met, hmet⟩ := h record List.mem_cons_self
    have hrest := ih fun r hr => h r (List.mem_cons_of_mem _ hr)
    rw [keep_cons, hmet, hrest, List.filter_cons, isMet_of_answer hmet]
    rfl

end Question

variable {config : Fields Value} {view : View} {records : List Value} {q : Question}

/-- Settings put a question: they name a path that is not empty and an operation. -/
structure Asks (config : Fields Value) (q : Question) : Prop where
  path : config.at "filterField" = .text q.path
  path_ne : q.path ≠ ""
  operator : ∃ operation, config.at "filterOperation" = .text operation ∧
    operatorName operation = q.operator
  value : config.at "filterValue" = q.value

/-- Without a value all records are asked for. -/
theorem filtered_of_isMissing (hvalue : (config.at "filterValue").isMissing = true)
    (records : List Value) : filtered config records = .ok records := by
  simp only [filtered, hvalue, Bool.not_true, Bool.and_false, Bool.false_eq_true, if_false]

/-- Settings with a value ask for the records that are kept for their question. -/
theorem Asks.filtered_eq (h : Asks config q) (hvalue : q.value.isMissing = false)
    (records : List Value) :
    filtered config records = keep q.path q.operator q.value records := by
  obtain ⟨operation, hoperation, hoperator⟩ := h.operator
  have hpath : (Value.text q.path).isTruthy = true := by
    simpa [Value.isTruthy, String.isEmpty_iff] using h.path_ne
  have hread : pathOf (.text q.path) = .ok q.path := by
    unfold pathOf Value.orElse
    rw [if_pos hpath]
  simp only [filtered, h.path, h.value, hpath, hvalue, hoperation, Bool.not_false, Bool.and_true,
    if_true]
  cases records with
  | nil => rfl
  | cons record rest =>
    show (pathOf (.text q.path)).bind
      (fun path => keep path (operatorName operation) q.value (record :: rest)) = _
    rw [hread, hoperator]
    rfl

/-- Another value makes another question, and no other source. -/
theorem Asks.set (h : Asks config q) (value : Value) :
    Asks (config.set "filterValue" value) { q with value } := by
  refine ⟨?_, h.path_ne, ?_, Fields.at_set_self config "filterValue" value⟩
  · rw [Fields.at_set_of_ne config (by decide)]
    exact h.path
  · rw [Fields.at_set_of_ne config (by decide)]
    exact h.operator

theorem filterSource_set (config : Fields Value) (value : Value) (view : View) :
    filterSource (config.set "filterValue" value) view = filterSource config view := by
  have hget : ∀ {key : String}, key ≠ "filterValue" →
      (config.set "filterValue" value).get? key = config.get? key :=
    fun hkey => Fields.get?_set_of_ne config hkey value
  unfold filterSource Fields.at
  rw [hget (by decide), hget (by decide), hget (by decide)]

/-- The result of a filter over records. -/
theorem filter_invoke_eq (hsource : filterSource config view = .ok (.list records)) :
    filter.invoke config view =
      Activity.attempt (filtered config records) fun kept =>
        .done (filterResult (.list kept) kept.length) := by
  show Activity.attempt (filterSource config view) _ = _
  rw [hsource]
  rfl

/-- A filter with a value to compare with keeps the records that answer its question with yes, in
order.  Where the operator looks at the record alone, it keeps the same for any other value. -/
theorem filter_keeps_met (hasks : Asks config q)
    (hsource : filterSource config view = .ok (.list records))
    (hvalue : q.value.isMissing = false)
    (hanswers : ∀ r ∈ records, ∃ met, q.answer r = .ok met) :
    filter.invoke config view =
        .done (filterResult (.list (records.filter q.isMet)) (records.filter q.isMet).length) ∧
      (∀ r, q.isMet r = true ↔
        ∃ v, r.at q.path = .ok v ∧ Condition.compare v q.operator q.value = .ok true) ∧
      (Condition.LooksLeft q.operator → ∀ value : Value, value.isMissing = false →
        filter.invoke (config.set "filterValue" value) view = filter.invoke config view) := by
  refine ⟨?_, fun r => Question.isMet_iff, fun hlooks value hother => ?_⟩
  · rw [filter_invoke_eq hsource, hasks.filtered_eq hvalue, Question.keep_eq_filter hanswers]
    rfl
  · -- the question with the other value has the same answers
    have hsame : ∀ r, Question.answer { q with value } r = q.answer r := by
      intro r
      show (r.at q.path).bind _ = (r.at q.path).bind _
      exact congrArg (Except.bind _)
        (funext fun v => Condition.compare_of_looksLeft hlooks v value q.value)
    have hsource' : filterSource (config.set "filterValue" value) view = .ok (.list records) := by
      rw [filterSource_set, hsource]
    have hmet : Question.isMet { q with value } = q.isMet := by
      funext r
      unfold Question.isMet
      rw [hsame]
    have hanswers' : ∀ r ∈ records, ∃ met, Question.answer { q with value } r = .ok met := by
      intro r hr
      rw [hsame]
      exact hanswers r hr
    rw [filter_invoke_eq hsource, filter_invoke_eq hsource', hasks.filtered_eq hvalue,
      (hasks.set value).filtered_eq hother, Question.keep_eq_filter hanswers,
      Question.keep_eq_filter hanswers', hmet]

/-- Of three parcels one has no note, and the note of another is blank. -/
theorem filter_keeps_met_among_parcels :
    let noted : Value := .object [("id", .int 1), ("note", .text "fragile")]
    let blank : Value := .object [("id", .int 2), ("note", .text "  ")]
    let bare : Value := .object [("id", .int 3)]
    let config : Fields Value :=
      [("items", .list [noted, blank, bare]), ("filterField", .text "note"),
        ("filterOperation", .text "isNotEmpty"), ("filterValue", .bool false)]
    let view : View := .bare ⟨"run", .null, ⟨"", 0⟩⟩
    filter.invoke config view = .done (filterResult (.list [noted]) 1) ∧
      filter.invoke (config.set "filterValue" (.int 0)) view = filter.invoke config view := by
  intro noted blank bare config view
  have hasks : Asks config ⟨"note", "isNotEmpty", .bool false⟩ :=
    ⟨rfl, by decide, ⟨"isNotEmpty", rfl, by decide⟩, rfl⟩
  have hanswers : ∀ r ∈ [noted, blank, bare],
      ∃ met, Question.answer ⟨"note", "isNotEmpty", .bool false⟩ r = .ok met := by
    simp only [List.forall_mem_cons]
    exact ⟨⟨true, rfl⟩, ⟨false, rfl⟩, ⟨false, rfl⟩, List.forall_mem_nil _⟩
  have hsource : filterSource config view = .ok (.list [noted, blank, bare]) := rfl
  obtain ⟨hkept, -, hother⟩ := filter_keeps_met hasks hsource rfl hanswers
  exact ⟨hkept, hother ⟨.isNotEmpty, by decide, by decide⟩ (.int 0) rfl⟩

/-- A filter without a value to compare with keeps all records, whatever its operator is. -/
theorem filter_without_value (hsource : filterSource config view = .ok (.list records))
    (hvalue : (config.at "filterValue").isMissing = true) :
    filter.invoke config view = .done (filterResult (.list records) records.length) := by
  rw [filter_invoke_eq hsource, filtered_of_isMissing hvalue]
  rfl

end Action

end Automation
