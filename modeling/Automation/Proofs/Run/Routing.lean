/-
Automation/Proofs/Run/Routing.lean

Where a condition leads.

A condition is carried out in one go: no other branch works between the look at its node and
the look at the next one (`Proceeds`).  The tags that it leaves say which edge is followed: the
first one, as authored, with the first tag that has one (`chosenEdge_eq`).  Put together with the
choice of the case, the branch goes on along the one edge of `route`, if there is one, and what is
kept of the condition tells of the case that decided (`condition_routes`).
-/
import Automation.Action.Standard
import Automation.Proofs.Condition.Choice
import Automation.Proofs.Run.Deed
import Automation.Proofs.Value

namespace Automation

open Condition (Case ReturnType Selection)

namespace Graph

/-- The first edge from a node, as authored, that has a tag. -/
def firstTagged (g : Graph) (id tag : String) : Option Edge :=
  (g.outgoing id).find? fun e => e.branch == some tag

theorem head?_tagged (g : Graph) (id tag : String) : (g.tagged id tag).head? = g.firstTagged id tag :=
  List.head?_filter ..

/-- The edge along which a condition is left, by its return type, the case that was taken if there
is one, and the value that is returned. -/
def route (g : Graph) (id : String) (t : ReturnType) (found : Option Case) (value : Value) :
    Option Edge :=
  match t, found with
  | .boolean, some _ =>
    if value = .bool true then g.firstTagged id "true"
    else (g.firstTagged id "false").or (g.firstTagged id "else")
  | .boolean, none => (g.firstTagged id "false").or (g.firstTagged id "else")
  | .text, some c | .integer, some c =>
    (g.firstTagged id c.id).or (g.firstTagged id value.plain)
  | .text, none | .integer, none => g.firstTagged id "else"

end Graph

namespace Action

/-- The edge that is chosen is the first one with the first tag that has one. -/
theorem chosenEdge_eq (g : Graph) (n : Node) (tags : List String) :
    chosenEdge g n tags = (tags.findSome? (g.firstTagged n.id)).toList := by
  induction tags with
  | nil => rfl
  | cons tag tags ih =>
    have hhead := g.head?_tagged n.id tag
    unfold chosenEdge
    rw [List.findSome?_cons]
    split
    · next e rest h =>
      rw [h, List.head?_cons] at hhead
      rw [← hhead]
      rfl
    · next h =>
      rw [h, List.head?_nil] at hhead
      rw [← hhead, ih]

/-- What a condition gives as its result. -/
def told (s : Selection) (now : Moment) : Fields Value :=
  Fields.set (s.toFields now) branchTagsKey (.list (s.branchTags.map .text))

theorem decide_start {config : Fields Value} {view : View} {s : Selection}
    (h : Selection.ofConfig view config = .ok s) : decide.start config view =
      .askSecrets (view.secretsAsked (Selection.references view config))
        (.done (told s view.occasion.now)) := by
  have hprepare : decide.prepare config = .ok config := rfl
  unfold Behaviour.start
  rw [hprepare]
  show Activity.askSecrets _ _ = _
  rw [h]
  rfl

theorem wantedTags_told (s : Selection) (now : Moment) :
    wantedTags (.object (told s now)) = s.branchTags := by
  have hfield : (Value.object (told s now)).field branchTagsKey
      = .list (s.branchTags.map .text) := by
    show (Fields.get? (told s now) branchTagsKey).getD .null = _
    rw [told, Fields.get?_set_self]
    rfl
  obtain ⟨tag, tags, htags⟩ : ∃ tag tags, s.branchTags = tag :: tags := by
    unfold Selection.branchTags
    split
    · split <;> exact ⟨_, _, rfl⟩
    · exact ⟨_, _, rfl⟩
    · exact ⟨_, _, rfl⟩
  unfold wantedTags
  rw [hfield, htags]
  show List.filterMap _ ((tag :: tags).map Value.text) = tag :: tags
  rw [List.filterMap_map]
  exact List.filterMap_some

/-- The first of one or two tags that has an edge. -/
theorem findSome?_pair {f : String → Option Edge} (first second : String) :
    [first].findSome? f = f first ∧ [first, second].findSome? f = (f first).or (f second) := by
  simp only [List.findSome?_cons, List.findSome?_nil]
  rcases f first with - | e <;> rcases f second with - | e' <;> simp

/-- A condition is left along its route. -/
theorem successors_told {g : Graph} {n : Node} {t : ReturnType} {found : Option (ℕ × Case)}
    {s : Selection} (h : s.Describes t found) (now : Moment) :
    decide.successors g n (.object (told s now))
      = (g.route n.id t (found.map Prod.snd) s.returnValue).toList := by
  show chosenEdge g n (wantedTags (.object (told s now))) = _
  rw [wantedTags_told, chosenEdge_eq]
  obtain ⟨rfl, hcase, -, hvalue⟩ := h
  have hpair := findSome?_pair (f := g.firstTagged n.id)
  rcases ht : s.returnType <;> rcases found with - | ⟨k, c⟩
  case boolean.none =>
    have hfalse : s.returnValue = .bool false := by rw [hvalue, ht]; rfl
    simp [Selection.branchTags, Selection.isMet, ht, hfalse, (hpair _ _).2, Graph.route]
  case boolean.some =>
    by_cases hmet : s.returnValue = .bool true
    · simp [Selection.branchTags, Selection.isMet, ht, hmet, (hpair _ "").1, Graph.route]
    · simp [Selection.branchTags, Selection.isMet, ht, hmet, (hpair _ _).2, Graph.route]
  all_goals
    simp only [Selection.branchTags, ht, hcase, Option.map_none, Option.map_some, (hpair _ "").1,
      (hpair _ _).2, Graph.route]

end Action

namespace Run

open Automation.Action

/-- A branch gets from one strand to another, and no other branch works between. -/
abbrev Proceeds (setup : Setup) : State × Strand → State × Strand → Prop :=
  Relation.ReflTransGen fun x y => step setup x.1 x.2 = (y.1, .proceed y.2)

variable {setup : Setup} {n : Node} {b : Branch} {s : State}

/-- A condition that comes to something completes, and all it gives is kept, but for the tags. -/
theorem verdict_told (sel : Selection) (now : Moment) :
    Verdict.of (.ok (.object (told sel now))) = ⟨.object (told sel now), none, .null⟩ := by
  have hsuccess : (Value.object (told sel now)).field "success" = .bool true := by
    show (Fields.get? (told sel now) "success").getD .null = _
    rw [told, Fields.get?_set_of_ne _ (by decide)]
    rfl
  have hstated : Verdict.statedError (.object (told sel now)) = none := by
    unfold Verdict.statedError
    rw [hsuccess]
    exact if_neg (by simp)
  show Verdict.mk (.object (told sel now)) (Verdict.statedError _) .null = _
  rw [hstated]

theorem left_told (sel : Selection) (now : Moment) (policy : FailurePolicy) :
    (Verdict.of (.ok (.object (told sel now)))).left policy = .object (sel.toFields now) := by
  have hnew : branchTagsKey ∉ Fields.keys (sel.toFields now) := by
    simp [Selection.toFields, Fields.keys, branchTagsKey]
  rw [verdict_told]
  simp only [Verdict.left, Verdict.completed, Verdict.kept, Value.drop, Value.put, told,
    Fields.set_of_not_mem hnew]
  simp [Selection.toFields, Fields.set, Fields.erase, branchTagsKey]

/-- An enabled condition gets to work in the step that takes its node. -/
theorem step_visit_decide (hdecide : setup.registry.find? "condition" = some Action.decide)
    (hkind : n.kind = "condition") (htakes : Takes setup s.journal n.id b n)
    (henabled : n.isDisabled = false) :
    ∃ s', step setup s (.visit n.id b)
      = (s', .proceed (.act n (decide.start n.config b.view) b)) := by
  have hloop : n.isLoop = false := by simp [Node.isLoop, hkind]
  have hsettings : settingsFor decide n b.view = .ok n.config := rfl
  show ∃ s', visit setup s n.id b = (s', _)
  rw [htakes.visit_eq_begin henabled]
  simp only [begin, hloop, Bool.false_eq_true, if_false, beginAction, hkind, hdecide, hsettings]
  exact ⟨_, rfl⟩

/-- A condition that has come to something leaves it, and goes on along its route. -/
theorem step_done_told (hdecide : setup.registry.find? "condition" = some Action.decide)
    (hkind : n.kind = "condition") (s : State) (sel : Selection) (now : Moment) (b : Branch) :
    ∃ s', step setup s (.act n (.done (told sel now)) b)
        = (s', .proceed (.follow
            ((decide.successors setup.graph n (.object (told sel now))).map Edge.target)
            (b.leave n.id (.object (sel.toFields now)) none))) ∧
      s'.journal.results.get? n.id = some (.object (sel.toFields now)) := by
  have hloop : n.isLoop = false := by simp [Node.isLoop, hkind]
  have hresponse : n.isResponse = false := by simp [Node.isResponse, hkind]
  have hnext : nextTargets setup n (.object (told sel now))
      = (decide.successors setup.graph n (.object (told sel now))).map Edge.target := by
    simp only [nextTargets, successors, hloop, Bool.false_eq_true, if_false, hkind, hdecide]
  have herror : (Verdict.of (.ok (.object (told sel now)))).error = none := by rw [verdict_told]
  have hresult : (Verdict.of (.ok (.object (told sel now)))).result = .object (told sel now) := by
    rw [verdict_told]
  show ∃ s', complete setup s n (.ok (.object (told sel now))) b = (s', _) ∧ _
  simp only [complete, recorded, Verdict.aborts, left_told, herror, hresult, hresponse, hnext,
    Option.isSome_none, Bool.false_and, Bool.false_eq_true, if_false]
  exact ⟨_, rfl, Fields.get?_set_self _ _ _⟩

/-- Nothing but its node holds a branch up: it carries the node out in one go, keeps what came of
it, and goes on along the edge, if there is one. -/
def Goes (setup : Setup) (s : State) (n : Node) (b : Branch) (edge : Option Edge)
    (stored : Value) : Prop :=
  ∃ s', Proceeds setup (s, .visit n.id b)
      (s', .follow (edge.toList.map Edge.target) (b.leave n.id stored none)) ∧
    s'.journal.results.get? n.id = some stored

/-- A condition that comes to something is carried out in one go. -/
theorem goes_decide (hdecide : setup.registry.find? "condition" = some Action.decide)
    (hkind : n.kind = "condition") (htakes : Takes setup s.journal n.id b n)
    (henabled : n.isDisabled = false) {t : ReturnType} {found : Option (ℕ × Case)}
    {sel : Selection} (h : Selection.ofConfig b.view n.config = .ok sel)
    (hdescribes : sel.Describes t found) :
    Goes setup s n b (setup.graph.route n.id t (found.map Prod.snd) sel.returnValue)
      (.object (sel.toFields b.view.occasion.now)) := by
  obtain ⟨s₁, hvisit⟩ := step_visit_decide hdecide hkind htakes henabled
  rw [decide_start h] at hvisit
  obtain ⟨s₂, hdone, hresult⟩ := step_done_told hdecide hkind
    (s₁.askSecrets (b.view.secretsAsked (Selection.references b.view n.config))) sel
    b.view.occasion.now b
  rw [successors_told hdescribes] at hdone
  have hask : step setup s₁ (.act n (.askSecrets
        (b.view.secretsAsked (Selection.references b.view n.config))
        (.done (told sel b.view.occasion.now))) b)
      = (s₁.askSecrets (b.view.secretsAsked (Selection.references b.view n.config)),
        .proceed (.act n (.done (told sel b.view.occasion.now)) b)) := rfl
  have hsettle : Proceeds setup (s, .visit n.id b) (s₁, _) := .single hvisit
  exact ⟨s₂, (hsettle.trans (.single (b := (_, _)) hask)).trans (.single (b := (_, _)) hdone),
    hresult⟩

/-- What is kept of a condition tells of the case that was taken, and of the value returned. -/
structure Recounts (t : ReturnType) (found : Option (ℕ × Case)) (value stored : Value) :
    Prop where
  matchedCase : stored.field "matchedCase"
    = .text ((found.map fun taken => taken.2.id).getD "else")
  matchedIndex : stored.field "matchedIndex"
    = .int ((found.map fun taken => (taken.1 : ℤ)).getD (-1))
  returnValue : stored.field "returnValue" = value
  result : stored.field "result"
    = .bool (if t = .boolean then decide (value = .bool true) else found.isSome)

theorem recounts_toFields {t : ReturnType} {found : Option (ℕ × Case)} {sel : Selection}
    (h : sel.Describes t found) (now : Moment) :
    Recounts t found sel.returnValue (.object (sel.toFields now)) where
  matchedCase := by
    rw [← h.caseId]
    rfl
  matchedIndex := by
    rw [← h.index]
    rfl
  returnValue := rfl
  result := by
    have hmet : sel.isMet
        = if t = .boolean then decide (sel.returnValue = .bool true) else found.isSome := by
      obtain ⟨rfl, hcase, -, -⟩ := h
      unfold Selection.isMet
      rw [hcase]
      split
      · next hboolean => rw [if_pos hboolean]
      · next hother => rw [if_neg hother, Option.isSome_map]
    rw [← hmet]
    rfl

/-- An enabled condition in case-list mode whose cases can be read and come to something takes
the first case that holds, follows the one edge of its route, and keeps what tells of that case.
Other cases behind the one that is taken, in the same flow otherwise, change nothing. -/
theorem condition_routes (hdecide : setup.registry.find? "condition" = some Action.decide)
    (hkind : n.kind = "condition") (htakes : Takes setup s.journal n.id b n)
    (henabled : n.isDisabled = false) (hmode : Selection.usesCases n.config = true)
    {cases : List Case} (hcases : Condition.readCases (n.config.at "cases") = .ok cases)
    {sel : Selection} (hsel : Selection.ofConfig b.view n.config = .ok sel) :
    ∃ found value stored, Case.Decides b.view cases found ∧
      (match found with
        | some (_, c) => (Selection.returnTypeOf n.config).coerce c.returnValue = .ok value
        | none => value = (Selection.returnTypeOf n.config).whenNone) ∧
      Recounts (Selection.returnTypeOf n.config) found value stored ∧
      Goes setup s n b (setup.graph.route n.id (Selection.returnTypeOf n.config)
        (found.map Prod.snd) value) stored ∧
      ∀ k c, found = some (k, c) → ∀ (g : Graph) (config : Fields Value) (others : List Case),
        g.node? n.id = some { n with authoredConfig := some config } →
        g.outgoing n.id = setup.graph.outgoing n.id →
        (∀ key, key ≠ "cases" → config.at key = n.config.at key) →
        Selection.usesCases config = true →
        Condition.readCases (config.at "cases") = .ok others →
        others.take (k + 1) = cases.take (k + 1) →
        Goes { setup with graph := g } s { n with authoredConfig := some config } b
          (setup.graph.route n.id (Selection.returnTypeOf n.config) (some c) value) stored := by
  have hof := hsel
  rw [Selection.ofConfig_of_cases hmode hcases] at hof
  split at hof
  · cases hof
  obtain ⟨found, hfirst, hdescribes⟩ := Selection.describes_of_ofCases hof
  refine ⟨found, sel.returnValue, .object (sel.toFields b.view.occasion.now),
    Case.decides_of_first hfirst, hdescribes.returnValue, recounts_toFields hdescribes _,
    goes_decide hdecide hkind htakes henabled hsel hdescribes, ?_⟩
  rintro k c rfl g config others hnode houtgoing hfields hmode' hcases' hsame
  have hother : Selection.ofConfig b.view config = .ok sel :=
    (Selection.ofConfig_congr hmode hcases hmode' hcases' (hfields _ (by decide)) hfirst
      hsame).1.trans hsel
  have hroute : ∀ t found value, g.route n.id t found value
      = setup.graph.route n.id t found value := by
    intro t found value
    simp only [Graph.route, Graph.firstTagged, houtgoing]
  have henabled' : Node.isDisabled { n with authoredConfig := some config } = false := by
    have hdisabled : config.at "disabled" = n.config.at "disabled" := hfields _ (by decide)
    rw [← henabled, Node.isDisabled, Node.isDisabled, ← hdisabled]
    rfl
  have hgoes := @goes_decide { setup with graph := g } { n with authoredConfig := some config } _ _
    hdecide hkind ⟨htakes.cancelled, hnode, htakes.inside, htakes.claimed⟩ henabled' _ _ _ hother
    hdescribes
  rwa [hroute] at hgoes

namespace Sample

/-- A case that holds if its left side is true. -/
def ifTrue (id : String) (left : Value) : Value :=
  .object [("id", .text id), ("leftOperand", left), ("operator", .text "isTrue"),
    ("returnValue", .text "red")]

def hue : Node :=
  node "c" "condition" [("multipleConditions", .bool true), ("returnType", .text "string"),
    ("cases", .list [ifTrue "1" (.bool false), ifTrue "2" (.bool true), ifTrue "3" (.bool true)])]

/-- A condition of three cases, with an edge for the third one and two for what they return. -/
def junction : Setup where
  graph :=
    { document :=
        { authoredNodes := some [node "a" "start" [], hue, node "x" "step" [], node "y" "step" [],
            node "z" "step" []]
          authoredEdges := some [edge "1" "a" "c" none, edge "2" "c" "x" (some "3"),
            edge "3" "c" "y" (some "red"), edge "4" "c" "z" (some "red")]
          authoredTrigger := none
          authoredComponent := none
          others := [] }
      start := node "a" "start" []
      sound := rfl
      start_mem := List.mem_cons_self
      start_isStart := isStart_node }
  registry := .standard (.load [] none)
  defaultMaxIterations := 500

/-- A branch that has done nothing yet. -/
def fresh : Branch := ⟨given.view, .empty⟩

theorem takes_junction : Takes junction [] "c" fresh hue where
  cancelled := rfl
  node := rfl
  inside := rfl
  claimed := rfl

end Sample

/-- The second of three cases is the first one that holds; no edge has its id, and the first one
with what it returns is followed. -/
theorem condition_routes_in_junction : ∃ stored,
    Goes Sample.junction ⟨[], none, Sample.world⟩ Sample.hue Sample.fresh
        (some (Sample.edge "3" "c" "y" (some "red"))) stored ∧
      stored.field "matchedCase" = .text "2" := by
  obtain ⟨cases, hcases⟩ : ∃ cases,
      Condition.readCases (Sample.hue.config.at "cases") = .ok cases := ⟨_, rfl⟩
  obtain ⟨sel, hsel⟩ : ∃ sel,
      Selection.ofConfig Sample.fresh.view Sample.hue.config = .ok sel := ⟨_, rfl⟩
  obtain ⟨found, value, stored, hdecides, hvalue, hrecounts, hgoes, -⟩ :=
    condition_routes (s := ⟨[], none, Sample.world⟩) rfl rfl Sample.takes_junction rfl rfl hcases
      hsel
  have hsecond : ∃ c, c.id = "2" ∧ c.returnValue = .text "red" ∧
      Case.Decides Sample.fresh.view cases (some (1, c)) := by
    obtain rfl := Except.ok.inj hcases
    refine ⟨_, rfl, rfl, rfl, ⟨_, rfl, rfl⟩, ?_⟩
    rintro (- | i) ⟨d, hd, hholds⟩
    · obtain rfl := Option.some.inj hd
      cases hholds
    · omega
  obtain ⟨c, hid, hreturn, hdecides'⟩ := hsecond
  obtain rfl := hdecides.unique hdecides'
  have htype : Selection.returnTypeOf Sample.hue.config = .text := rfl
  simp only [htype, hreturn] at hvalue hgoes
  obtain rfl : Value.text "red" = value := Except.ok.inj hvalue
  have hroute : Sample.junction.graph.route "c" .text (some c) (.text "red")
      = some (Sample.edge "3" "c" "y" (some "red")) := by
    rw [Graph.route, hid]
    rfl
  refine ⟨stored, hroute ▸ hgoes, ?_⟩
  rw [hrecounts.matchedCase]
  exact congrArg Value.text hid

end Run

end Automation
