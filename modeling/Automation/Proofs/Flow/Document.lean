/-
Automation/Proofs/Flow/Document.lean

Documents that are read and written again.

Nodes, edges and documents are records with known fields and others, and all three are kept by their
readers: what was read is written as the same data, and read from that as the same again.  As text, a
document can be written unless something without a meaning is nested too deeply, and is read back if
it fits the limits of a saved document (`Document.kept`).
-/
import Automation.Flow.Document
import Automation.Proofs.Flow.Record

namespace Automation

open Json (IsData Alike Fits)

/-! ### Nodes -/

namespace Node

def slots (n : Node) : List Slot :=
  [("id", some (.text n.id)), ("kind", some (.text n.kind)), ("label", n.authoredLabel.map .text),
    ("config", n.authoredConfig.map .object),
    ("failurePolicy", n.authoredPolicy.map fun p => .text p.word),
    ("position", n.position.map fun p => (p.map .object).getD .null)]

theorem toValue_eq (n : Node) : n.toValue = .object (assembled n.slots n.others) := by
  unfold toValue assembled slots
  simp only [List.filterMap_cons, Option.map_some, Option.map_map]
  rfl

theorem ofValue_eq_ok {v : Value} {n : Node} :
    ofValue v = .ok n ↔ ∃ fs : Fields Value, v = .object fs ∧ fs.eraseAll knownFields = n.others ∧
      Shape.required fs "id" Shape.text = .ok n.id ∧
      Shape.required fs "kind" Shape.text = .ok n.kind ∧
      Shape.optional fs "label" Shape.text = .ok n.authoredLabel ∧
      Shape.optional fs "config" Shape.fields = .ok n.authoredConfig ∧
      Shape.optional fs "failurePolicy" FailurePolicy.read = .ok n.authoredPolicy ∧
      Shape.optional fs "position" (Shape.nullable Shape.fields) = .ok n.position := by
  constructor
  · intro h
    cases v with
    | object fs =>
      simp only [ofValue, Checked.app_eq_ok] at h
      -- one pair for each field, the last one outermost
      obtain ⟨_, others, ⟨_, position, ⟨_, policy, ⟨_, config, ⟨_, label, ⟨_, kind, ⟨_, id, hmk, hid,
        rfl⟩, hkind, rfl⟩, hlabel, rfl⟩, hconfig, rfl⟩, hpolicy, rfl⟩, hposition, rfl⟩, hothers,
        rfl⟩ := h
      obtain rfl := Checked.ok.inj hmk
      exact ⟨fs, rfl, Checked.ok.inj hothers, hid, hkind, hlabel, hconfig, hpolicy, hposition⟩
    | _ => cases h
  · rintro ⟨fs, rfl, hothers, hid, hkind, hlabel, hconfig, hpolicy, hposition⟩
    simp only [ofValue, hothers, hid, hkind, hlabel, hconfig, hpolicy, hposition]
    rfl

theorem readsRecord : ReadsRecord ofValue knownFields slots Node.others where
  names _ := rfl
  object h := by
    obtain ⟨fs, rfl, hothers, -⟩ := ofValue_eq_ok.mp h
    exact ⟨fs, rfl, hothers⟩
  alike h hdata := by
    obtain ⟨fs, hfs, -, hid, hkind, hlabel, hconfig, hpolicy, hposition⟩ := ofValue_eq_ok.mp h
    obtain rfl := Value.object.inj hfs
    simp only [slots, List.forall_mem_cons]
    exact ⟨(keeps_text.required "id").alike hid hdata,
      (keeps_text.required "kind").alike hkind hdata,
      (keeps_text.optional "label").alike hlabel hdata,
      (keeps_fields.optional "config").alike hconfig hdata,
      (keeps_policy.optional "failurePolicy").alike hpolicy hdata,
      (keeps_fields_or_null.optional "position").alike hposition hdata,
      List.forall_mem_nil _⟩
  again h hdata hslots hothers := by
    obtain ⟨fs, hfs, -, hid, hkind, hlabel, hconfig, hpolicy, hposition⟩ := ofValue_eq_ok.mp h
    obtain rfl := Value.object.inj hfs
    simp only [slots, List.forall_mem_cons] at hslots
    obtain ⟨gid, gkind, glabel, gconfig, gpolicy, gposition, -⟩ := hslots
    exact ofValue_eq_ok.mpr ⟨_, rfl, hothers,
      (keeps_text.required "id").again hid hdata gid,
      (keeps_text.required "kind").again hkind hdata gkind,
      (keeps_text.optional "label").again hlabel hdata glabel,
      (keeps_fields.optional "config").again hconfig hdata gconfig,
      (keeps_policy.optional "failurePolicy").again hpolicy hdata gpolicy,
      (keeps_fields_or_null.optional "position").again hposition hdata gposition⟩

theorem keeps : Keeps ofValue toValue := .of_record readsRecord (by decide) toValue_eq

/-- What has no meaning in a node is nested less deeply than the node. -/
theorem depth_lt_of_mem_freeValues {n : Node} {v : Value} (h : v ∈ n.freeValues) :
    v.depth < n.toValue.depth := by
  obtain ⟨f, hf, rfl⟩ := List.mem_map.mp h
  rw [toValue_eq]
  rcases List.mem_append.mp hf with hf | hothers
  · rcases List.mem_append.mp hf with hconfig | hposition
    · rcases hc : n.authoredConfig with - | fs
      · simp [config, hc] at hconfig
      · have hslot : ("config", some (Value.object fs)) ∈ n.slots := by simp [slots, hc]
        have hfs : f ∈ fs := by simpa [config, hc] using hconfig
        exact depth_lt_of_fields_slot hslot hfs
    · rcases hp : n.position with - | - | fs
      · simp [hp] at hposition
      · simp [hp] at hposition
      · have hslot : ("position", some (Value.object fs)) ∈ n.slots := by simp [slots, hp]
        have hfs : f ∈ fs := by simpa [hp] using hposition
        exact depth_lt_of_fields_slot hslot hfs
  · exact Json.depth_lt_object (List.mem_append_right _ hothers)

end Node

/-! ### Edges -/

namespace Edge

def slots (e : Edge) : List Slot :=
  [("id", some (.text e.id)), ("source", some (.text e.source)), ("target", some (.text e.target)),
    ("branch", e.authoredBranch.map fun b => (b.map .text).getD .null)]

theorem toValue_eq (e : Edge) : e.toValue = .object (assembled e.slots e.others) := by
  unfold toValue assembled slots
  simp only [List.filterMap_cons, Option.map_some, Option.map_map]
  rfl

theorem ofValue_eq_ok {v : Value} {e : Edge} :
    ofValue v = .ok e ↔ ∃ fs : Fields Value, v = .object fs ∧ fs.eraseAll knownFields = e.others ∧
      Shape.required fs "id" Shape.text = .ok e.id ∧
      Shape.required fs "source" Shape.text = .ok e.source ∧
      Shape.required fs "target" Shape.text = .ok e.target ∧
      Shape.optional fs "branch" (Shape.nullable Shape.text) = .ok e.authoredBranch := by
  constructor
  · intro h
    cases v with
    | object fs =>
      simp only [ofValue, Checked.app_eq_ok] at h
      obtain ⟨_, others, ⟨_, branch, ⟨_, target, ⟨_, source, ⟨_, id, hmk, hid, rfl⟩, hsource, rfl⟩,
        htarget, rfl⟩, hbranch, rfl⟩, hothers, rfl⟩ := h
      obtain rfl := Checked.ok.inj hmk
      exact ⟨fs, rfl, Checked.ok.inj hothers, hid, hsource, htarget, hbranch⟩
    | _ => cases h
  · rintro ⟨fs, rfl, hothers, hid, hsource, htarget, hbranch⟩
    simp only [ofValue, hothers, hid, hsource, htarget, hbranch]
    rfl

theorem readsRecord : ReadsRecord ofValue knownFields slots Edge.others where
  names _ := rfl
  object h := by
    obtain ⟨fs, rfl, hothers, -⟩ := ofValue_eq_ok.mp h
    exact ⟨fs, rfl, hothers⟩
  alike h hdata := by
    obtain ⟨fs, hfs, -, hid, hsource, htarget, hbranch⟩ := ofValue_eq_ok.mp h
    obtain rfl := Value.object.inj hfs
    simp only [slots, List.forall_mem_cons]
    exact ⟨(keeps_text.required "id").alike hid hdata,
      (keeps_text.required "source").alike hsource hdata,
      (keeps_text.required "target").alike htarget hdata,
      (keeps_text_or_null.optional "branch").alike hbranch hdata, List.forall_mem_nil _⟩
  again h hdata hslots hothers := by
    obtain ⟨fs, hfs, -, hid, hsource, htarget, hbranch⟩ := ofValue_eq_ok.mp h
    obtain rfl := Value.object.inj hfs
    simp only [slots, List.forall_mem_cons] at hslots
    obtain ⟨gid, gsource, gtarget, gbranch, -⟩ := hslots
    exact ofValue_eq_ok.mpr ⟨_, rfl, hothers,
      (keeps_text.required "id").again hid hdata gid,
      (keeps_text.required "source").again hsource hdata gsource,
      (keeps_text.required "target").again htarget hdata gtarget,
      (keeps_text_or_null.optional "branch").again hbranch hdata gbranch⟩

theorem keeps : Keeps ofValue toValue := .of_record readsRecord (by decide) toValue_eq

theorem depth_lt_of_mem_freeValues {e : Edge} {v : Value} (h : v ∈ e.freeValues) :
    v.depth < e.toValue.depth := by
  obtain ⟨f, hf, rfl⟩ := List.mem_map.mp h
  rw [toValue_eq]
  exact Json.depth_lt_object (List.mem_append_right _ hf)

end Edge

/-! ### Documents -/

namespace Document

def slots (d : Document) : List Slot :=
  [("nodes", d.authoredNodes.map fun ns => .list (ns.map Node.toValue)),
    ("edges", d.authoredEdges.map fun es => .list (es.map Edge.toValue)),
    ("trigger", d.authoredTrigger.map .text), ("componentId", d.authoredComponent.map .text)]

theorem toValue_eq (d : Document) : d.toValue = .object (assembled d.slots d.others) := by
  unfold toValue assembled slots
  simp only [List.filterMap_cons, Option.map_map]
  rfl

theorem ofValue_eq_ok {v : Value} {d : Document} :
    ofValue v = .ok d ↔ ∃ fs : Fields Value, v = .object fs ∧ fs.eraseAll knownFields = d.others ∧
      Shape.optional fs "nodes" (Shape.list Node.ofValue) = .ok d.authoredNodes ∧
      Shape.optional fs "edges" (Shape.list Edge.ofValue) = .ok d.authoredEdges ∧
      Shape.optional fs "trigger" Shape.text = .ok d.authoredTrigger ∧
      Shape.optional fs "componentId" Shape.text = .ok d.authoredComponent := by
  constructor
  · intro h
    cases v with
    | object fs =>
      simp only [ofValue, Checked.app_eq_ok] at h
      obtain ⟨_, others, ⟨_, component, ⟨_, trigger, ⟨_, edges, ⟨_, nodes, hmk, hnodes, rfl⟩, hedges,
        rfl⟩, htrigger, rfl⟩, hcomponent, rfl⟩, hothers, rfl⟩ := h
      obtain rfl := Checked.ok.inj hmk
      exact ⟨fs, rfl, Checked.ok.inj hothers, hnodes, hedges, htrigger, hcomponent⟩
    | _ => cases h
  · rintro ⟨fs, rfl, hothers, hnodes, hedges, htrigger, hcomponent⟩
    simp only [ofValue, hothers, hnodes, hedges, htrigger, hcomponent]
    rfl

theorem readsRecord : ReadsRecord ofValue knownFields slots Document.others where
  names _ := rfl
  object h := by
    obtain ⟨fs, rfl, hothers, -⟩ := ofValue_eq_ok.mp h
    exact ⟨fs, rfl, hothers⟩
  alike h hdata := by
    obtain ⟨fs, hfs, -, hnodes, hedges, htrigger, hcomponent⟩ := ofValue_eq_ok.mp h
    obtain rfl := Value.object.inj hfs
    simp only [slots, List.forall_mem_cons]
    exact ⟨(Node.keeps.list.optional "nodes").alike hnodes hdata,
      (Edge.keeps.list.optional "edges").alike hedges hdata,
      (keeps_text.optional "trigger").alike htrigger hdata,
      (keeps_text.optional "componentId").alike hcomponent hdata, List.forall_mem_nil _⟩
  again h hdata hslots hothers := by
    obtain ⟨fs, hfs, -, hnodes, hedges, htrigger, hcomponent⟩ := ofValue_eq_ok.mp h
    obtain rfl := Value.object.inj hfs
    simp only [slots, List.forall_mem_cons] at hslots
    obtain ⟨gnodes, gedges, gtrigger, gcomponent, -⟩ := hslots
    exact ofValue_eq_ok.mpr ⟨_, rfl, hothers,
      (Node.keeps.list.optional "nodes").again hnodes hdata gnodes,
      (Edge.keeps.list.optional "edges").again hedges hdata gedges,
      (keeps_text.optional "trigger").again htrigger hdata gtrigger,
      (keeps_text.optional "componentId").again hcomponent hdata gcomponent⟩

theorem keeps : Keeps ofValue toValue := .of_record readsRecord (by decide) toValue_eq

theorem depth_lt_of_mem_freeValues {d : Document} {v : Value} (h : v ∈ d.freeValues) :
    v.depth < d.toValue.depth := by
  rw [toValue_eq]
  rcases List.mem_append.mp h with h | hothers
  · rcases List.mem_append.mp h with hnodes | hedges
    · obtain ⟨n, hn, hv⟩ := List.mem_flatMap.mp hnodes
      rcases hns : d.authoredNodes with - | ns
      · simp [nodes, hns] at hn
      · have hslot : ("nodes", some (Value.list (ns.map Node.toValue))) ∈ d.slots := by
          simp [slots, hns]
        have hmem : n ∈ ns := by simpa [nodes, hns] using hn
        exact depth_lt_of_list_slot hslot (List.mem_map_of_mem hmem)
          (Node.depth_lt_of_mem_freeValues hv)
    · obtain ⟨e, he, hv⟩ := List.mem_flatMap.mp hedges
      rcases hes : d.authoredEdges with - | es
      · simp [edges, hes] at he
      · have hslot : ("edges", some (Value.list (es.map Edge.toValue))) ∈ d.slots := by
          simp [slots, hes]
        have hmem : e ∈ es := by simpa [edges, hes] using he
        exact depth_lt_of_list_slot hslot (List.mem_map_of_mem hmem)
          (Edge.depth_lt_of_mem_freeValues hv)
  · obtain ⟨f, hf, rfl⟩ := List.mem_map.mp hothers
    exact Json.depth_lt_object (List.mem_append_right _ hf)

/-- A document is written as its fields, unless something without a meaning is nested too deeply. -/
theorem toText_eq_ok {d : Document} {s : String} :
    d.toText = .ok s ↔
      (∀ v ∈ d.freeValues, v.depth ≤ depthLimit) ∧ s = Json.print .strict d.toValue := by
  have hshallow : (d.freeValues.all fun v => decide (v.depth ≤ depthLimit)) = true ↔
      ∀ v ∈ d.freeValues, v.depth ≤ depthLimit := by
    simp [List.all_eq_true]
  unfold toText
  rw [← hshallow]
  split
  · next h => exact ⟨fun hs => ⟨h, (Except.ok.inj hs).symm⟩, fun hs => congrArg Except.ok hs.2.symm⟩
  · next h => simp [h]

/-- What fits the limits of a saved document is saved, and loaded as the same document. -/
theorem ofText_print {v : Value} {d : Document} (h : ofValue v = .ok d)
    (hfits : Fits .document 0 v) :
    d.toText = .ok (Json.print .strict d.toValue) ∧
      ofText (Json.print .strict d.toValue) = .ok d := by
  have hwritten : Fits .document 0 d.toValue := hfits.of_alike (keeps.alike h hfits.isData)
  constructor
  · -- the reader's limit on nesting is the lower one
    refine toText_eq_ok.mpr ⟨fun x hx => ?_, rfl⟩
    have hdeep : d.toValue.depth + 0 ≤ 200 + 1 := hwritten.depth_le (Nat.zero_le _)
    have hless := depth_lt_of_mem_freeValues hx
    show x.depth ≤ 255
    omega
  · unfold ofText
    rw [Json.read_print Json.regular_strict hwritten]
    exact keeps.again h hfits.isData

/-- A node with a null, a field without a meaning among known ones, and a number that is whole but
no integer. -/
def mixed : Value :=
  .object [("zoom", .float (.ofInt 10)),
    ("nodes", .list [.object [("kind", .text "start"), ("position", .null), ("color", .int 10),
      ("id", .text "a")]]),
    ("trigger", .text "")]

theorem fits_mixed : Fits .document 0 mixed := by
  refine .object (fun _ => by decide) (by decide) ?_
  simp only [List.forall_mem_cons]
  refine ⟨.float (by decide +kernel), .list (fun _ => by decide) ?_, .text "", List.forall_mem_nil _⟩
  refine List.forall_mem_singleton.mpr (.object (fun _ => by decide) (by decide) ?_)
  simp only [List.forall_mem_cons]
  exact ⟨.text "start", .null, .int (by decide +kernel), .text "a", List.forall_mem_nil _⟩

/-- So many lists, each in the one before it. -/
def nested : ℕ → Value
  | 0 => .list []
  | n + 1 => .list [nested n]

theorem depth_nested (n : ℕ) : (nested n).depth = n + 1 := by
  induction n with
  | zero => rfl
  | succ n ih =>
    show max (nested n).depth 0 + 1 = n + 1 + 1
    rw [ih, Nat.max_zero]

theorem isData_nested (n : ℕ) : IsData (nested n) := by
  induction n with
  | zero => exact .list (List.forall_mem_nil _)
  | succ n ih => exact .list (List.forall_mem_singleton.mpr ih)

/-- Data with a field without a meaning that is nested very deeply. -/
def deep : Value := .object [("nodes", .list []), ("edges", .list []), ("x", nested 300)]

end Document

end Automation
