/-
Automation/Proofs/Loop/Nest.lean

Iterations within iterations.

The iterations around a place are a nest, the outermost first.  Each binds its names over those
around it and puts its frame beside theirs; a view that has been entered by one after another and by
no others lies inside the nest (`Inside`).

Different loops have different frames (`keys_frames`, `get?_frames`), and a reference to one of them
cannot be taken for a name that an iteration binds: it has two dots, and such a name has one at most
(`count_dot_le`).  So the frame of each loop around is found (`Inside.resolve_frame`), while a name
that all iterations bind is that of the innermost one (`Inside.resolve_innermost`).
-/
import Automation.Proofs.Loop.Ambient
import Automation.Proofs.Binding.Reference
import Automation.Proofs.Value.Path

namespace Automation.Loop

open Automation.Binding
open Automation.Text (strip)

/-! ### References to frames -/

namespace Plan

/-- How a field of the frame of a loop is referred to. -/
def reference (p : Plan) (field : String) : String := p.loop ++ "." ++ ("_loop." ++ field)

/-- A loop can be referred to by its id, and its variables keep apart from what every iteration
binds. -/
structure Addressable (p : Plan) : Prop where
  dotless : '.' ∉ p.loop.toList
  chars : ∀ c ∈ p.loop.toList, isReferenceChar c = true
  trimmed : strip p.loop = p.loop
  not_env : p.loop ≠ "env"
  not_secrets : p.loop ≠ "secrets"
  names : ∀ n ∈ p.names, '.' ∉ n.toList ∧ n ∉ reservedNames ∧ n ∉ frameNames

instance (p : Plan) : Decidable p.Addressable :=
  decidable_of_iff ('.' ∉ p.loop.toList ∧ p.loop.toList.all isReferenceChar = true ∧
      strip p.loop = p.loop ∧ p.loop ≠ "env" ∧ p.loop ≠ "secrets" ∧
      ∀ n ∈ p.names, '.' ∉ n.toList ∧ n ∉ reservedNames ∧ n ∉ frameNames)
    ⟨fun h => ⟨h.1, List.all_eq_true.mp h.2.1, h.2.2.1, h.2.2.2.1, h.2.2.2.2.1, h.2.2.2.2.2⟩,
      fun h => ⟨h.dotless, List.all_eq_true.mpr h.chars, h.trimmed, h.not_env, h.not_secrets,
        h.names⟩⟩

variable {p : Plan} {i : ℤ} {k : String}

/-- What an iteration binds has at most one dot. -/
theorem count_dot_le (h : p.Addressable) (hk : k ∈ (p.bindings i).keys) :
    k.toList.count '.' ≤ 1 := by
  have hreserved : ∀ k ∈ reservedNames, k.toList.count '.' ≤ 1 := by decide
  have hindex : "Index".toList.count '.' = 0 := by decide
  rcases mem_keys_bindings.mp hk with hk | ⟨n, hn, rfl | rfl⟩
  · exact hreserved k hk
  · rw [List.count_eq_zero_of_not_mem (h.names _ hn).1]
    exact Nat.zero_le 1
  · rw [String.toList_append, List.count_append, hindex,
      List.count_eq_zero_of_not_mem (h.names _ hn).1]
    exact Nat.zero_le 1

/-- A reference to a frame has two. -/
theorem lt_count_dot (p : Plan) (field : String) : 1 < (p.reference field).toList.count '.' := by
  have hdots : ".".toList.count '.' = 1 ∧ "_loop.".toList.count '.' = 1 := by decide
  simp only [reference, String.toList_append, List.count_append, hdots]
  omega

end Plan

/-! ### Nests -/

/-- The iterations around a place, the outermost first: the plan of each loop and the index. -/
abbrev Nest := List (Plan × ℕ)

namespace Nest

/-- The scope inside. -/
def scope (nest : Nest) : Scope := nest.map fun e => (e.1.loop, (e.2 : ℤ))

/-- The loops, in order. -/
def loops (nest : Nest) : List String := nest.map fun e => e.1.loop

/-- What the iterations bind, inner ones over outer ones. -/
def bindings (nest : Nest) : Fields Value :=
  nest.foldl (fun fs e => fs.overlay (e.1.bindings e.2)) []

/-- The frames of the iterations. -/
def frames (nest : Nest) : Fields Value :=
  nest.foldl (fun fs e => fs.set e.1.loop (.object (e.1.frame e.2))) []

variable {nest : Nest} {e : Plan × ℕ} {k : String}

theorem scope_concat (nest : Nest) (e : Plan × ℕ) :
    scope (nest ++ [e]) = scope nest ++ [(e.1.loop, (e.2 : ℤ))] :=
  List.map_append

theorem loops_concat (nest : Nest) (e : Plan × ℕ) :
    loops (nest ++ [e]) = loops nest ++ [e.1.loop] :=
  List.map_append

theorem bindings_concat (nest : Nest) (e : Plan × ℕ) :
    bindings (nest ++ [e]) = (bindings nest).overlay (e.1.bindings e.2) :=
  List.foldl_append

theorem frames_concat (nest : Nest) (e : Plan × ℕ) :
    frames (nest ++ [e]) = (frames nest).set e.1.loop (.object (e.1.frame e.2)) :=
  List.foldl_append

/-- A name is bound inside if one of the iterations binds it. -/
theorem exists_of_mem_keys_bindings (hk : k ∈ (bindings nest).keys) :
    ∃ e ∈ nest, k ∈ (e.1.bindings e.2).keys := by
  induction nest using List.reverseRecOn with
  | nil => cases hk
  | append_singleton nest e ih =>
    rw [bindings_concat, Fields.mem_keys_overlay] at hk
    rcases hk with hk | hk
    · obtain ⟨d, hd, hmem⟩ := ih hk
      exact ⟨d, List.mem_append_left _ hd, hmem⟩
    · exact ⟨e, by simp, hk⟩

/-- A reference to a frame is not bound as a name. -/
theorem get?_bindings_reference (h : ∀ e ∈ nest, e.1.Addressable) (p : Plan) (field : String) :
    (bindings nest).get? (p.reference field) = none := by
  rcases hbound : (bindings nest).get? (p.reference field) with - | x
  · rfl
  obtain ⟨e, he, hmem⟩ := exists_of_mem_keys_bindings (Fields.mem_keys_iff.mpr ⟨x, hbound⟩)
  exact absurd (p.lt_count_dot field) (Nat.not_lt.mpr (Plan.count_dot_le (h e he) hmem))

/-- Different loops have a frame each, in the order of the nest. -/
theorem keys_frames (h : (loops nest).Nodup) : (frames nest).keys = loops nest := by
  induction nest using List.reverseRecOn with
  | nil => rfl
  | append_singleton nest e ih =>
    rw [loops_concat] at h ⊢
    have hkeys := ih h.of_append_left
    have hnew : e.1.loop ∉ (frames nest).keys := by
      rw [hkeys]
      exact fun hmem => List.disjoint_of_nodup_append h hmem (List.mem_singleton_self _)
    rw [frames_concat, Fields.set_of_not_mem hnew, Fields.keys, List.map_append]
    exact congrArg (· ++ [e.1.loop]) hkeys

theorem get?_frames (h : (loops nest).Nodup) (he : e ∈ nest) :
    (frames nest).get? e.1.loop = some (.object (e.1.frame e.2)) := by
  induction nest using List.reverseRecOn with
  | nil => cases he
  | append_singleton nest d ih =>
    rw [loops_concat] at h
    rw [frames_concat]
    rcases List.mem_append.mp he with he | he
    · have hne : e.1.loop ≠ d.1.loop := by
        intro heq
        have hmem : d.1.loop ∈ loops nest := List.mem_map.mpr ⟨e, he, heq⟩
        exact List.disjoint_of_nodup_append h hmem (List.mem_singleton_self _)
      rw [Fields.get?_set_of_ne _ hne]
      exact ih h.of_append_left he
    · obtain rfl := List.mem_singleton.mp he
      exact Fields.get?_set_self _ _ _

/-! ### Views inside a nest -/

/-- A view lies inside the iterations of a nest, and inside no others. -/
structure Inside (nest : Nest) (v : View) : Prop where
  scope : v.scope = Nest.scope nest
  bound : v.loopScope = bindings nest
  frames : v.loopFrames = Nest.frames nest

variable {v : View}

/-- An iteration of one more loop. -/
theorem Inside.enter (h : Inside nest v) (p : Plan) (i : ℕ) :
    Inside (nest ++ [(p, i)]) (p.enter v i) where
  scope := by
    rw [scope_concat, ← h.scope]
    rfl
  bound := by
    rw [bindings_concat, ← h.bound]
    rfl
  frames := by
    rw [frames_concat, ← h.frames]
    rfl

/-- The frame of each loop around is found by its id. -/
theorem Inside.resolve_frame (h : Inside nest v) (hnodup : (loops nest).Nodup)
    (haddressable : ∀ e ∈ nest, e.1.Addressable) (he : e ∈ nest) {field : String}
    {x : Value} (hx : (e.1.frameStart e.2).get? field = some x) :
    v.resolve (bindingTo (e.1.reference field)) = .ok x := by
  have hfield : field ∈ (e.1.frameStart e.2).keys := Fields.mem_keys_iff.mpr ⟨x, hx⟩
  obtain ⟨hdot, hchars, htrimmed, henv, hsecrets, hnames⟩ := haddressable e he
  -- the fields of a frame are names that can stand in a reference
  have hfields : ∀ field ∈ ["index", "iteration", "total", "isFirst", "isLast"],
      IsName field ∧ IsInside ("." ++ ("_loop." ++ field)).toList ∧
        strip ("." ++ ("_loop." ++ field)) = "." ++ ("_loop." ++ field) ∧
        headAndRest ("_loop." ++ field) = (frameMarker, field) := by decide
  obtain ⟨hname, hinside, hstrip, hmarker⟩ := hfields field hfield
  have hreference : e.1.reference field = e.1.loop ++ ("." ++ ("_loop." ++ field)) :=
    String.append_assoc
  have hreach : IsInside (e.1.reference field).toList := by
    rw [hreference]
    exact isInside_append hchars hinside
  have hsame : strip (e.1.reference field) = e.1.reference field := by
    rw [hreference]
    exact Text.strip_append htrimmed hstrip
  have hcut : headAndRest (e.1.reference field) = (e.1.loop, "_loop." ++ field) :=
    headAndRest_dot hdot _
  have hunbound : v.loopScope.get? (e.1.reference field) = none := by
    rw [h.bound]
    exact get?_bindings_reference haddressable e.1 field
  have hframe : v.loopFrames.get? e.1.loop = some (.object (e.1.frame e.2)) := by
    rw [h.frames]
    exact get?_frames hnodup he
  have hvalue : (e.1.frame e.2).get? field = some x := by
    rw [Plan.get?_frame (fun n hn => (hnames n hn).2.2) hfield, hx]
  have hne : e.1.reference field ≠ "" := fun hempty => hreach.ne_nil (by rw [hempty]; rfl)
  rw [View.resolve_bindingTo v hreach, hsame, View.lookup_frame hne
    (not_reserved_of_head hcut henv hsecrets) hunbound hcut hmarker hframe, frameValue,
    if_neg (by simpa using hname.nonempty), Value.at_name hname, hvalue]
  rfl

/-- What all iterations bind is that of the innermost one. -/
theorem Inside.resolve_innermost {p : Plan} {i : ℕ} (h : Inside (nest ++ [(p, i)]) v)
    (hnames : ∀ n ∈ p.names, n ∉ Plan.reservedNames) {x : Value}
    (hx : (p.reserved i).get? k = some x) : v.resolve (bindingTo k) = .ok x := by
  have hbound : v.loopScope = (bindings nest).overlay (p.bindings i) := by
    rw [h.bound, bindings_concat]
  exact Plan.resolve_reserved hbound hnames hx

end Nest

end Automation.Loop
