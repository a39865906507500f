/-
Automation/Proofs/Loop/Ambient.lean

What is bound in an iteration of a loop.

An iteration binds names of its own, each variable to its element, and the name of each variable
with `Index` behind it.  Names of its own are bound to the same whatever the variables are, as long
as no variable takes one of them (`get?_bindings_reserved`); so are those of the frame
(`get?_frame`).  Variables whose names keep apart are bound each to its own element
(`KeepsApart.get?_bindings`).
-/
import Mathlib.Tactic
import Automation.Loop.Plan
import Automation.Proofs.Binding.Reference
import Automation.Proofs.Fields

namespace Automation.Loop.Plan

open Automation.Binding

variable {p : Plan} {i : ℤ} {k : String}

/-- The names that every iteration binds. -/
def reservedNames : List String :=
  ["loop_iteration", "loop.index", "loop.isFirst", "loop.isLast", "loop.total"]

/-- The names that every frame has. -/
def frameNames : List String :=
  ["index", "iteration", "total", "isFirst", "isLast", "current", "arrayLength"]

/-- The names of the variables with usable sources. -/
def names (p : Plan) : List String := p.sources.map fun s => s.1.name

theorem keys_reserved (p : Plan) (i : ℤ) : (p.reserved i).keys = reservedNames := rfl

theorem keys_bound (p : Plan) (i : ℤ) :
    (p.bound i).keys = p.names.flatMap fun n => [n, n ++ "Index"] := by
  simp [bound, names, Fields.keys, List.map_flatMap, List.flatMap_map]

theorem mem_keys_bound : k ∈ (p.bound i).keys ↔ ∃ n ∈ p.names, k = n ∨ k = n ++ "Index" := by
  simp [keys_bound]

/-- No name that every iteration binds is that of the index of a variable. -/
theorem ne_append_index (h : k ∈ reservedNames) (n : String) : k ≠ n ++ "Index" := by
  have hends : ∀ k ∈ reservedNames, ¬ "Index".toList <:+ k.toList := by decide
  rintro rfl
  exact hends _ h (by simp)

theorem nodup_keys_bindings (p : Plan) (i : ℤ) : (p.bindings i).keys.Nodup := by
  apply Fields.nodup_keys_overlay
  rw [keys_reserved]
  decide

theorem mem_keys_bindings :
    k ∈ (p.bindings i).keys ↔ k ∈ reservedNames ∨ ∃ n ∈ p.names, k = n ∨ k = n ++ "Index" := by
  rw [bindings, Fields.mem_keys_overlay, keys_reserved, mem_keys_bound]

theorem isFirst_natCast (i : ℕ) : isFirst i = decide (i = 0) := by
  simp [isFirst, beq_eq_decide]

theorem isLast_natCast (p : Plan) (i : ℕ) : p.isLast i = decide (i + 1 = p.count) := by
  rw [isLast, beq_eq_decide]
  exact decide_eq_decide.mpr (by omega)

/-- A name of its own has in an iteration the same value whatever the variables are. -/
theorem get?_bindings_reserved (hnames : ∀ n ∈ p.names, n ∉ reservedNames)
    (hk : k ∈ reservedNames) : (p.bindings i).get? k = (p.reserved i).get? k := by
  apply Fields.get?_overlay_of_not_mem
  rw [mem_keys_bound]
  rintro ⟨n, hn, rfl | hindex⟩
  · exact hnames _ hn hk
  · exact ne_append_index hk n hindex

/-- A name of its own has in a frame the same value whatever the variables are. -/
theorem get?_frame (hnames : ∀ n ∈ p.names, n ∉ frameNames)
    (hk : k ∈ (p.frameStart i).keys) : (p.frame i).get? k = (p.frameStart i).get? k := by
  -- what the frame tells about the first source has other names
  have hapart : ∀ k ∈ ["index", "iteration", "total", "isFirst", "isLast"],
      k ∈ frameNames ∧ k ∉ ["current", "arrayLength"] ∧ k ∉ ["current"] := by decide
  obtain ⟨hframe, hsome, hnone⟩ := hapart k hk
  have hend : k ∉ (p.frameEnd i).keys := by
    unfold frameEnd
    split
    · exact hsome
    · exact hnone
  apply Fields.get?_overlay_of_not_mem
  rw [Fields.keys, List.map_append, List.map_map]
  intro hmem
  rcases List.mem_append.mp hmem with hmem | hmem
  · exact hnames k hmem hframe
  · exact hend hmem

/-! ### Bindings to them -/

section Resolution

variable {view : View} {outer : Fields Value} {x : Value}

/-- What an iteration binds hides what is bound around it. -/
theorem resolve_bindings (hbound : view.loopScope = outer.overlay (p.bindings i))
    (hk : IsBindable k) (hx : (p.bindings i).get? k = some x) :
    view.resolve (bindingTo k) = .ok x := by
  apply View.resolve_scope hk
  rw [hbound, Fields.get?_overlay _ (nodup_keys_bindings p i), hx, Option.some_or]

theorem isBindable_of_reserved : ∀ k ∈ reservedNames, IsBindable k := by decide

/-- What an iteration binds beside the variables is resolved to its value. -/
theorem resolve_reserved (hbound : view.loopScope = outer.overlay (p.bindings i))
    (hnames : ∀ n ∈ p.names, n ∉ reservedNames) (hx : (p.reserved i).get? k = some x) :
    view.resolve (bindingTo k) = .ok x := by
  have hk : k ∈ reservedNames := Fields.mem_keys_iff.mpr ⟨x, hx⟩
  exact resolve_bindings hbound (isBindable_of_reserved k hk)
    ((get?_bindings_reserved hnames hk).trans hx)

end Resolution

/-! ### Variables -/

/-- The names of the variables keep apart from each other and from what every iteration binds. -/
structure KeepsApart (p : Plan) : Prop where
  nodup : p.names.Nodup
  index : ∀ n ∈ p.names, ∀ m ∈ p.names, n ≠ m ++ "Index"
  reserved : ∀ n ∈ p.names, n ∉ reservedNames

theorem KeepsApart.nodup_keys_bound (h : p.KeepsApart) (i : ℤ) : (p.bound i).keys.Nodup := by
  rw [keys_bound, List.nodup_flatMap]
  refine ⟨fun n hn => ?_, h.nodup.imp_of_mem fun {n m} hn hm hne => ?_⟩
  · simpa using h.index n hn n hn
  · simp [Function.onFun, hne.symm, h.index m hm n hn, (h.index n hn m hm).symm]

theorem KeepsApart.get?_bindings (h : p.KeepsApart) {v : Variable} {xs : List Value}
    (hsource : (v, xs) ∈ p.sources) :
    (p.bindings i).get? v.name = some (element xs i) ∧
      (p.bindings i).get? (v.name ++ "Index") = some (.int i) := by
  have hname : (v.name, element xs i) ∈ p.bound i :=
    List.mem_flatMap.mpr ⟨(v, xs), hsource, List.mem_cons_self⟩
  have hindex : (v.name ++ "Index", .int i) ∈ p.bound i :=
    List.mem_flatMap.mpr ⟨(v, xs), hsource, List.mem_cons_of_mem _ List.mem_cons_self⟩
  have hkeys := h.nodup_keys_bound i
  rw [bindings, Fields.get?_overlay _ hkeys, Fields.get?_overlay _ hkeys,
    Fields.get?_of_mem hkeys hname, Fields.get?_of_mem hkeys hindex]
  exact ⟨rfl, rfl⟩

end Automation.Loop.Plan
