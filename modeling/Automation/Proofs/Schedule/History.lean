/-
Automation/Proofs/Schedule/History.lean

What a run tells.

A run is known by its end only.  To speak of the order in which things have happened,
each step of a task tells something (`tell`), which may depend on where the task is, on
its state and on the shared state; the history of a run is what its steps have told,
one after another (`Told`).  Telling changes nothing: every run has a history, and only
runs have one (`reaches_iff_told`).

A history may also be written down as part of the shared state (`Program.noted`), so that
facts about the history are facts about a state, which runs keep (`Told.noted`).  Of a
history that is told by the first task and those it waits for, a fact is proved
from what each step of one of them and each return to work does (`Told.root`): whatever
else is at work leaves both the history and the first task as they are.
-/
import Automation.Proofs.Schedule.Interleaving

namespace Automation.Schedule

variable {σ : Type*} {α : Type*} {ρ : Type*} {ε : Type*}

/-- A program that writes down what its steps tell. -/
def Program.noted (p : Program σ α ρ) (note : σ → α → List ε) : Program (σ × List ε) α ρ where
  step s a := (((p.step s.1 a).1, s.2 ++ note s.1 a), (p.step s.1 a).2)
  rejoin := p.rejoin

/-- What happens outside leaves alone what is written down. -/
def Noting (outside : σ → σ → Prop) (s s' : σ × List ε) : Prop := outside s.1 s'.1 ∧ s'.2 = s.2

namespace Pool

variable {p : Program σ α ρ} {outside : σ → σ → Prop} {tell : List ℕ → σ → α → List ε}

/-- A run with its history. -/
inductive Told (p : Program σ α ρ) (outside : σ → σ → Prop) (tell : List ℕ → σ → α → List ε)
    (c : Pool σ α ρ) : List ε → Pool σ α ρ → Prop
  | start : Told p outside tell c [] c
  /-- A step tells what it has to tell. -/
  | advance {told d path a} : Told p outside tell c told d → d.at? path = some (.live a) →
      Told p outside tell c (told ++ tell path d.shared a) (d.advance p path a)
  | rejoin {told d path a children results} : Told p outside tell c told d →
      d.at? path = some (.waiting a children) → Task.results? children = some results →
      Told p outside tell c told (d.replace path (.live (p.rejoin a results)))
  | outside {told d s} : Told p outside tell c told d → outside d.shared s →
      Told p outside tell c told { d with shared := s }

theorem Told.reaches {c d : Pool σ α ρ} {told : List ε} (h : Told p outside tell c told d) :
    Reaches p outside c d := by
  induction h with
  | start => exact .refl
  | advance _ hlive ih => exact ih.tail (.move (.advance hlive))
  | rejoin _ hwait hr ih => exact ih.tail (.move (.rejoin hwait hr))
  | outside _ hout ih => exact ih.tail (.outside hout)

/-- A run that goes on has a history that goes on. -/
theorem Told.exists_append {c d e : Pool σ α ρ} {told : List ε} (h : Told p outside tell c told d)
    (hlater : Reaches p outside d e) : ∃ more, Told p outside tell c (told ++ more) e := by
  induction hlater with
  | refl => exact ⟨[], by rwa [List.append_nil]⟩
  | tail _ hstep ih =>
    obtain ⟨more, htold⟩ := ih
    cases hstep with
    | move hmove =>
      cases hmove with
      | advance hlive => exact ⟨_, List.append_assoc .. ▸ htold.advance hlive⟩
      | rejoin hwait hr => exact ⟨_, htold.rejoin hwait hr⟩
    | outside hout => exact ⟨_, htold.outside hout⟩

theorem exists_told (tell : List ℕ → σ → α → List ε) {c d : Pool σ α ρ}
    (h : Reaches p outside c d) : ∃ told, Told p outside tell c told d := by
  have hstart : Told p outside tell c [] c := .start
  obtain ⟨told, htold⟩ := hstart.exists_append h
  exact ⟨told, htold⟩

/-- The runs are those that have a history. -/
theorem reaches_iff_told (tell : List ℕ → σ → α → List ε) {c d : Pool σ α ρ} :
    Reaches p outside c d ↔ ∃ told, Told p outside tell c told d :=
  ⟨exists_told tell, fun ⟨_, h⟩ => h.reaches⟩

/-- What was told, was told by a step at some moment of the run. -/
theorem Told.exists_moment {c d : Pool σ α ρ} {told : List ε} (h : Told p outside tell c told d)
    {e : ε} (he : e ∈ told) :
    ∃ (m : Pool σ α ρ) (path : List ℕ) (a : α), Reaches p outside c m ∧
      m.at? path = some (.live a) ∧ e ∈ tell path m.shared a ∧ Reaches p outside m d := by
  induction h with
  | start => cases he
  | @advance told d path a hbefore hlive ih =>
    rcases List.mem_append.mp he with hold | hnew
    · obtain ⟨m, q, b, hm, hb, hmem, hrest⟩ := ih hold
      exact ⟨m, q, b, hm, hb, hmem, hrest.tail (.move (.advance hlive))⟩
    · exact ⟨d, path, a, hbefore.reaches, hlive, hnew, .single (.move (.advance hlive))⟩
  | rejoin _ hwait hr ih =>
    obtain ⟨m, q, b, hm, hb, hmem, hrest⟩ := ih he
    exact ⟨m, q, b, hm, hb, hmem, hrest.tail (.move (.rejoin hwait hr))⟩
  | outside _ hout ih =>
    obtain ⟨m, q, b, hm, hb, hmem, hrest⟩ := ih he
    exact ⟨m, q, b, hm, hb, hmem, hrest.tail (.outside hout)⟩

/-! ### Histories that are written down -/

/-- A pool with something written down. -/
def withNotes (c : Pool σ α ρ) (notes : List ε) : Pool (σ × List ε) α ρ :=
  ⟨(c.shared, notes), c.tasks⟩

theorem at?_withNotes (c : Pool σ α ρ) (notes : List ε) (path : List ℕ) :
    (c.withNotes notes).at? path = c.at? path := by
  cases path <;> rfl

theorem task_noted (note : σ → α → List ε) (d : Directive α ρ) :
    d.task (p.noted note) = d.task p := by
  cases d with
  | fork children waiting => cases children <;> rfl
  | _ => rfl

theorem advance_withNotes (c : Pool σ α ρ) (notes : List ε) (note : σ → α → List ε) (path : List ℕ)
    (a : α) : (c.withNotes notes).advance (p.noted note) path a
      = (c.advance p path a).withNotes (notes ++ note c.shared a) := by
  have hcarry : ∀ d : Directive α ρ, ∀ s : σ, ∀ notes : List ε,
      carryOut (p.noted note) ⟨(s, notes), c.tasks⟩ path d
        = (carryOut p ⟨s, c.tasks⟩ path d).withNotes notes := by
    intro d s notes
    unfold carryOut
    rw [task_noted]
    cases path <;> rfl
  exact hcarry _ _ _

/-- A run with its history is a run that writes its history down. -/
theorem Told.noted {note : σ → α → List ε} {c d : Pool σ α ρ} {told : List ε}
    (h : Told p outside (fun _ => note) c told d) :
    Reaches (p.noted note) (Noting outside) (c.withNotes []) (d.withNotes told) := by
  induction h with
  | start => exact .refl
  | @advance told d path a _ hlive ih =>
    have hmove : Move (p.noted note) (d.withNotes told) _ :=
      .advance ((at?_withNotes d told path).trans hlive)
    rw [advance_withNotes] at hmove
    exact ih.tail (.move hmove)
  | @rejoin told d path a children results _ hwait hr ih =>
    have hmove : Move (p.noted note) (d.withNotes told) _ :=
      .rejoin ((at?_withNotes d told path).trans hwait) hr
    refine ih.tail (.move ?_)
    cases path <;> exact hmove
  | @outside told d s _ hout ih => exact ih.tail (.outside ⟨hout, rfl⟩)

/-! ### The first task -/

/-- Of the roots a step changes only the one it belongs to. -/
theorem tasks_advance (c : Pool σ α ρ) (i : ℕ) (rest : List ℕ) (a : α) (k : ℕ)
    (hk : k < c.tasks.length) :
    (c.advance p (i :: rest) a).tasks[k]? = c.tasks[k]?.map fun t =>
      if i = k then t.replace rest ((p.step c.shared a).2.task p) else t := by
  have htasks : (c.advance p (i :: rest) a).tasks
      = c.tasks.modify i (fun t => t.replace rest ((p.step c.shared a).2.task p))
        ++ (p.step c.shared a).2.roots := rfl
  rw [htasks, List.getElem?_append_left (by simpa using hk), List.getElem?_modify]
  cases c.tasks[k]? <;> by_cases hik : i = k <;> simp [hik]

theorem tasks_replace (c : Pool σ α ρ) (i : ℕ) (rest : List ℕ) (new : Task α ρ) (k : ℕ) :
    (c.replace (i :: rest) new).tasks[k]? = c.tasks[k]?.map fun t =>
      if i = k then t.replace rest new else t := by
  have htasks : (c.replace (i :: rest) new).tasks
      = c.tasks.modify i fun t => t.replace rest new := rfl
  rw [htasks, List.getElem?_modify]
  cases c.tasks[k]? <;> by_cases hik : i = k <;> simp [hik]

/-- What holds between the first task and the history, if nobody else tells. -/
theorem Told.root {P : List ε → Task α ρ → Prop} {s : σ} {a : α}
    (hothers : ∀ i rest s b, i ≠ 0 → tell (i :: rest) s b = [])
    (hstart : P [] (.live a))
    (hadvance : ∀ {told t rest b} (s : σ), P told t → t.at? rest = some (.live b) →
      P (told ++ tell (0 :: rest) s b) (t.replace rest ((p.step s b).2.task p)))
    (hrejoin : ∀ {told t rest b children results}, P told t →
      t.at? rest = some (.waiting b children) → Task.results? children = some results →
      P told (t.replace rest (.live (p.rejoin b results))))
    {told : List ε} {d : Pool σ α ρ} (h : Told p outside tell (Pool.start s a) told d) :
    ∃ t, d.tasks[0]? = some t ∧ P told t := by
  induction h with
  | start => exact ⟨_, rfl, hstart⟩
  | outside _ _ ih => exact ih
  | @advance told d path b _ hlive ih =>
    obtain ⟨t, ht, hP⟩ := ih
    obtain ⟨i, rest, root, rfl, hi, hroot⟩ := at?_eq_some hlive
    have hlt : 0 < d.tasks.length := (List.getElem?_eq_some_iff.mp ht).1
    rw [tasks_advance d i rest b 0 hlt, ht]
    by_cases hfirst : i = 0
    · subst hfirst
      obtain rfl : t = root := Option.some.inj (ht.symm.trans hi)
      exact ⟨_, rfl, by simpa using hadvance d.shared hP hroot⟩
    · exact ⟨t, by simp [hfirst], by rw [hothers i rest _ _ hfirst, List.append_nil]; exact hP⟩
  | @rejoin told d path b children results _ hwait hr ih =>
    obtain ⟨t, ht, hP⟩ := ih
    obtain ⟨i, rest, root, rfl, hi, hroot⟩ := at?_eq_some hwait
    rw [tasks_replace d i rest _ 0, ht]
    by_cases hfirst : i = 0
    · subst hfirst
      obtain rfl : t = root := Option.some.inj (ht.symm.trans hi)
      exact ⟨_, rfl, by simpa using hrejoin hP hroot hr⟩
    · exact ⟨t, by simp [hfirst], hP⟩

end Pool

end Automation.Schedule
