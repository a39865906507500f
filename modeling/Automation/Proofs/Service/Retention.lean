/-
Automation/Proofs/Service/Retention.lean

Which runs the service keeps on record.

What is on record stands in start order, and a run is put on record when it is started, at the
end.  Before that the oldest finished runs beyond the allowed number are dropped; a run that
has not finished is never dropped, and nothing else takes anything off the record
(`record_retained`).  The allowed number may be zero or negative, and an older run may finish
after a younger one: what counts is who has finished when the next run is started.
-/
import Automation.Proofs.Service.Housing

namespace Automation.Service

open Automation.Schedule (Pool Task)

namespace Desk

/-! ### Dropping the first of some members -/

section

variable (p : String → Bool)

/-- The first members that satisfy a test are left out, and no others. -/
theorem dropFirst_eq_filter (count : ℕ) {ids : List String} (h : ids.Nodup) :
    dropFirst p count ids = ids.filter fun id => !((ids.filter p).take count).contains id := by
  induction ids generalizing count with
  | nil => cases count <;> rfl
  | cons id ids ih =>
    obtain ⟨hid, hids⟩ := List.nodup_cons.mp h
    cases count with
    | zero => simp [dropFirst]
    | succ count =>
      unfold dropFirst
      rcases hp : p id with - | -
      · have hkept : id ∉ (ids.filter p).take (count + 1) := fun hmem => by
          simpa [hp] using (List.mem_filter.mp (List.mem_of_mem_take hmem)).2
        have hold : (id :: ids).filter p = ids.filter p := List.filter_cons_of_neg (by simp [hp])
        rw [if_neg (by simp), hold, ih (count + 1) hids,
          List.filter_cons_of_pos (by simpa using hkept)]
      · have hothers : ∀ i ∈ ids, (!(id :: (ids.filter p).take count).contains i)
            = !((ids.filter p).take count).contains i := by
          intro i hi
          have hne : i ≠ id := fun heq => hid (heq ▸ hi)
          simp [hne]
        simp only [if_true, ih count hids, List.filter_cons_of_pos hp, List.take_succ_cons]
        rw [List.filter_cons_of_neg (by simp), List.filter_congr hothers]

theorem filter_dropFirst (count : ℕ) (ids : List String) :
    (dropFirst p count ids).filter p = (ids.filter p).drop count := by
  induction ids generalizing count with
  | nil => cases count <;> rfl
  | cons id ids ih =>
    cases count with
    | zero => rfl
    | succ count =>
      unfold dropFirst
      rcases hp : p id with - | -
      · simp [hp, ih]
      · simp [hp, ih]

theorem mem_dropFirst_of_not {count : ℕ} {ids : List String} {id : String} (hid : id ∈ ids)
    (hp : p id = false) : id ∈ dropFirst p count ids := by
  induction ids generalizing count with
  | nil => cases hid
  | cons i ids ih =>
    cases count with
    | zero => exact hid
    | succ count =>
      unfold dropFirst
      rcases List.mem_cons.mp hid with rfl | hid
      · simp [hp]
      · split
        · exact ih hid
        · exact List.mem_cons_of_mem _ (ih hid)

end

/-- The finished runs on record, in start order. -/
def finished (d : Desk) : List String := d.records.filter d.hasFinished

end Desk

/-! ### The record -/

/-- What becomes of the record when a run is started: without exactly the first finished runs that
are too many it stays as it was, and the new run comes last.  So the finished runs that are
left are those that were started last. -/
structure Retains (kept : ℤ) (before after : Desk) (survivors : List String) : Prop where
  records : after.records = survivors ++ [Desk.idOf (before.issued + 1)]
  dropped : ∃ excess : ℕ, (excess : ℤ) = min (before.finished.length : ℤ)
      (max 0 ((before.finished.length : ℤ) - kept)) ∧
    survivors = before.records.filter fun id => !(before.finished.take excess).contains id
  ordered : survivors.Sublist before.records
  newest : survivors.filter before.hasFinished <:+ before.finished
  bounded : ((survivors.filter before.hasFinished).length : ℤ) ≤ max 0 kept
  unfinished : ∀ id ∈ before.records, before.hasFinished id = false → id ∈ survivors
  fresh : Desk.idOf (before.issued + 1) ∉ before.records
  sessions : ∀ id ∈ survivors, after.sessions.get? id = before.sessions.get? id

theorem retains_enlist {d : Desk} (hd : d.Sound) (g : Graph) (r : RunRequest) (a : Answer) :
    ∃ survivors, Retains d.settings.keptRuns d ((d.enlist g r).answer a) survivors := by
  set excess := ((d.finished.length : ℤ) - d.settings.keptRuns).toNat with hexcess
  have hfresh : Desk.idOf (d.issued + 1) ∉ d.records := by
    intro hmem
    obtain ⟨s, hs⟩ := hd.exists_session hmem
    rw [hd.fresh] at hs
    cases hs
  have hfinished := Desk.filter_dropFirst d.hasFinished excess d.records
  refine ⟨Desk.dropFirst d.hasFinished excess d.records, rfl, ⟨min d.finished.length excess, ?_, ?_⟩,
    Desk.dropFirst_sublist .., ?_, ?_, fun id hid hp => Desk.mem_dropFirst_of_not _ hid hp, hfresh,
    fun id hid => ?_⟩
  · omega
  · have htake : d.finished.take (min d.finished.length excess) = d.finished.take excess := by
      rw [List.take_eq_take_iff]
      omega
    rw [htake, Desk.dropFirst_eq_filter d.hasFinished excess hd.nodup]
    rfl
  · rw [hfinished]
    exact List.drop_suffix ..
  · rw [hfinished, List.length_drop]
    show ((d.finished.length - excess : ℕ) : ℤ) ≤ _
    omega
  · refine Fields.get?_set_of_ne _ (fun heq => ?_) _
    rw [heq] at hid
    exact hfresh ((Desk.dropFirst_sublist ..).subset hid)

/-- A turn that starts no run leaves the record as it is. -/
theorem Turn.records_eq {d d' : Desk} {w : Work}
    {directive : Schedule.Directive Work Run.Report} (h : Turn d w d' directive)
    (hstart : ∀ r rest g, w = .client (.start r :: rest) → Graph.ofDocument r.flow ≠ .ok g) :
    d'.records = d.records := by
  cases h with
  | starts hg => exact absurd hg (hstart _ _ _ rfl)
  | runs => rfl
  | _ => simp

/-- The record stands in start order; an accepted start drops exactly the first finished runs that
are too many and puts the new run last; and nothing else that can happen changes the record. -/
theorem record_retained (settings : Settings) (registry : Registry) (now : Moment)
    (surroundings : Fields Value) (secretStore : SecretStore) (world : World)
    (commands : List Command) {c : House}
    (h : Reaches (opening (.new settings registry now surroundings secretStore world) commands) c) :
    (∃ ns : List ℕ, c.shared.records = ns.map Desk.idOf ∧ ns.Pairwise (· < ·) ∧
      ∀ n ∈ ns, n ≤ c.shared.issued) ∧
    (∀ path r rest g, c.at? path = some (.live (.client (.start r :: rest))) →
      Graph.ofDocument r.flow = .ok g →
      ∃ survivors, Retains settings.keptRuns c.shared
        (c.advance program path (.client (.start r :: rest))).shared survivors) ∧
    ∀ d, Pool.Move program c d →
      (∀ path r rest g, c.at? path = some (.live (.client (.start r :: rest))) →
        Graph.ofDocument r.flow = .ok g →
        d ≠ c.advance program path (.client (.start r :: rest))) →
      d.shared.records = c.shared.records := by
  have hstart := housed_new settings registry now surroundings secretStore world commands
  have hc := hstart.reaches h
  refine ⟨?_, fun path r rest g hat hg => ?_, fun d hmove hother => ?_⟩
  · obtain ⟨ns, hns, hsorted, hbounds⟩ := hc.sound.recorded
    exact ⟨ns, hns, hsorted, fun n hn => (hbounds n hn).2⟩
  · have hsettings : c.shared.settings = settings := congrArg Prod.fst (hstart.terms_eq h)
    have hstep : (step c.shared (.client (.start r :: rest))).1
        = (c.shared.enlist g r).answer (.started (Desk.idOf (c.shared.issued + 1))) := by
      simp only [step, serve, withGraph, hg]
      rfl
    rw [Pool.advance_shared, ← hsettings]
    show ∃ survivors, Retains _ _ (step c.shared _).1 survivors
    rw [hstep]
    exact retains_enlist hc.sound g r _
  · cases hmove with
    | advance hat =>
      rw [Pool.advance_shared]
      refine (hc.turn (Pool.mem_states_of_live hat)).records_eq fun r rest g hw hg => ?_
      subst hw
      exact hother _ r rest g hat hg rfl
    | rejoin => rw [Pool.replace_shared]

namespace Sample

/-- A flow of one node that does nothing. -/
def idle : RunRequest where
  flow :=
    { authoredNodes := some [Run.Sample.node "a" "start" []]
      authoredEdges := some []
      authoredTrigger := none
      authoredComponent := none
      others := [] }
  payload := []
  declared := []
  environment := []

/-- A service that keeps no finished runs. -/
def forgetful : Desk :=
  .new { Settings.standard with keptRuns := 0 } Run.Sample.registry ⟨"", 0⟩ [] ⟨"store", []⟩
    Run.Sample.world

/-- A service after its roots have worked in some order. -/
def worked (c : House) : List ℕ → House
  | [] => c
  | i :: order => match c.at? [i] with
    | some (.live w) => worked (c.advance program [i] w) order
    | _ => c

theorem reaches_worked (c : House) (order : List ℕ) : Reaches c (worked c order) := by
  induction order generalizing c with
  | nil => exact .refl
  | cons i order ih =>
    unfold worked
    split
    · next hat => exact .head (.move (.advance hat)) (ih _)
    · exact .refl

/-- A run is started and comes to its end, and another one is to be started. -/
def between : House := worked (opening forgetful [.start idle, .start idle]) [0, 1, 1, 1]

theorem reaches_between : Reaches (opening forgetful [.start idle, .start idle]) between :=
  reaches_worked ..

theorem at?_between : between.at? [0] = some (.live (.client [.start idle])) := by
  with_unfolding_all rfl

end Sample

/-- The first of two runs is dropped when the second is started, if it has finished by then and no
finished runs are kept. -/
theorem record_retained_between :
    Sample.between.shared.records = ["run-1"] ∧
      (Sample.between.advance program [0] (.client [.start Sample.idle])).shared.records
        = ["run-2"] := by
  obtain ⟨g, hg⟩ : ∃ g, Graph.ofDocument Sample.idle.flow = .ok g := ⟨_, rfl⟩
  obtain ⟨survivors, hretains⟩ := (record_retained _ _ _ _ _ _ _ Sample.reaches_between).2.1
    [0] Sample.idle [] g Sample.at?_between hg
  have hrecords : Sample.between.shared.records = ["run-1"] := by decide +kernel
  have hfinished : Sample.between.shared.finished = ["run-1"] := by decide +kernel
  have hissued : Sample.between.shared.issued = 1 := by decide +kernel
  obtain ⟨excess, hexcess, hsurvivors⟩ := hretains.dropped
  rw [hfinished] at hexcess hsurvivors
  have hone : excess = 1 := by
    simp at hexcess
    omega
  subst hone
  rw [hrecords] at hsurvivors
  refine ⟨hrecords, ?_⟩
  rw [hretains.records, hissued, hsurvivors]
  rfl

end Automation.Service
