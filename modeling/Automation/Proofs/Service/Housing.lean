/-
Automation/Proofs/Service/Housing.lean

Which task of the service carries out which run.

A run has a house: a root whose head carries the run out as a whole, with nothing below it but
branches of the same run (`Household`).  No run has two houses, and exactly the runs that
have not ended have one (`Housed`).  The service keeps it so, in whatever order its tasks work
(`Housed.move`): a run moves in when it is opened, its head moves out when it closes the run, and
then nothing of the run is left at work.
-/
import Automation.Proofs.Schedule.History
import Automation.Proofs.Service.Turn

namespace Automation.Service

open Automation.Schedule (Directive Pool Task)

/-- A pool of tasks of the service. -/
abbrev House := Pool Desk Work Run.Report

/-! ### What comes of the directive of a strand -/

/-- Only a directive that ends a task leaves one that has ended. -/
theorem eq_finish {directive : Directive Run.Strand Run.Report} {setup : Run.Setup}
    {report : Run.Report} (h : directive.task (Run.program setup) = .ended report) :
    directive = .finish report := by
  cases directive with
  | fork children waiting => cases children <;> cases h
  | finish r => exact congrArg Directive.finish (Task.ended.inj h)
  | _ => cases h

/-- A task of a run, and the task of the service that carries it out. -/
inductive Carried (w : Work) (id : String) :
    Task Run.Strand Run.Report → Task Work Run.Report → Prop
  | live {next} : Carried w id (.live next) (.live (w.withStrand next))
  | waiting {next} {children : List Run.Strand} : Carried w id
    (.waiting next (children.map .live))
    (.waiting (w.withStrand next) ((children.map (.branch id)).map .live))
  | ended {report} : Carried w id (.ended report) (.ended report)

section

variable {w : Work} {id : String} {t : Task Run.Strand Run.Report} {u : Task Work Run.Report}

theorem carried_task (hid : w.run? = some id) (setup : Run.Setup)
    (directive : Directive Run.Strand Run.Report) :
    Carried w id (directive.task (Run.program setup)) ((w.carry id directive).task program) := by
  cases directive with
  | fork children waiting =>
    cases children with
    | nil =>
      have hwork : rejoin (w.withStrand waiting) [] = w.withStrand (Run.rejoin waiting []) := by
        rw [Work.rejoin_eq, Work.strand_withStrand hid, Work.withStrand_withStrand]
      show Carried w id _ (.live (rejoin (w.withStrand waiting) []))
      rw [hwork]
      exact .live
    | cons child children => exact .waiting
  | finish report => exact .ended
  | _ => exact .live

theorem roots_carry {directive : Directive Run.Strand Run.Report} (h : directive.roots = []) :
    (w.carry id directive).roots = [] := by
  cases directive with
  | spawn child next => cases h
  | _ => rfl

/-- The states of the one are those of the other, with the run that they belong to; those
below the first are branches. -/
theorem Carried.of_mem_states (h : Carried w id t u) (hid : w.run? = some id) {b : Work}
    (hb : b ∈ u.states) :
    b.run? = some id ∧ b.strand ∈ t.states ∧ (w.IsBranch → b.IsBranch) := by
  cases h with
  | live =>
    obtain rfl := List.mem_singleton.mp hb
    exact ⟨(Work.run?_withStrand ..).trans hid, by simp [Work.strand_withStrand hid], by simp⟩
  | @waiting next children =>
    rcases Task.mem_states_forked.mp hb with rfl | ⟨child, hchild, rfl⟩
    · exact ⟨(Work.run?_withStrand ..).trans hid, by simp [Work.strand_withStrand hid], by simp⟩
    · refine ⟨rfl, ?_, fun _ => trivial⟩
      rw [Task.states_waiting, Task.statesAll_map_live]
      exact List.mem_cons_of_mem _ hchild
  | ended => cases hb

end

/-! ### Households -/

/-- The run that a root carries out. -/
def owner : Task Work Run.Report → Option String
  | .live w => w.run?
  | .waiting w _ => w.run?
  | .ended _ => none

/-- The head of a root carries out a run as a whole, or none; all that is below it are branches
of the run. -/
def Household : Task Work Run.Report → Prop
  | .live w => ¬ w.IsBranch
  | .waiting w children => ¬ w.IsBranch ∧ ∃ id, w.run? = some id ∧
    ∀ b ∈ Task.statesAll children, b.IsBranch ∧ b.run? = some id
  | .ended _ => True

section

variable {t u new : Task Work Run.Report} {path : List ℕ} {w b : Work} {id : String}

/-- Whoever works on a run in a household works on the run of its head. -/
theorem Household.owner_eq (h : Household t) (hb : b ∈ t.states) (hid : b.run? = some id) :
    owner t = some id := by
  cases t with
  | live v =>
    obtain rfl := List.mem_singleton.mp hb
    exact hid
  | waiting v children =>
    obtain ⟨-, i, hi, hbelow⟩ := h
    rcases List.mem_cons.mp hb with rfl | hb
    · exact hid
    · exact hi.trans ((hbelow b hb).2.symm.trans hid)
  | ended report => cases hb

theorem Carried.household {s : Task Run.Strand Run.Report} (h : Carried w id s t)
    (hid : w.run? = some id) (hhead : ¬ w.IsBranch) :
    Household t ∧ (owner t = some id ∨ ∃ report, s = .ended report) := by
  cases h with
  | live => exact ⟨by simpa [Household] using hhead, .inl (by simpa [owner] using hid)⟩
  | waiting =>
    refine ⟨⟨by simpa using hhead, id, by simpa using hid, fun b hb => ?_⟩,
      .inl (by simpa [owner] using hid)⟩
    rw [Task.statesAll_map_live] at hb
    obtain ⟨child, -, rfl⟩ := List.mem_map.mp hb
    exact ⟨trivial, rfl⟩
  | ended => exact ⟨trivial, .inr ⟨_, rfl⟩⟩

/-- The head of a root is no branch, and whoever is below it is one. -/
theorem Household.isBranch_iff (h : Household t) (hat : t.at? path = some u)
    (hu : u = .live w ∨ ∃ children, u = .waiting w children) : w.IsBranch ↔ path ≠ [] := by
  have hw : w ∈ u.states := by rcases hu with rfl | ⟨children, rfl⟩ <;> simp
  cases path with
  | nil =>
    obtain rfl := Option.some.inj hat
    have hhead : ¬ w.IsBranch := by
      rcases hu with rfl | ⟨children, rfl⟩
      · exact h
      · exact h.1
    simpa using hhead
  | cons i path =>
    cases t with
    | live v => simp [Task.at?] at hat
    | ended report => simp [Task.at?] at hat
    | waiting v children =>
      obtain ⟨child, hi, hchild⟩ := Option.bind_eq_some_iff.mp hat
      obtain ⟨before, after, hs, -⟩ := Task.exists_split hchild
      obtain ⟨-, run, -, hbelow⟩ := h
      have hmem : w ∈ Task.statesAll children := by
        rw [(Task.statesAll_of_getElem? hi id).1, hs]
        simp [hw]
      simpa using (hbelow w hmem).1

/-- Below the head a branch may give way to branches of the same run. -/
theorem Household.replace (h : Household t) (hat : t.at? path = some u) (hpath : path ≠ [])
    (hnew : ∀ b ∈ new.states, b.IsBranch ∧ b.run? = owner t) :
    Household (t.replace path new) ∧ owner (t.replace path new) = owner t := by
  cases path with
  | nil => exact absurd rfl hpath
  | cons i path =>
    cases t with
    | live v => simp [Task.at?] at hat
    | ended report => simp [Task.at?] at hat
    | waiting v children =>
      obtain ⟨child, hi, hchild⟩ := Option.bind_eq_some_iff.mp hat
      obtain ⟨hhead, id, hid, hbelow⟩ := h
      refine ⟨⟨hhead, id, hid, fun b hb => ?_⟩, rfl⟩
      rcases Task.mem_statesAll_modify hi hchild hb with hb | hb
      · exact ⟨(hnew b hb).1, (hnew b hb).2.trans hid⟩
      · exact hbelow b hb

end

/-! ### Runs and their houses -/

/-- The runs that the roots of a pool carry out. -/
def owners (c : House) : List String := c.tasks.filterMap owner

/-- Every root is a household, no run has two, and exactly the runs that have not ended have
one. -/
structure Housed (c : House) : Prop where
  sound : c.shared.Sound
  households : ∀ t ∈ c.tasks, Household t
  apart : (owners c).Nodup
  atWork : ∀ id, id ∈ owners c ↔ c.shared.Unfinished id

section

variable {c d : House} {t : Task Work Run.Report} {w : Work} {id : String} {i : ℕ} {path : List ℕ}

/-- What a list of parts is made of, with one part apart. -/
theorem perm_filterMap_modify {α β : Type} (f : α → Option β) {as : List α} {a : α}
    (h : as[i]? = some a) : ∃ others, ∀ g : α → α,
      ((as.modify i g).filterMap f).Perm ((f (g a)).toList ++ others) := by
  obtain ⟨hi, rfl⟩ := List.getElem?_eq_some_iff.mp h
  refine ⟨(as.take i).filterMap f ++ (as.drop (i + 1)).filterMap f, fun g => ?_⟩
  rw [List.modify_eq_take_cons_drop hi, List.filterMap_append]
  have hcons : (g as[i] :: as.drop (i + 1)).filterMap f
      = (f (g as[i])).toList ++ (as.drop (i + 1)).filterMap f := by
    rcases hf : f (g as[i]) with - | b <;> simp [hf]
  rw [hcons, ← List.append_assoc, ← List.append_assoc]
  exact List.perm_append_comm.append_right _

/-- A run that somebody works on has not ended. -/
theorem Housed.unfinished (hc : Housed c) (hw : w ∈ c.states) (hid : w.run? = some id) :
    c.shared.Unfinished id := by
  obtain ⟨t, ht, hw⟩ := Task.mem_statesAll.mp hw
  exact (hc.atWork id).mp (List.mem_filterMap.mpr ⟨t, ht, (hc.households t ht).owner_eq hw hid⟩)

/-- A step of a task is a turn. -/
theorem Housed.turn (hc : Housed c) (hw : w ∈ c.states) :
    Turn c.shared w (step c.shared w).1 (step c.shared w).2 := by
  refine turn_step c.shared w fun id hid => ?_
  obtain ⟨s, hs, -⟩ := Desk.unfinished_iff.mp (hc.unfinished hw hid)
  exact ⟨s, hs⟩

/-- A root is exchanged and others are added, such that no run gets two houses: whoever lived
there moved out or has ended, and whoever lives there now had lived there or is new. -/
theorem Housed.exchange (hc : Housed c) (ht : c.tasks[i]? = some t)
    {g : Task Work Run.Report → Task Work Run.Report} {es : List (Task Work Run.Report)} {e : Desk}
    (hsound : e.Sound) (hhouse : Household (g t)) (hes : ∀ u ∈ es, Household u)
    {before after : List String} (hbefore : (owner t).toList = before)
    (hafter : (owner (g t)).toList ++ es.filterMap owner = after) (hnodup : after.Nodup)
    (hnew : ∀ id ∈ after, id ∈ before ∨ ¬ c.shared.Unfinished id)
    (hunfinished : ∀ id, e.Unfinished id ↔ id ∈ after ∨ c.shared.Unfinished id ∧ id ∉ before) :
    Housed ⟨e, c.tasks.modify i g ++ es⟩ := by
  obtain ⟨others, hothers⟩ := perm_filterMap_modify owner ht
  have hold : (owners c).Perm (before ++ others) := by
    have hid := hothers id
    rwa [List.modify_id, id_eq, hbefore] at hid
  have hperm : (owners ⟨e, c.tasks.modify i g ++ es⟩).Perm (after ++ others) := by
    rw [owners, List.filterMap_append, ← hafter]
    refine ((hothers g).append_right _).trans ?_
    rw [List.append_assoc, List.append_assoc]
    exact List.perm_append_comm.append_left _
  obtain ⟨-, hothersNodup, hdisjoint⟩ := List.nodup_append'.mp (hold.nodup_iff.mp hc.apart)
  -- who lives elsewhere has not ended, and does not live here
  have helse : ∀ id, id ∈ others ↔ c.shared.Unfinished id ∧ id ∉ before := by
    intro id
    rw [← hc.atWork, hold.mem_iff, List.mem_append]
    constructor
    · exact fun h => ⟨.inr h, fun hb => hdisjoint hb h⟩
    · exact fun h => h.1.resolve_left h.2
  refine ⟨hsound, fun u hu => ?_, ?_, fun id => ?_⟩
  · rcases List.mem_append.mp hu with hu | hu
    · obtain ⟨k, hk⟩ := List.mem_iff_getElem?.mp hu
      rw [List.getElem?_modify] at hk
      by_cases hik : i = k
      · subst hik
        obtain rfl : g t = u := by simpa [ht] using hk
        exact hhouse
      · exact hc.households u (List.mem_of_getElem? (by simpa [hik] using hk))
    · exact hes u hu
  · rw [hperm.nodup_iff, List.nodup_append']
    refine ⟨hnodup, hothersNodup, fun id hid helsewhere => ?_⟩
    obtain ⟨hunf, hnot⟩ := (helse id).mp helsewhere
    exact (hnew id hid).elim hnot fun h => h hunf
  · rw [hperm.mem_iff, List.mem_append, helse, hunfinished]

section

variable {g : Task Work Run.Report → Task Work Run.Report} {es : List (Task Work Run.Report)}
  {e : Desk}

/-- Whoever lives in a root stays there. -/
theorem Housed.stay (hc : Housed c) (ht : c.tasks[i]? = some t) (hsound : e.Sound)
    (hhouse : Household (g t)) (howner : owner (g t) = owner t)
    (hunfinished : ∀ id, e.Unfinished id ↔ c.shared.Unfinished id) :
    Housed ⟨e, c.tasks.modify i g ++ []⟩ := by
  refine hc.exchange ht hsound hhouse (by simp) rfl (by simp [howner]) ?_ (fun _ => .inl) ?_
  · cases owner t <;> simp
  · intro id
    rw [hunfinished]
    have hlives : id ∈ (owner t).toList → c.shared.Unfinished id := fun h =>
      (hc.atWork id).mp (List.mem_filterMap.mpr
        ⟨t, List.mem_of_getElem? ht, by simpa using h⟩)
    tauto

/-- Somebody new moves in. -/
theorem Housed.enter (hc : Housed c) (ht : c.tasks[i]? = some t) (hsound : e.Sound)
    (hhouse : Household (g t)) (hes : ∀ u ∈ es, Household u) (hempty : owner t = none)
    (howner : (owner (g t)).toList ++ es.filterMap owner = [id]) (hnew : ¬ c.shared.Unfinished id)
    (hunfinished : ∀ j, e.Unfinished j ↔ j = id ∨ c.shared.Unfinished j) :
    Housed ⟨e, c.tasks.modify i g ++ es⟩ := by
  have hbefore : (owner t).toList = [] := by simp [hempty]
  refine hc.exchange ht hsound hhouse hes hbefore howner (by simp) ?_ ?_
  · intro j hj
    obtain rfl := List.mem_singleton.mp hj
    exact .inr hnew
  · simpa using hunfinished

/-- Whoever lives in a root moves out. -/
theorem Housed.leave (hc : Housed c) (ht : c.tasks[i]? = some t) (hsound : e.Sound)
    (hhouse : Household (g t)) (hold : owner t = some id) (howner : owner (g t) = none)
    (hunfinished : ∀ j, e.Unfinished j ↔ j ≠ id ∧ c.shared.Unfinished j) :
    Housed ⟨e, c.tasks.modify i g ++ []⟩ := by
  have hbefore : (owner t).toList = [id] := by simp [hold]
  have hafter : (owner (g t)).toList ++ [].filterMap owner = [] := by simp [howner]
  refine hc.exchange ht hsound hhouse (by simp) hbefore hafter .nil (by simp) fun j => ?_
  rw [hunfinished]
  simp [and_comm]

end

/-- What is left of a directive with which a client goes on. -/
theorem goesOn_task {rest : List Command} {directive : Directive Work Run.Report}
    (h : GoesOn rest directive) : directive.task program = .live (.client rest) ∧
      directive.roots = [] := by
  cases h <;> exact ⟨rfl, rfl⟩

theorem Housed.advance (hc : Housed c) (hat : c.at? path = some (.live w)) :
    Housed (c.advance program path w) := by
  obtain ⟨k, rest, t, rfl, hk, hroot⟩ := Pool.at?_eq_some hat
  have hhouse := hc.households t (List.mem_of_getElem? hk)
  have hturn := hc.turn (Pool.mem_states_of_live hat)
  show Housed ⟨(step c.shared w).1, c.tasks.modify k
    (fun t => t.replace rest ((step c.shared w).2.task program)) ++ (step c.shared w).2.roots⟩
  generalize (step c.shared w).1 = e at hturn ⊢
  generalize (step c.shared w).2 = directive at hturn ⊢
  have hsound := hturn.sound hc.sound
  have hbranch := hhouse.isBranch_iff hroot (.inl rfl)
  -- a head is all of its root
  have halone : ¬ w.IsBranch → rest = [] ∧ t = .live w := by
    intro hhead
    obtain rfl : rest = [] := by simpa using mt hbranch.mpr hhead
    exact ⟨rfl, Option.some.inj hroot⟩
  have hfresh : ¬ c.shared.Unfinished (Desk.idOf (c.shared.issued + 1)) := by
    simp [Desk.Unfinished, hc.sound.fresh]
  cases hturn with
  | answers _ hgoes =>
    obtain ⟨rfl, rfl⟩ := halone id
    obtain ⟨htask, hroots⟩ := goesOn_task hgoes
    rw [htask, hroots]
    exact hc.stay hk hsound id rfl fun _ => Iff.rfl
  | cancels =>
    obtain ⟨rfl, rfl⟩ := halone id
    exact hc.stay hk hsound id rfl (Desk.unfinished_update fun _ => rfl)
  | runs =>
    obtain ⟨rfl, rfl⟩ := halone id
    exact hc.enter hk hsound id (by simp [Directive.roots]) rfl rfl hfresh
      (Desk.unfinished_openSession _ _)
  | starts =>
    obtain ⟨rfl, rfl⟩ := halone id
    exact hc.enter hk hsound id (by simp [Directive.roots, Household, Work.IsBranch]) rfl rfl
      hfresh
      (Desk.unfinished_openSession _ _)
  | shutsDown =>
    obtain ⟨rfl, rfl⟩ := halone id
    exact hc.stay hk hsound trivial rfl (Desk.unfinished_cancelPending _)
  | @works _ run s shared directive hid hs hstep hgoes =>
    have hroots := Run.roots_of_step hstep
    have hcarried := carried_task hid s.setup directive
    rw [roots_carry hroots]
    by_cases hw : w.IsBranch
    · have howner := hhouse.owner_eq (Task.states_subset hroot (List.mem_singleton_self w)) hid
      obtain ⟨hhouse', howner'⟩ := hhouse.replace hroot (hbranch.mp hw) fun b hb =>
        have hb := hcarried.of_mem_states hid hb
        ⟨hb.2.2 hw, hb.1.trans howner.symm⟩
      exact hc.stay hk hsound hhouse' howner' (Desk.unfinished_sharing _)
    · obtain ⟨rfl, rfl⟩ := halone hw
      obtain ⟨hhouse', howner | ⟨report, hended⟩⟩ := hcarried.household hid hw
      · exact hc.stay hk hsound hhouse' (howner.trans hid.symm) (Desk.unfinished_sharing _)
      · exact absurd (eq_finish hended) (hgoes report)
  | @reports run strand =>
    have hnothing : ∀ report, ∀ b ∈ (Task.ended report : Task Work Run.Report).states,
        b.IsBranch ∧ b.run? = owner t := by simp
    obtain ⟨hhouse', howner⟩ := hhouse.replace hroot (hbranch.mp trivial) (hnothing _)
    exact hc.stay hk hsound hhouse' howner (Desk.unfinished_sharing _)
  | ends =>
    obtain ⟨rfl, rfl⟩ := halone id
    exact hc.leave hk hsound trivial rfl rfl (Desk.unfinished_close_sharing _ _)
  | returns =>
    obtain ⟨rfl, rfl⟩ := halone id
    exact hc.leave hk hsound id rfl rfl (Desk.unfinished_close_sharing _ _)

theorem Housed.rejoin (hc : Housed c) {children : List (Task Work Run.Report)}
    (hat : c.at? path = some (.waiting w children)) (reports : List Run.Report) :
    Housed (c.replace path (.live (rejoin w reports))) := by
  obtain ⟨k, rest, t, rfl, hk, hroot⟩ := Pool.at?_eq_some hat
  have hhouse := hc.households t (List.mem_of_getElem? hk)
  have hbranch := hhouse.isBranch_iff hroot (.inr ⟨children, rfl⟩)
  have hback : Household (t.replace rest (.live (rejoin w reports))) ∧
      owner (t.replace rest (.live (rejoin w reports))) = owner t := by
    rw [Work.rejoin_eq]
    by_cases hw : w.IsBranch
    · refine hhouse.replace hroot (hbranch.mp hw) fun b hb => ?_
      obtain rfl := List.mem_singleton.mp hb
      rcases hid : w.run? with - | id
      · cases w with
        | branch => cases hid
        | _ => cases hw
      · have howner := hhouse.owner_eq (Task.states_subset hroot List.mem_cons_self) hid
        exact ⟨by simpa using hw, by simp [howner, hid]⟩
    · obtain rfl : rest = [] := by simpa using mt hbranch.mpr hw
      obtain rfl := Option.some.inj hroot
      exact ⟨by simpa [Household, Task.replace] using hw, by simp [Task.replace, owner]⟩
  have hstay := hc.stay (g := fun t => t.replace rest (.live (Service.rejoin w reports))) hk hc.sound
    hback.1 hback.2 fun _ => Iff.rfl
  rwa [List.append_nil] at hstay

/-- The service keeps runs housed, in whatever order its tasks work. -/
theorem Housed.move (hc : Housed c) (h : Pool.Move program c d) : Housed d := by
  cases h with
  | advance hat => exact hc.advance hat
  | rejoin hat => exact hc.rejoin hat _

/-- The service at work, in any order of work. -/
abbrev Reaches : House → House → Prop := Pool.Reaches program fun _ _ => False

theorem Housed.reaches (hc : Housed c) (h : Reaches c d) : Housed d := by
  induction h with
  | refl => exact hc
  | tail _ hstep ih =>
    cases hstep with
    | move hmove => exact ih.move hmove
    | outside h => exact h.elim

/-- The service as it begins to serve a client. -/
abbrev opening (d : Desk) (commands : List Command) : House := Pool.start d (.client commands)

theorem housed_opening {d : Desk} (hd : d.Sound) (hnone : ∀ id, ¬ d.Unfinished id)
    (commands : List Command) : Housed (opening d commands) where
  sound := hd
  households t ht := by
    obtain rfl := List.mem_singleton.mp ht
    exact id
  apart := .nil
  atWork id := ⟨fun h => absurd h (List.not_mem_nil), fun h => absurd h (hnone id)⟩

theorem housed_new (settings : Settings) (registry : Registry) (now : Moment)
    (surroundings : Fields Value) (secretStore : SecretStore) (world : World)
    (commands : List Command) :
    Housed (opening (.new settings registry now surroundings secretStore world) commands) :=
  housed_opening (Desk.sound_new ..) (fun id => by simp [Desk.Unfinished, Desk.new]) commands

/-- What each turn keeps, the service keeps; only runs that have not ended are worked on. -/
theorem Housed.kept {J : Desk → Prop}
    (hJ : ∀ {e w e' directive}, e.Sound → (∀ id, w.run? = some id → e.Unfinished id) →
      Turn e w e' directive → J e → J e')
    (hc : Housed c) (hstart : J c.shared) (h : Reaches c d) : J d.shared := by
  induction h with
  | refl => exact hstart
  | tail hreach hstep ih =>
    have hb := hc.reaches hreach
    cases hstep with
    | outside h => exact h.elim
    | move hmove =>
      cases hmove with
      | advance hat =>
        rw [Pool.advance_shared]
        have hw := Pool.mem_states_of_live hat
        exact hJ hb.sound (fun _ hid => hb.unfinished hw hid) (hb.turn hw) ih
      | rejoin =>
        rw [Pool.replace_shared]
        exact ih

theorem Housed.terms_eq (hc : Housed c) (h : Reaches c d) : d.shared.terms = c.shared.terms :=
  hc.kept (J := fun e => e.terms = c.shared.terms)
    (fun _ _ hturn he => hturn.terms_eq.trans he) rfl h

end

end Automation.Service
