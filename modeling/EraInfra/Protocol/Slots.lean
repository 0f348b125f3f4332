import EraInfra.Protocol.AttemptLifecycle

/-!
# Slots

A Worker's `usedSlots` is a count kept by hand: every operation that places work adds to it, every
operation that ends work takes one off, and nothing in the database ties it to the work itself.
`occupancy` is that tie — the pieces of active work that name the Worker — and `Balanced` says that
the count agrees with it on every Worker.

What an edit does to both sides is said once, for Attempts (`Edits.balanced`), for Experiments
(`EditsExperiment.balanced`) and for the scheduler's batch of placements (`tryAssign_balanced`).

**Double releases.**  A release never takes the count below zero, so a second release of one slot
would not show in the count.  It shows in the log: `slotReleases` records the count each release
found, and `Balanced` says that none found an empty Worker.
-/

namespace EraInfra

open DocStore List Option Table Attempt Db Experiment
open Bool (false_eq_true)

variable {js : Engine} {c : Call} {now : ℤ} {db db' db₀ : Db} {i : DocId Attempt} {a : Attempt}
  {f : Attempt → Attempt} {released dropped : Bool} {m : DocId Machine}

/-! ## Who holds a slot -/

def Job.occupies (m : DocId Machine) (job : Job) : Bool :=
  job.machineId = some m && (job.status = .assigned || job.status = .running)

def Attempt.occupies (m : DocId Machine) (attempt : Attempt) : Bool :=
  attempt.machineId = some m && !attempt.state.isTerminal

def Experiment.occupies (m : DocId Machine) (experiment : Experiment) : Bool :=
  experiment.machineId = some m && !experiment.state.isTerminal

/-- The work that holds a slot of a Worker. -/
def occupancy (m : DocId Machine) (db : Db) : ℕ :=
  db.jobs.count (Job.occupies m) + db.attempts.count (Attempt.occupies m) +
    db.experiments.count (Experiment.occupies m)

/-- The slots a Worker counts as used; a Worker that is not there counts none. -/
def usedSlotsOf (m : DocId Machine) (db : Db) : ℤ := ((db.machines.get m).map Machine.usedSlots).getD 0

/-- **The slot invariant**, for a deployment without legacy jobs. -/
structure Balanced (db : Db) : Prop where
  slots : ∀ m, usedSlotsOf m db = occupancy m db
  releases : ∀ x ∈ db.slotReleases, 1 ≤ x.found
  jobs : ∀ i, db.jobs.get i = none

/-- What is left of it while the reconciler is at work: no Worker counts too few. -/
structure Covered (db : Db) : Prop where
  slots : ∀ m, occupancy m db ≤ usedSlotsOf m db
  releases : ∀ x ∈ db.slotReleases, 1 ≤ x.found

lemma Balanced.covered (h : Balanced db) : Covered db := ⟨fun m => (h.slots m).ge, h.releases⟩

lemma occupancy_congr (hjobs : db'.jobs = db.jobs) (hattempts : db'.attempts = db.attempts)
    (hexperiments : db'.experiments = db.experiments) : occupancy m db' = occupancy m db := by
  rw [occupancy, hjobs, hattempts, hexperiments, occupancy]

lemma usedSlotsOf_congr (h : db'.machines = db.machines) : usedSlotsOf m db' = usedSlotsOf m db := by
  rw [usedSlotsOf, h, usedSlotsOf]

/-- A call that leaves placed work and Workers alone. -/
lemma Untouched.balanced (h : Untouched db db') (hb : Balanced db) : Balanced db' where
  slots m := by
    rw [usedSlotsOf_congr h.machines, occupancy_congr h.jobs h.attempts h.experiments, hb.slots]
  releases := h.slotReleases ▸ hb.releases
  jobs := h.jobs ▸ hb.jobs

lemma Balanced.patchMachine {k : DocId Machine} {g : Machine → Machine} (hb : Balanced db)
    (hg : ∀ machine, (g machine).usedSlots = machine.usedSlots) : Balanced (db.patchMachine k g) := by
  refine ⟨fun m => Eq.trans ?_ (hb.slots m), hb.releases, hb.jobs⟩
  rw [usedSlotsOf, Db.patchMachine, get_patch]
  split
  · rw [Option.map_map]
    congr 2
    exact funext hg
  · rfl

/-! ## Releases -/

lemma usedSlotsOf_release (machineId : Option (DocId Machine)) (db : Db) :
    usedSlotsOf m (releaseMachineSlot machineId db)
      = if machineId = some m then max 0 (usedSlotsOf m db - 1) else usedSlotsOf m db := by
  rcases machineId with _ | k
  · rfl
  unfold releaseMachineSlot
  dsimp only
  split
  · rename_i hnone
    split
    · rename_i hk
      cases hk
      simp [usedSlotsOf, hnone]
    · rfl
  · rename_i machine hmachine
    by_cases hk : k = m
    · subst hk
      simp [usedSlotsOf, hmachine]
    · simp [usedSlotsOf, hk, get_patch_ne (Ne.symm hk)]

variable {machineId : Option (DocId Machine)} {p : WorkItem × Option Assignment}

/-- A release is logged with the count it found. -/
lemma mem_slotReleases_release {x : SlotRelease}
    (h : x ∈ (releaseMachineSlot machineId db).slotReleases) :
    x ∈ db.slotReleases ∨ ∃ m, machineId = some m ∧ x.found = usedSlotsOf m db := by
  rcases machineId with _ | k
  · exact .inl h
  unfold releaseMachineSlot at h
  dsimp only at h
  split at h
  · exact .inl h
  rename_i machine hmachine
  rcases mem_append.mp h with h | h
  · exact .inl h
  · obtain rfl := mem_singleton.mp h
    exact .inr ⟨k, rfl, by simp [usedSlotsOf, hmachine]⟩

/-- Releasing the slot of work that holds one leaves a clean log. -/
lemma releases_release (h : ∀ x ∈ db.slotReleases, 1 ≤ x.found)
    (hheld : ∀ m, machineId = some m → 1 ≤ usedSlotsOf m db) :
    ∀ x ∈ (releaseMachineSlot machineId db).slotReleases, 1 ≤ x.found := by
  intro x hx
  rcases mem_slotReleases_release hx with hx | ⟨m, hm, hfound⟩
  · exact h x hx
  · rw [hfound]
    exact hheld m hm

/-! ## Edits of an Attempt -/

lemma Attempt.occupies_iff :
    a.occupies m = true ↔ a.machineId = some m ∧ a.state.isTerminal = false := by
  simp [occupies]

lemma Attempt.not_occupies_of_terminal (h : a.state.isTerminal = true) : a.occupies m = false := by
  simp [occupies, h]

lemma Attempt.not_occupies_of_unplaced (h : a.machineId = none) : a.occupies m = false := by
  simp [occupies, h]

/-- **What a rule does to the slot of a row.**  It gives the slot back and the row, which was active,
holds none any more; or it gives nothing back, and then the row holds no slot it did not hold
before, and only the reconciler takes a slot from it without giving it back. -/
lemma Rule.occupies (h : Rule c db₀ i a f released dropped) (hop : c.op ≠ .tryAssign) :
    (released = true ∧ a.state.isTerminal = false ∧ ∀ m, (f a).occupies m = false) ∨
      (released = false ∧ (∀ m, (f a).occupies m = true → a.occupies m = true) ∧
        (c.op ≠ .reconcile → ∀ m, (f a).occupies m = a.occupies m)) := by
  -- a row that keeps its Worker and stays active, or stays ended, keeps what it holds
  have hkeep : (f a).machineId = a.machineId → (f a).state.isTerminal = a.state.isTerminal →
      ∀ m, (f a).occupies m = a.occupies m := by
    intro hmachine hterminal m
    rw [Attempt.occupies, hmachine, hterminal, Attempt.occupies]
  have hsame : (∀ m, (f a).occupies m = a.occupies m) →
      (∀ m, (f a).occupies m = true → a.occupies m = true) ∧
        (c.op ≠ .reconcile → ∀ m, (f a).occupies m = a.occupies m) :=
    fun h => ⟨fun m hm => h m ▸ hm, fun _ => h⟩
  cases h with
  | assigned _ htry => exact absurd htry hop
  | requeued _ hpending _ =>
    exact .inl ⟨rfl, by rw [hpending]; rfl, fun _ => Attempt.not_occupies_of_unplaced rfl⟩
  | unplaced hreconcile _ _ =>
    refine .inr ⟨rfl, fun m hm => ?_, fun hne => absurd hreconcile hne⟩
    simp [unplacedAttempt, Attempt.occupies] at hm
  | claimed _ _ _ hpending =>
    exact .inr ⟨rfl, hsame (hkeep rfl (by rw [hpending]; rfl))⟩
  | readied _ _ _ hpreparing =>
    exact .inr ⟨rfl, hsame (hkeep rfl (by rw [hpreparing]; rfl))⟩
  | started args _ _ _ hactive =>
    obtain ⟨hstate, hmachine, -⟩ := startedAttempt_cases c.now args a
    exact .inr ⟨rfl, hsame (hkeep hmachine (by rw [hactive]; rfl))⟩
  | branched | acknowledged | reportedAgain | retired | abandoned | kept =>
    exact .inr ⟨rfl, hsame (hkeep rfl rfl)⟩
  | completed args =>
    cases hterminal : a.state.isTerminal with
    | true => exact .inr ⟨rfl, hsame (hkeep rfl hterminal.symm)⟩
    | false => exact .inl ⟨rfl, rfl, fun _ => Attempt.not_occupies_of_terminal rfl⟩
  | cancelled _ _ hpending =>
    exact .inl ⟨rfl, by rw [hpending]; rfl, fun _ => Attempt.not_occupies_of_terminal rfl⟩
  | confirmed _ _ _ _ _ _ honline =>
    refine .inl ⟨rfl, ?_, fun _ => Attempt.not_occupies_of_terminal (outcome_terminal _)⟩
    cases hs : a.state <;> simp [hs, runnerMayBeOnline, AttemptState.isTerminal] at honline ⊢
  | unconfirmed _ _ _ hactive | exitedRetiring _ _ _ _ _ hactive =>
    exact .inl ⟨rfl, hactive, fun _ => Attempt.not_occupies_of_terminal (outcome_terminal _)⟩
  | expired _ _ hnone _ =>
    have hunplaced : ∀ m, (expiredAttempt c.now a).occupies m = a.occupies m := fun m => by
      rw [Attempt.not_occupies_of_unplaced (a := a) hnone]
      exact Attempt.not_occupies_of_unplaced hnone
    exact .inr ⟨rfl, hsame hunplaced⟩
  | exited _ _ _ _ hactive =>
    exact .inl ⟨rfl, hactive,
      fun _ => Attempt.not_occupies_of_terminal (exitedAttempt_terminal _ _ _ _)⟩

/-- The slot an active Attempt holds is counted. -/
lemma Covered.held (h : Covered db) (ha : db.attempts.get i = some a)
    (hactive : a.state.isTerminal = false) (hm : a.machineId = some m) :
    1 ≤ usedSlotsOf m db := by
  have hpos : 0 < db.attempts.count (occupies m) := count_pos ha (occupies_iff.mpr ⟨hm, hactive⟩)
  have := h.slots m
  unfold occupancy at this
  omega

section Edits

variable (he : Edits i a f released dropped db db')

include he

/-- An edit moves the occupancy by what it does to its row. -/
lemma Edits.occupancy_eq (m : DocId Machine) : occupancy m db' + (if a.occupies m then 1 else 0)
      = occupancy m db + if (f a).occupies m then 1 else 0 := by
  have hcount := count_patch (f := f) (p := occupies m) he.found
  unfold occupancy
  rw [he.attempts, he.jobs, he.experiments]
  omega

lemma Edits.usedSlots_eq (m : DocId Machine) :
    usedSlotsOf m db' = if released = true ∧ a.machineId = some m then
      max 0 (usedSlotsOf m db - 1) else usedSlotsOf m db := by
  have hmachines := he.machines
  cases released with
  | false => simpa using usedSlotsOf_congr hmachines
  | true =>
    rw [usedSlotsOf_congr hmachines, releaseAttemptSlot, usedSlotsOf_release]
    simp

variable (hr : Rule c db₀ i a f released dropped) (htry : c.op ≠ .tryAssign)

include hr htry

/-- **What an edit does to the gap between count and work.**  It never makes the count fall behind,
and only an edit of the reconciler lets it run ahead. -/
lemma Edits.gap (hc : Covered db) (m : DocId Machine) :
    usedSlotsOf m db + occupancy m db' ≤ usedSlotsOf m db' + occupancy m db ∧
      (c.op ≠ .reconcile → usedSlotsOf m db + occupancy m db'
        = usedSlotsOf m db' + occupancy m db) := by
  have hocc := he.occupancy_eq m
  have hused := he.usedSlots_eq m
  rcases hr.occupies htry with ⟨rfl, hactive, hnone⟩ | ⟨rfl, hless, hsame⟩
  · rw [hnone m] at hocc
    by_cases hm : a.machineId = some m
    · have hheld := hc.held he.found hactive hm
      simp only [Attempt.occupies_iff.mpr ⟨hm, hactive⟩, hm, if_true, and_self,
        false_eq_true, if_false] at hocc hused
      omega
    · have hfree : a.occupies m = false := by simp [Attempt.occupies, hm]
      simp only [hfree, hm, and_false, if_false] at hocc hused
      omega
  · simp only [false_eq_true, false_and, if_false] at hused
    refine ⟨?_, fun hop => ?_⟩
    · by_cases hafter : (f a).occupies m = true
      · simp only [hafter, hless m hafter] at hocc
        omega
      · rw [if_neg hafter] at hocc
        omega
    · rw [hsame hop m] at hocc
      omega

lemma Covered.edit_releases (h : Covered db) : ∀ x ∈ db'.slotReleases, 1 ≤ x.found := by
  rw [he.slotReleases]
  rcases hr.occupies htry with ⟨rfl, hactive, -⟩ | ⟨rfl, -⟩
  · exact releases_release h.releases fun m hm => h.held he.found hactive hm
  · exact h.releases

/-- An edit by a rule keeps count and work in step, unless it is the scheduler's or the
reconciler's. -/
lemma Edits.balanced (hreconcile : c.op ≠ .reconcile) (hb : Balanced db) : Balanced db' := by
  refine ⟨fun m => ?_, hb.covered.edit_releases he hr htry, he.jobs ▸ hb.jobs⟩
  have hgap := (he.gap hr htry hb.covered m).2 hreconcile
  have hslots := hb.slots m
  omega

/-- An edit of the reconciler keeps every slot that is held counted. -/
lemma Edits.covered (hc : Covered db) : Covered db' := by
  refine ⟨fun m => ?_, hc.edit_releases he hr htry⟩
  have hgap := (he.gap hr htry hc m).1
  have hslots := hc.slots m
  omega

end Edits

lemma EditsOne.balanced (h : EditsOne c db db') (htry : c.op ≠ .tryAssign)
    (hreconcile : c.op ≠ .reconcile) (hb : Balanced db) : Balanced db' := by
  rcases h with h | ⟨i, a, f, released, dropped, he, hr⟩
  · exact h.balanced hb
  · exact he.balanced hr htry hreconcile hb

lemma createAttempt_balanced {args : CreateAttemptArgs} (h : createAttempt now args db = .ok db')
    (hb : Balanced db) : Balanced db' := by
  rcases createAttempt_cases h with rfl | ⟨-, rfl⟩
  · exact hb
  refine ⟨fun m => ?_, hb.releases, hb.jobs⟩
  have hfree : (newAttempt now args).occupies m = false := not_occupies_of_unplaced rfl
  have hslots := hb.slots m
  unfold occupancy
  rw [count_insert]
  exact hslots

/-! ## Edits of an Experiment -/

section Experiments

variable {k : DocId Experiment} {e : Experiment} {g : Experiment → Experiment}

lemma Experiment.occupies_iff :
    e.occupies m = true ↔ e.machineId = some m ∧ e.state.isTerminal = false := by
  simp [occupies]

lemma EditsExperiment.occupancy_eq (he : EditsExperiment k e g released db db') (m : DocId Machine) :
    occupancy m db' + (if e.occupies m then 1 else 0)
      = occupancy m db + if (g e).occupies m then 1 else 0 := by
  have hcount := count_patch (f := g) (p := occupies m) he.found
  have hdb : occupancy m db' = occupancy m (db.patchExperiment k g) := by
    rw [he.eq]
    cases released with
    | false => rfl
    | true =>
      rw [releaseMachineSlot_eq]
      rfl
  rw [hdb]
  unfold occupancy patchExperiment
  dsimp only
  omega

lemma EditsExperiment.usedSlots_eq (he : EditsExperiment k e g released db db') (m : DocId Machine) :
    usedSlotsOf m db' = if released = true ∧ e.machineId = some m then
      max 0 (usedSlotsOf m db - 1) else usedSlotsOf m db := by
  rw [he.eq]
  cases released with
  | false => simp [usedSlotsOf, patchExperiment]
  | true =>
    have hrelease := usedSlotsOf_release (m := m) e.machineId db
    simpa [usedSlotsOf, patchExperiment] using hrelease

lemma Covered.held_experiment (h : Covered db) (he : db.experiments.get k = some e)
    (hactive : e.state.isTerminal = false) (hm : e.machineId = some m) :
    1 ≤ usedSlotsOf m db := by
  have hpos : 0 < db.experiments.count (occupies m) := count_pos he (occupies_iff.mpr ⟨hm, hactive⟩)
  have := h.slots m
  unfold occupancy at this
  omega

/-- A call on one Experiment keeps count and work in step. -/
lemma EditsExperiment.balanced (he : EditsExperiment k e g released db db') (hb : Balanced db) :
    Balanced db' := by
  have hheld : ∀ m, e.machineId = some m → 1 ≤ usedSlotsOf m db :=
    fun m hm => hb.covered.held_experiment he.found he.active hm
  refine ⟨fun m => ?_, ?_, ?_⟩
  · have hocc := he.occupancy_eq m
    have hused := he.usedSlots_eq m
    have hslots := hb.slots m
    have hends := he.ends
    cases released with
    | true =>
      have hgone : (g e).occupies m = false := by simp [Experiment.occupies, hends]
      by_cases hm : e.machineId = some m
      · simp only [hgone, Experiment.occupies_iff.mpr ⟨hm, he.active⟩, hm, and_self, if_true,
          false_eq_true, if_false] at hocc hused
        omega
      · have hfree : e.occupies m = false := by simp [Experiment.occupies, hm]
        simp only [hgone, hfree, hm, and_false, if_false] at hocc hused
        omega
    | false =>
      have hsame : (g e).occupies m = e.occupies m := by
        simp [Experiment.occupies, hends, he.stays rfl, he.active]
      rw [hsame] at hocc
      simp only [false_eq_true, false_and, if_false] at hused
      omega
  · rw [he.eq]
    cases released with
    | false => exact hb.releases
    | true => exact releases_release hb.releases hheld
  · rw [he.eq]
    cases released with
    | false => exact hb.jobs
    | true =>
      rw [releaseMachineSlot_eq]
      exact hb.jobs

lemma balanced_insertExperiment (he : e.machineId = none) (hb : Balanced db) :
    Balanced { db with experiments := db.experiments.insert e } := by
  refine ⟨fun m => ?_, hb.releases, hb.jobs⟩
  have hfree : e.occupies m = false := by simp [Experiment.occupies, he]
  have hslots := hb.slots m
  unfold occupancy
  rw [count_insert, hfree]
  exact hslots

end Experiments

/-! ## Workers that join -/

/-- No work names a Worker that has not joined yet, so it may start with no slot in use. -/
lemma balanced_insertMachine {machine : Machine} {tokens : Table RegistrationToken}
    (hused : machine.usedSlots = 0) (hb : Balanced db) :
    Balanced { db with
      registrationTokens := tokens, machines := db.machines.insert machine } := by
  refine ⟨fun m => ?_, hb.releases, hb.jobs⟩
  have hslots := hb.slots m
  show usedSlotsOf m { db with machines := db.machines.insert machine } = occupancy m db
  rw [← hslots, usedSlotsOf, usedSlotsOf, get_insert]
  split
  · rename_i hm
    rw [hm, get_next]
    simpa using hused
  · rfl

/-! ## Placements -/

lemma machines_applyPlacement (db : Db) (p : WorkItem × Option Assignment) :
    (applyPlacement db p).machines = db.machines ∧
      (applyPlacement db p).slotReleases = db.slotReleases ∧
      (applyPlacement db p).jobs = db.jobs := by
  rcases p with ⟨_ | _, _ | _⟩ <;> exact ⟨rfl, rfl, rfl⟩

/-- A placement of waiting work takes one slot of the Worker it is placed on. -/
lemma occupancy_applyPlacement (h : p.1.Waits db) (m : DocId Machine) :
    occupancy m (applyPlacement db p) = occupancy m db + if placedOn m p then 1 else 0 := by
  rcases p with ⟨⟨i, work⟩ | ⟨k, work⟩, _ | assignment⟩
  · simp [applyPlacement, placedOn]
  · obtain ⟨a, ha, hpending, hnone⟩ := h
    have hcount := count_patch (f := assignedAttempt assignment) (p := Attempt.occupies m) ha
    have hafter : (assignedAttempt assignment a).occupies m
        = placedOn m (.attempt i work, some assignment) := by
      simp [Attempt.occupies, assignedAttempt, placedOn, hpending, AttemptState.isTerminal]
    rw [hafter, Attempt.not_occupies_of_unplaced hnone] at hcount
    simp only [false_eq_true, if_false] at hcount
    simp only [occupancy, applyPlacement, Db.patchAttempt]
    omega
  · simp [applyPlacement, placedOn]
  · obtain ⟨e, he, hqueued, hnone⟩ := h
    have hcount := count_patch (f := assignedExperiment assignment) (p := Experiment.occupies m) he
    have hafter : (assignedExperiment assignment e).occupies m
        = placedOn m (.experiment k work, some assignment) := by
      simp [Experiment.occupies, assignedExperiment, placedOn, hqueued, ExperimentState.isTerminal]
    have hbefore : e.occupies m = false := by simp [Experiment.occupies, hnone]
    rw [hafter, hbefore] at hcount
    simp only [false_eq_true, if_false] at hcount
    simp only [occupancy, applyPlacement, Db.patchExperiment]
    omega

/-- A placement leaves the other rows waiting. -/
lemma waits_applyPlacement {item : WorkItem}
    (hne : p.1.key ≠ item.key) (h : item.Waits db) : item.Waits (applyPlacement db p) := by
  rcases p with ⟨⟨i, work⟩ | ⟨k, work⟩, _ | assignment⟩ <;>
    rcases item with ⟨j, work'⟩ | ⟨j, work'⟩
  · exact h
  · exact h
  · have hj : j ≠ i := fun heq => hne (by rw [heq]; rfl)
    obtain ⟨a, ha, hrest⟩ := h
    exact ⟨a, (get_patch_ne hj).trans ha, hrest⟩
  · exact h
  · exact h
  · exact h
  · exact h
  · have hj : j ≠ k := fun heq => hne (by rw [heq]; rfl)
    obtain ⟨e, he, hrest⟩ := h
    exact ⟨e, (get_patch_ne hj).trans he, hrest⟩

lemma occupancy_placements {placements : List (WorkItem × Option Assignment)}
    (hnodup : (placements.map fun p => p.1.key).Nodup) (hwaits : ∀ p ∈ placements, p.1.Waits db)
    (m : DocId Machine) :
    occupancy m (placements.foldl applyPlacement db)
      = occupancy m db + placements.countP (placedOn m) := by
  induction placements generalizing db with
  | nil => rfl
  | cons p placements ih =>
    obtain ⟨hhead, hrest⟩ := nodup_cons.mp hnodup
    have hothers : ∀ q ∈ placements, q.1.Waits (applyPlacement db p) := fun q hq =>
      waits_applyPlacement (fun heq => hhead (mem_map.mpr ⟨q, hq, heq.symm⟩))
        (hwaits q (mem_cons_of_mem _ hq))
    rw [foldl_cons, ih hrest hothers, occupancy_applyPlacement (hwaits p mem_cons_self), countP_cons]
    omega

section WriteBack

variable {machineById : OrderedMap (DocId Machine) Machine} {slots : OrderedMap (DocId Machine) ℤ}

/-- Writing the counts back: every loaded Worker gets its entry, no other Worker is touched. -/
lemma usedSlots_writeBack (db : Db) (hdistinct : slots.Distinct)
    (hloaded : ∀ m machine, machineById.find m = some machine → db.machines.get m = some machine) :
    (∀ m machine n, machineById.find m = some machine → slots.find m = some n →
      usedSlotsOf m (slots.foldl (applyUsedSlots machineById) db) = n) ∧
    ∀ m, machineById.find m = none →
      usedSlotsOf m (slots.foldl (applyUsedSlots machineById) db) = usedSlotsOf m db := by
  have key := foldlM_owned (fun m db => db.machines.get m) (fun entry m => entry.1 = m)
    (fun _ => True) (fun entry m before written =>
      (∀ machine, machineById.find m = some machine → before = some machine →
        written.map Machine.usedSlots = some entry.2) ∧
      (machineById.find m = none → written = before))
    (pairwise_map.mp hdistinct |>.imp fun hne k hk hk' => hne (hk.trans hk'.symm)) ?_ trivial
    (foldlM_ok (applyUsedSlots machineById) db)
  · obtain ⟨-, hin, hout⟩ := key
    refine ⟨fun m machine n hm hn => ?_, fun m hm => ?_⟩
    · have := (hin (m, n) (OrderedMap.mem_of_find hn) m rfl).1 machine hm (hloaded m machine hm)
      rw [usedSlotsOf, this]
      rfl
    by_cases hentry : ∃ entry ∈ slots, entry.1 = m
    · obtain ⟨entry, hmem, rfl⟩ := hentry
      rw [usedSlotsOf, (hin entry hmem _ rfl).2 hm, usedSlotsOf]
    · push Not at hentry
      rw [usedSlotsOf, hout m hentry, usedSlotsOf]
  rintro ⟨k, n⟩ - db₁ _ - - ⟨⟩
  refine ⟨trivial, fun m hm => ?_, fun m hm => ?_⟩
  · obtain rfl : k = m := hm
    refine ⟨fun machine hmachine hbefore => ?_, fun hnone => ?_⟩
    · unfold applyUsedSlots
      simp only [hmachine]
      split
      · simp [patchMachine, hbefore]
      · rename_i hsame
        simpa [hbefore] using hsame
    · simp only [applyUsedSlots, hnone]
  · unfold applyUsedSlots
    split
    · rfl
    · split
      · exact get_patch_ne (Ne.symm hm)
      · rfl

lemma work_writeBack (db : Db) (entry : DocId Machine × ℤ) :
    (applyUsedSlots machineById db entry).jobs = db.jobs ∧
      (applyUsedSlots machineById db entry).attempts = db.attempts ∧
      (applyUsedSlots machineById db entry).experiments = db.experiments ∧
      (applyUsedSlots machineById db entry).slotReleases = db.slotReleases := by
  unfold applyUsedSlots
  split
  · exact ⟨rfl, rfl, rfl, rfl⟩
  · split
    · exact ⟨rfl, rfl, rfl, rfl⟩
    · exact ⟨rfl, rfl, rfl, rfl⟩

end WriteBack

/-- **The scheduler's batch.**  It reads every count once and writes it back after placing the whole
queue, and still count and work stay in step. -/
theorem tryAssign_balanced {n : ℕ} (h : AttemptScheduler.tryAssign js now db = .ok (n, db'))
    (hb : Balanced db) : Balanced db' := by
  rcases tryAssign_cases h with rfl |
    ⟨placements, machineById, slots, rfl, hnodup, hwaits, honline, hdistinct, hcounts⟩
  · exact hb
  have hmachines : (placements.foldl applyPlacement db).machines = db.machines :=
    foldl_frame machines (fun db p => (machines_applyPlacement db p).1) _ _
  have hjobs : (slots.foldl (applyUsedSlots machineById)
      (placements.foldl applyPlacement db)).jobs = db.jobs := by
    rw [foldl_frame jobs (fun db entry => (work_writeBack db entry).1),
      foldl_frame jobs (fun db p => (machines_applyPlacement db p).2.2)]
  refine ⟨fun m => ?_, ?_, hjobs ▸ hb.jobs⟩
  · obtain ⟨hwritten, huntouched⟩ := usedSlots_writeBack (placements.foldl applyPlacement db)
      hdistinct fun m machine hm => by rw [hmachines]; exact (hcounts m machine hm).1
    have hocc : occupancy m (slots.foldl (applyUsedSlots machineById)
        (placements.foldl applyPlacement db)) = occupancy m db + placements.countP (placedOn m) := by
      rw [← occupancy_placements hnodup hwaits]
      exact foldl_frame (occupancy m) (fun db entry => occupancy_congr (work_writeBack db entry).1
        (work_writeBack db entry).2.1 (work_writeBack db entry).2.2.1) _ _
    have hslots := hb.slots m
    rw [hocc]
    cases hm : machineById.find m with
    | some machine =>
      obtain ⟨hget, hcount⟩ := hcounts m machine hm
      rw [hwritten m machine _ hm hcount]
      simp only [usedSlotsOf, hget, map_some, getD_some] at hslots
      push_cast
      rw [hslots]
    | none =>
      have hnone : placements.countP (placedOn m) = 0 := by
        refine countP_eq_zero.mpr fun p hp hplaced => ?_
        obtain ⟨assignment, hassigned, rfl⟩ := map_eq_some_iff.mp (of_decide_eq_true hplaced)
        obtain ⟨machine, hmachine⟩ := honline p hp assignment hassigned
        rw [hm] at hmachine
        simp at hmachine
      rw [huntouched m hm, usedSlotsOf_congr hmachines, hslots, hnone, add_zero]
  · rw [foldl_frame slotReleases (fun db entry => (work_writeBack db entry).2.2.2),
      foldl_frame slotReleases (fun db p => (machines_applyPlacement db p).2.1)]
    exact hb.releases

end EraInfra
