import EraInfra.Protocol.Slots

/-!
# The slot repair

A pass of the reconciler ends by setting every Worker's `usedSlots` to the work that is active then.
It does not read the Workers again: it compares with `machineSlots`, a local copy that every earlier
branch that writes a count has to keep up to date.

* **The copy is exact** (`Cached`) — after every loop it holds the stored count of every loaded
  Worker, and a Worker that was not loaded has not been written.
* **The repair is exact on loaded Workers** (`repairSlots_spec`).
* **The others need none** — a Worker that no active work names at the start is named by none at the
  end (`Table.Shrinks`), so its count is right if it was zero.  A Worker is not loaded when it counts
  *at most* zero, and `slot_repair_overdrawn` is a Worker with a negative count that stays wrong.
-/

namespace EraInfra

open DocStore List Option Experiment OrderedMap
open Prod (ext fst mk)
open Reconcile (run)
open Table (countP_collectBy get_patch_ne shrinks_foldl shrinks_patch)

variable {now : ℤ} {db db' : Db} {s s' : Sweep} {m : DocId Machine}

/-! ## What the handling of commands leaves alone -/

def Db.jobSide (db : Db) : Table Job × Table Machine := (db.jobs, db.machines)

lemma machines_settleFailedJob (k : DocId Job) (job : Job) (error : String)
    (failedOn : Option (DocId Machine)) (db : Db) :
    (settleFailedJob now k job error failedOn db).machines = db.machines := by
  unfold settleFailedJob
  split <;> rfl

/-! ## The local copy -/

/-- The local copy of the counts of the Workers loaded from `db` is what the database holds. -/
structure Cached (db : Db) (s : Sweep) : Prop where
  loaded : ∀ m machine, (loadMachines db).find m = some machine →
    ∃ current, s.db.machines.get m = some current ∧ s.machineSlots.find m = some current.usedSlots
  others : ∀ m, (loadMachines db).find m = none → s.db.machines.get m = db.machines.get m

lemma Cached.congr (h : Cached db s) (hmachines : s'.db.machines = s.db.machines)
    (hslots : s'.machineSlots = s.machineSlots) : Cached db s' := by
  refine ⟨?_, ?_⟩
  · rw [hmachines, hslots]
    exact h.loaded
  · rw [hmachines]
    exact h.others

lemma cached_initial (db : Db) : Cached db (initialSweep db) := by
  refine ⟨fun m machine hm => ⟨machine, loadMachines_find hm, ?_⟩, fun _ _ => rfl⟩
  exact (find_map Machine.usedSlots).trans (by rw [hm]; rfl)

variable {machine : Machine} {r : ReconcileResult}

section

variable (h : Cached db s)

include h

/-- A write of one loaded Worker's count to both. -/
lemma Cached.write (n : ℤ) (hm : (loadMachines db).find m = some machine) (hmachines : s'.db.machines =
      s.db.machines.patch m fun stored => { stored with usedSlots := n })
    (hslots : s'.machineSlots = s.machineSlots.set m n) : Cached db s' := by
  refine ⟨fun k loaded hk => ?_, fun k hk => ?_⟩
  · obtain ⟨current, hcurrent, hcached⟩ := h.loaded k loaded hk
    rw [hmachines, hslots, find_set]
    by_cases hkm : k = m
    · subst hkm
      exact ⟨{ current with usedSlots := n }, by simp [hcurrent], by simp⟩
    · exact ⟨current, by rw [get_patch_ne hkm, hcurrent], by rw [if_neg hkm, hcached]⟩
  · have hkm : k ≠ m := by
      rintro rfl
      simp [hm] at hk
    rw [hmachines, get_patch_ne hkm]
    exact h.others k hk

lemma Cached.releaseSlot (now : ℤ) (machineId : Option (DocId Machine)) :
    Cached db (s.releaseSlot machineId ((sweepContext now db).machineOf machineId)) := by
  unfold Sweep.releaseSlot
  split
  · rename_i k machine hk
    exact h.write _ hk rfl rfl
  · exact h

/-! ### Through the loops -/

lemma Cached.sweepAssignedJob (r : DocId Job × Job) :
    Cached db (sweepAssignedJob (sweepContext now db) s r) := by
  unfold EraInfra.sweepAssignedJob
  dsimp only
  split
  · exact h
  have hdiscarded : Cached db { s with
      db := discardCommands now ((sweepContext now db).commandsOf r.1) (some r.2) s.db } :=
    h.congr (view_discardCommands Db.machines fun _ _ _ => rfl) rfl
  have hreleased := hdiscarded.releaseSlot now r.2.machineId
  split
  · exact hreleased.congr (machines_settleFailedJob _ _ _ _ _) rfl
  · exact hreleased.congr (machines_settleFailedJob _ _ _ _ _) rfl

lemma Cached.sweepRunningJob (r : DocId Job × Job) :
    Cached db (sweepRunningJob (sweepContext now db) s r) := by
  unfold EraInfra.sweepRunningJob
  dsimp only
  split
  · exact h
  have habandoned : Cached db { s with
      db := abandonCommands now r.2 ((sweepContext now db).commandsOf r.1)
        (s.db.patchJob r.1 fun stored =>
          { stored with
            status := .failed
            conclusion := some "abandoned"
            finishedAt := some now }) } :=
    h.congr (view_abandonCommands Db.machines fun _ _ _ => rfl) rfl
  exact (habandoned.releaseSlot now r.2.machineId).congr rfl rfl

lemma Cached.sweepQueuedJob (r : DocId Job × Job) :
    Cached db (sweepQueuedJob (sweepContext now db) s r) := by
  unfold EraInfra.sweepQueuedJob
  split
  · exact h
  · exact h.congr rfl rfl

lemma Cached.foldl {β : Type} {f : Sweep → β → Sweep}
    (hf : ∀ s b, Cached db s → Cached db (f s b)) (l : List β) : Cached db (l.foldl f s) := by
  induction l generalizing s with
  | nil => exact h
  | cons b l ih => exact ih (hf s b h)

end

lemma cached_sweepJobs (now : ℤ) (db : Db) :
    Cached db (sweepJobs (sweepContext now db) db (initialSweep db)) :=
  (((cached_initial db).foldl (fun _ r h => h.sweepAssignedJob r) _).foldl
    (fun _ r h => h.sweepRunningJob r) _).foldl (fun _ r h => h.sweepQueuedJob r) _

/-- An edit that gives a slot back writes the count behind the copy's back, and the loop reads it
again. -/
lemma Cached.edit {i : DocId Attempt} {a : Attempt} {f : Attempt → Attempt}
    {released dropped : Bool} (h : Cached db s) (he : Edits i a f released dropped s.db s'.db)
    (hloaded : ∀ m, a.machineId = some m → (loadMachines db).find m = db.machines.get m)
    (hslots : s'.machineSlots = if released then
      recounted (sweepContext now db) a s'.db s.machineSlots else s.machineSlots) :
    Cached db s' := by
  have hmachines := he.machines
  cases released with
  | false => exact h.congr hmachines hslots
  | true =>
    simp only [releaseAttemptSlot, releaseMachineSlot] at hmachines
    simp only [recounted] at hslots
    rcases hm : a.machineId with _ | m
    · simp only [hm] at hmachines hslots
      exact h.congr hmachines hslots
    simp only [hm] at hmachines hslots
    cases hfind : (loadMachines db).find m with
    | none =>
      -- the Worker does not exist: nothing was written
      have hgone : s.db.machines.get m = none := by
        rw [h.others m hfind, ← hloaded m hm, hfind]
      simp only [hgone] at hmachines
      simp only [sweepContext, hfind] at hslots
      exact h.congr hmachines hslots
    | some machine =>
      obtain ⟨current, hcurrent, -⟩ := h.loaded m machine hfind
      simp only [hcurrent] at hmachines
      refine h.write (max 0 (current.usedSlots - 1)) hfind hmachines ?_
      simpa [sweepContext, hfind, hmachines, hcurrent] using hslots

lemma Cached.sweepExperiment (h : Cached db s) (now : ℤ) (r : DocId Experiment × Experiment) :
    Cached db (sweepExperiment (sweepContext now db) s r) := by
  unfold EraInfra.sweepExperiment
  split
  · split
    · exact h.congr rfl rfl
    · exact h
  dsimp only
  split
  · exact h.congr rfl rfl
  · split
    · exact h
    · exact h.congr rfl rfl

/-! ## The repair -/

/-- The repair gives every loaded Worker the count it should have, and touches no other. -/
lemma repairSlots_spec (h : Cached db s) (occupied : List (DocId Machine)) :
    (∀ m machine, (loadMachines db).find m = some machine →
      ∃ current, ((loadMachines db).foldl (repairSlot occupied) (s, 0)).1.db.machines.get m
        = some current ∧ current.usedSlots = occupied.count m) ∧
    ∀ m, (loadMachines db).find m = none →
      ((loadMachines db).foldl (repairSlot occupied) (s, 0)).1.db.machines.get m
        = s.db.machines.get m := by
  have key := foldlM_owned (fun m (t : Sweep × ℕ) => (t.1.db.machines.get m, t.1.machineSlots.find m))
    (fun r m => r.1 = m) (fun _ => True) (l := loadMachines db)
    (fun _ m before repaired =>
      ∀ current, before = (some current, some current.usedSlots) →
        ∃ current, repaired.1 = some current ∧ current.usedSlots = occupied.count m)
    (pairwise_map.mp (distinct_ofList _) |>.imp fun hne k hk hk' => hne (hk.trans hk'.symm)) ?_
    trivial (foldlM_ok (repairSlot occupied) (s, 0))
  · obtain ⟨-, hin, hout⟩ := key
    refine ⟨fun m machine hm => ?_, fun m hm => ?_⟩
    · obtain ⟨current, hcurrent, hcached⟩ := h.loaded m machine hm
      exact hin (m, machine) (mem_of_find hm) m rfl current (ext hcurrent hcached)
    · refine congrArg fst (hout m fun r hr heq => ?_)
      obtain ⟨machine, hfound⟩ := find_isSome_of_mem hr
      rw [heq, hm] at hfound
      simp at hfound
  rintro ⟨k, machine⟩ - t _ - - ⟨⟩
  refine ⟨trivial, fun m hm current hbefore => ?_, fun m hm => ?_⟩
  · obtain rfl : k = m := hm
    obtain ⟨hcurrent, hcached⟩ := mk.inj hbefore
    unfold repairSlot
    simp only [hcached]
    split
    · rename_i hsame
      exact ⟨current, hcurrent, hsame⟩
    · exact ⟨{ current with usedSlots := occupied.count k }, by simp [Db.patchMachine, hcurrent],
        rfl⟩
  · unfold repairSlot
    dsimp only
    split
    · rfl
    · rw [find_set, if_neg (Ne.symm hm)]
      exact ext (get_patch_ne (Ne.symm hm)) rfl

lemma count_filterMap {α : Type} (g : α → Option (DocId Machine)) (l : List α) :
    (l.filterMap g).count m = l.countP fun a => g a = some m := by
  rw [count, countP_filterMap]
  refine countP_congr fun a _ => ?_
  cases g a <;> simp

/-- The repair counts what `occupancy` counts. -/
lemma count_occupiedSlots (db : Db) : (occupiedSlots db).count m = occupancy m db := by
  have hjobs : (jobsWith .assigned db ++ jobsWith .running db)
      = db.jobs.collectBy Job.status [.assigned, .running] := by
    simp [jobsWith, Table.collectBy]
  rw [occupiedSlots, count_append, count_append, count_filterMap, count_filterMap,
    count_filterMap, hjobs, activeAttempts, activeExperiments,
    countP_collectBy (by decide) fun job : Job => job.machineId = some m,
    countP_collectBy (by decide) fun attempt : Attempt => attempt.machineId = some m,
    countP_collectBy (by decide) fun experiment : Experiment =>
      experiment.machineId = some m]
  have hjob : (fun job : Job => decide (job.status ∈ [JobStatus.assigned, .running]) &&
      decide (job.machineId = some m)) = Job.occupies m := by
    funext job
    cases hs : job.status <;> simp [Job.occupies, hs]
  have hattempt : (fun attempt : Attempt => decide (attempt.state ∈ activeAttemptStates) &&
      decide (attempt.machineId = some m)) = Attempt.occupies m := by
    funext attempt
    cases hs : attempt.state <;>
      simp [Attempt.occupies, activeAttemptStates, AttemptState.isTerminal, hs]
  have hexperiment : (fun experiment : Experiment =>
      decide (experiment.state ∈ activeExperimentStates) &&
      decide (experiment.machineId = some m)) = occupies m := by
    funext experiment
    cases hs : experiment.state <;>
      simp [occupies, activeExperimentStates, ExperimentState.isTerminal, hs]
  rw [hjob, hattempt, hexperiment, occupancy]

/-! ## Work that only ends

No loop of the pass gives a Worker work it did not have. -/

/-- Giving a job up or putting it back in the queue does not bring the property about. -/
def Fades (p : Job → Bool) : Prop :=
  ∀ job stored : Job, job.status = .queued ∨ job.status = .failed → p job = true → p stored = true

lemma fades_occupies (m : DocId Machine) : Fades (Job.occupies m) := by
  rintro job stored (h | h) hp <;> simp [Job.occupies, h] at hp

section Jobs

variable {p : Job → Bool} (hp : Fades p)

include hp

lemma shrinks_patchJob {k : DocId Job} {f : Job → Job}
    (hf : ∀ job, (f job).status = .queued ∨ (f job).status = .failed) :
    Table.Shrinks p db.jobs (db.patchJob k f).jobs :=
  shrinks_patch fun job hjob => hp (f job) job (hf job) hjob

lemma shrinks_settleFailedJob (k : DocId Job) (job : Job) (error : String)
    (failedOn : Option (DocId Machine)) :
    Table.Shrinks p db.jobs (settleFailedJob now k job error failedOn db).jobs := by
  unfold settleFailedJob
  split
  · exact shrinks_patchJob hp fun _ => .inr rfl
  · exact shrinks_patchJob hp fun _ => .inl rfl

section

variable (ctx : SweepContext) (s : Sweep) (r : DocId Job × Job)

lemma shrinks_sweepAssignedJob : Table.Shrinks p s.db.jobs (sweepAssignedJob ctx s r).db.jobs := by
  unfold sweepAssignedJob
  dsimp only
  split
  · exact .refl _
  have hreleased : ∀ machineId machine, (Sweep.releaseSlot { s with
      db := discardCommands ctx.now (ctx.commandsOf r.1) (some r.2) s.db }
        machineId machine).db.jobs = s.db.jobs := fun machineId machine =>
    (view_releaseSlot Db.jobs (fun _ _ => rfl) _ machineId machine).trans
      (view_discardCommands Db.jobs fun _ _ _ => rfl)
  split
  all_goals
    rw [← hreleased r.2.machineId (ctx.machineOf r.2.machineId)]
    exact shrinks_settleFailedJob hp _ _ _ _

lemma shrinks_sweepRunningJob : Table.Shrinks p s.db.jobs (sweepRunningJob ctx s r).db.jobs := by
  unfold sweepRunningJob
  dsimp only
  split
  · exact .refl _
  rw [view_releaseSlot Db.jobs fun _ _ => rfl, view_abandonCommands Db.jobs fun _ _ _ => rfl]
  exact shrinks_patchJob hp fun _ => .inr rfl

lemma shrinks_sweepQueuedJob : Table.Shrinks p s.db.jobs (sweepQueuedJob ctx s r).db.jobs := by
  unfold sweepQueuedJob
  split
  · exact .refl _
  · exact shrinks_patchJob hp fun _ => .inr rfl

end

lemma shrinks_sweepJobs (ctx : SweepContext) (loaded : Db) (s : Sweep) :
    Table.Shrinks p s.db.jobs (sweepJobs ctx loaded s).db.jobs :=
  ((shrinks_foldl (fun s : Sweep => s.db.jobs) _ (shrinks_sweepAssignedJob hp ctx) _ s).trans
    (shrinks_foldl (fun s : Sweep => s.db.jobs) _ (shrinks_sweepRunningJob hp ctx) _ _)).trans
    (shrinks_foldl (fun s : Sweep => s.db.jobs) _ (shrinks_sweepQueuedJob hp ctx) _ _)

end Jobs

lemma shrinks_sweepExperiment (ctx : SweepContext) (s : Sweep) (r : DocId Experiment × Experiment) :
    Table.Shrinks (Experiment.occupies m) s.db.experiments
      (sweepExperiment ctx s r).db.experiments := by
  have hfailed : ∀ error e, (failedExperiment ctx.now error e).occupies m = false := by
    simp [occupies, failedExperiment, ExperimentState.isTerminal]
  unfold sweepExperiment
  split
  · split
    · exact shrinks_patch fun e he => absurd he (by simp [hfailed])
    · exact .refl _
  dsimp only
  split
  · exact shrinks_patch fun e he =>
      absurd he (by simp [occupies, unplacedExperiment])
  · split
    · exact .refl _
    · exact shrinks_patch fun e he => absurd he (by simp [hfailed])

lemma purgeAttempts_frame (h : purgeAttempts now db = .ok db') :
    db'.machines = db.machines ∧ db'.jobs = db.jobs ∧ db'.experiments = db.experiments ∧
      db'.slotReleases = db.slotReleases := by
  let P (db₁ : Db) : Prop := db₁.machines = db.machines ∧ db₁.jobs = db.jobs ∧
    db₁.experiments = db.experiments ∧ db₁.slotReleases = db.slotReleases
  refine foldlM_keeps (P := P) (fun state _ db₁ db₂ hP hinner => ?_) ⟨rfl, rfl, rfl, rfl⟩ h
  refine foldlM_keeps (P := P) (fun i _ db₁ db₂ hP hpurge => ?_) hP hinner
  obtain ⟨secrets, records, rfl, -⟩ := purgeAttempt_spec hpurge
  exact hP

section

variable (now : ℤ) (db : Db)

lemma purgeBefore_frame : (purgeBefore now db).machines = db.machines ∧
      (purgeBefore now db).experiments = db.experiments ∧
      (purgeBefore now db).slotReleases = db.slotReleases := by
  simp only [purgeBefore, purgeJobs, purgeRecovery, purgeDeliveries, purgeRegistrationTokens, and_self]

lemma shrinks_purgeBefore {p : Job → Bool} : Table.Shrinks p db.jobs (purgeBefore now db).jobs := by
  exact shrinks_foldl id _
    (fun jobs status => Table.shrinks_deletes ((staleJobs now status jobs).map fst) jobs) _ _

lemma purgeExperiments_frame :
    (purgeExperiments now db).machines = db.machines ∧ (purgeExperiments now db).jobs = db.jobs ∧
      (purgeExperiments now db).slotReleases = db.slotReleases := by
  simp [purgeExperiments]

lemma shrinks_purgeExperiments :
    Table.Shrinks (Experiment.occupies m) db.experiments (purgeExperiments now db).experiments := by
  simp only [purgeExperiments]
  exact shrinks_foldl id _ (fun experiments state => Table.shrinks_deletes
    ((staleExperiments now state experiments).map fst) experiments) _ _

end

lemma purge_work (h : purge now db = .ok db') :
    db'.machines = db.machines ∧ db'.slotReleases = db.slotReleases ∧
      (∀ p, Table.Shrinks p db.jobs db'.jobs) ∧
      ∀ m, Table.Shrinks (Experiment.occupies m) db.experiments db'.experiments := by
  obtain ⟨db₁, hattempts, rfl⟩ := purge_stages h
  obtain ⟨hmachines, hjobs, hexperiments, hreleases⟩ := purgeAttempts_frame hattempts
  obtain ⟨hmachines₀, hexperiments₀, hreleases₀⟩ := purgeBefore_frame now db
  obtain ⟨hmachines₁, hjobs₁, hreleases₁⟩ := purgeExperiments_frame now db₁
  refine ⟨hmachines₁.trans (hmachines.trans hmachines₀),
    hreleases₁.trans (hreleases.trans hreleases₀), fun p => ?_, fun m => ?_⟩
  · rw [hjobs₁, hjobs]
    exact shrinks_purgeBefore now db
  · rw [← hexperiments₀, ← hexperiments]
    exact shrinks_purgeExperiments now db₁

/-! ## The whole pass -/

/-- Where work and releases are kept. -/
def Db.work (db : Db) : Table Job × Table Attempt × Table Experiment × List SlotRelease :=
  (db.jobs, db.attempts, db.experiments, db.slotReleases)

/-- What the Attempt loop leaves alone, and that it keeps the copy. -/
structure SweptFrom (db : Db) (jobs : Table Job) (s : Sweep) : Prop where
  cached : Cached db s
  jobs : s.db.jobs = jobs
  experiments : s.db.experiments = db.experiments

lemma SweptFrom.sweepAttempt {i : DocId Attempt} {a : Attempt} {jobs : Table Job}
    (h : SweptFrom db jobs s) (hfound : s.db.attempts.get i = some a)
    (hget : db.attempts.get i = some a) (hactive : a.state.isTerminal = false)
    (hbeats : s.db.controllerHeartbeats = db.controllerHeartbeats)
    (hs : sweepAttempt (sweepContext now db) s (i, a) = .ok s') : SweptFrom db jobs s' := by
  have hloaded : ∀ m, a.machineId = some m → (loadMachines db).find m = db.machines.get m :=
    fun m hm => loadMachines_of_attempt hget hactive hm
  rcases sweepAttempt_cases hfound hactive hbeats hloaded hs with
    ⟨hsame, hslots⟩ | ⟨f, released, dropped, hedits, -, -, hslots⟩
  · exact ⟨h.cached.congr (by rw [hsame]) hslots, by rw [hsame, h.jobs], by rw [hsame, h.experiments]⟩
  · exact ⟨h.cached.edit hedits hloaded hslots, hedits.jobs.trans h.jobs,
      hedits.experiments.trans h.experiments⟩

/-- **A pass, up to the repair.**  The repair starts from a copy that is exact, over work that has
only become less.  `Inv` is any invariant of the Attempt loop. -/
theorem reconcile_repairs (Inv : Sweep → Prop)
    (hinv : ∀ i a s s', s.db.attempts.get i = some a → db.attempts.get i = some a →
      a.state.isTerminal = false → s.db.controllerHeartbeats = db.controllerHeartbeats →
      sweepAttempt (sweepContext now db) s (i, a) = .ok s' → Inv s → Inv s')
    (h0 : Inv (sweepJobs (sweepContext now db) db (initialSweep db)))
    (h : run now db = .ok (r, db')) :
    ∃ swept s : Sweep, Inv swept ∧ Cached db s ∧ (∀ p, Fades p → Table.Shrinks p db.jobs s.db.jobs) ∧
      (∀ m, Table.Shrinks (Experiment.occupies m) db.experiments s.db.experiments) ∧
      s.db.slotReleases = swept.db.slotReleases ∧ db'.work = s.db.work ∧
      db'.machines
        = ((loadMachines db).foldl (repairSlot (occupiedSlots s.db)) (s, 0)).1.db.machines := by
  obtain ⟨swept, purged, hswept, hpurged, rfl⟩ := reconcile_stages h
  have hside : (sweepJobs (sweepContext now db) db (initialSweep db)).db.attemptSide
      = db.attemptSide := attemptSide_sweepJobs ..
  obtain ⟨⟨hinvs, hcached, hjobs, hexperiments⟩, -⟩ := sweepAttempts_each (fun s => Inv s ∧
      SweptFrom db (sweepJobs (sweepContext now db) db (initialSweep db)).db.jobs s) hside
    (fun i a s s' hfound hget hactive hbeats hs hI =>
      ⟨hinv i a s s' hfound hget hactive hbeats hs hI.1,
        hI.2.sweepAttempt hfound hget hactive hbeats hs⟩)
    ⟨h0, cached_sweepJobs now db, rfl, congrArg (fun p => p.2.2.1) hside⟩ hswept
  have hcached' := hcached.foldl (fun _ r h => h.sweepExperiment now r) (activeExperiments db)
  obtain ⟨experiments, hended'⟩ := sweepExperiments_db (sweepContext now db) (activeExperiments db)
    swept
  have hended := fun m => shrinks_foldl (p := occupies m)
    (fun s : Sweep => s.db.experiments) _ (shrinks_sweepExperiment (sweepContext now db))
    (activeExperiments db) swept
  generalize (activeExperiments db).foldl (sweepExperiment (sweepContext now db)) swept = ended
    at hpurged hcached' hended' hended
  obtain ⟨hmachines, hreleases, hshrunk, hshrunk'⟩ := purge_work hpurged
  obtain ⟨machines, hrepaired⟩ := repairSlots_db (occupiedSlots purged) (loadMachines db)
    ({ ended with db := purged }, 0)
  obtain ⟨deliveries, hretried⟩ := retryStalledDeliveries_db now ((loadMachines db).foldl
    (repairSlot (occupiedSlots purged)) ({ ended with db := purged }, 0)).1.db
  refine ⟨swept, { ended with db := purged }, hinvs, hcached'.congr hmachines rfl,
    fun p hp => ?_, fun m => ?_, hreleases.trans (by rw [hended']), ?_, by rw [hretried]⟩
  · refine Table.Shrinks.trans ?_ (hshrunk p)
    rw [hended', hjobs]
    exact shrinks_sweepJobs hp _ db (initialSweep db)
  · refine Table.Shrinks.trans ?_ (hshrunk' m)
    rw [← hexperiments]
    exact hended m
  · rw [hretried, hrepaired]
    rfl

/-- No rule of the reconciler gives an Attempt a Worker. -/
lemma shrinks_attempts (h : run now db = .ok (r, db')) :
    Table.Shrinks (Attempt.occupies m) db.attempts db'.attempts := by
  intro i b hb hoccupies
  rcases (reconcile_change h i).row_cases hb with
    hsame | ⟨a, f, released, dropped, ha, hrule, rfl⟩ | ⟨args, -, hop, -⟩
  · exact ⟨b, hsame, hoccupies⟩
  · refine ⟨a, ha, ?_⟩
    rcases hrule.occupies (by simp) with ⟨-, -, hnone⟩ | ⟨-, hless, -⟩
    · simp [hnone m] at hoccupies
    · exact hless m hoccupies
  · simp at hop

/-- A Worker some work occupies is referenced. -/
lemma referenced_of_occupied (h : occupancy m db ≠ 0) : m ∈ referencedMachineIds db := by
  rw [← count_occupiedSlots] at h
  have hmem : m ∈ occupiedSlots db := count_pos_iff.mp (Nat.pos_of_ne_zero h)
  unfold occupiedSlots at hmem
  unfold referencedMachineIds
  simp only [filterMap_append, mem_append] at hmem ⊢
  tauto

/-- **What a pass leaves of each Worker's count.**  A loaded Worker has the count of the work that
is active at the end.  Any other Worker has the count it had, and if no work named it at the
start none does at the end. -/
theorem reconcile_slots (h : run now db = .ok (r, db')) (m : DocId Machine) :
    (∀ machine, (loadMachines db).find m = some machine →
      ∃ current, db'.machines.get m = some current ∧ current.usedSlots = occupancy m db') ∧
    ((loadMachines db).find m = none → db'.machines.get m = db.machines.get m) ∧
    (occupancy m db = 0 → occupancy m db' = 0) := by
  obtain ⟨-, s, -, hcached, hjobs, hexperiments, -, hwork, hmachines⟩ :=
    reconcile_repairs (fun _ => True) (fun _ _ _ _ _ _ _ _ _ _ => trivial) trivial h
  obtain ⟨hloaded, hothers⟩ := repairSlots_spec hcached (occupiedSlots s.db)
  have hj : db'.jobs = s.db.jobs := congrArg fst hwork
  have ha : db'.attempts = s.db.attempts := congrArg (fun w => w.2.1) hwork
  have he : db'.experiments = s.db.experiments := congrArg (fun w => w.2.2.1) hwork
  rw [hmachines]
  refine ⟨fun machine hm => ?_, fun hm => ?_, fun hfree => ?_⟩
  · obtain ⟨current, hcurrent, hcount⟩ := hloaded m machine hm
    refine ⟨current, hcurrent, ?_⟩
    rw [hcount, count_occupiedSlots, occupancy_congr hj ha he]
  · rw [hothers m hm, hcached.others m hm]
  · -- work that only ends leaves a free Worker free
    unfold occupancy at hfree ⊢
    rw [hj, he, (hjobs _ (fades_occupies m)).count_eq_zero (Table.count_eq_zero_iff.mp (by omega)),
      (shrinks_attempts h).count_eq_zero (Table.count_eq_zero_iff.mp (by omega)),
      (hexperiments m).count_eq_zero (Table.count_eq_zero_iff.mp (by omega))]

/-- A Worker that is not loaded counts no slot as used. -/
lemma usedSlots_of_unloaded (hm : (loadMachines db).find m = none)
    (hget : db.machines.get m = some machine) : machine.usedSlots ≤ 0 := by
  by_contra hpos
  have hmem : (m, machine) ∈ db.machines.collect fun machine => machine.usedSlots > 0 :=
    Table.mem_collect.mpr ⟨hget, by simpa using hpos⟩
  obtain ⟨loaded, hloaded⟩ := find_ofList_isSome (mem_append_right
    ((referencedMachineIds db).dedup.filterMap fun machineId =>
      (db.machines.get machineId).map fun machine => (machineId, machine)) hmem)
  have hfind : (loadMachines db).find m = some loaded := hloaded
  rw [hm] at hfind
  simp at hfind

/-- **The slot repair is exact.**  From any database at all, a pass that commits leaves every
Worker's `usedSlots` equal to the active work that names it, provided the Worker was named by
active work before or did not count fewer than no slots. -/
theorem slot_repair_exact {r : ReconcileResult} (h : Reconcile.run now db = .ok (r, db'))
    {machine : Machine} (hm : db'.machines.get m = some machine)
    (hbefore : m ∈ referencedMachineIds db ∨
      ∀ before, db.machines.get m = some before → 0 ≤ before.usedSlots) :
    machine.usedSlots = db'.jobs.count (Job.occupies m) + db'.attempts.count (Attempt.occupies m) +
      db'.experiments.count (Experiment.occupies m) := by
  obtain ⟨hloaded, hothers, hfree⟩ := reconcile_slots h m
  suffices machine.usedSlots = occupancy m db' by
    rw [this]
    rfl
  cases hfind : (loadMachines db).find m with
  | some loaded =>
    obtain ⟨current, hcurrent, hcount⟩ := hloaded loaded hfind
    cases hm.symm.trans hcurrent
    exact hcount
  | none =>
    have hget : db.machines.get m = some machine := (hothers hfind).symm.trans hm
    have hunreferenced : m ∉ referencedMachineIds db := by
      intro hmem
      simp [loadMachines_of_referenced hmem, hget] at hfind
    have hzero : occupancy m db = 0 := by
      by_contra hne
      exact hunreferenced (referenced_of_occupied hne)
    have hge := hbefore.resolve_left hunreferenced machine hget
    have hle := usedSlots_of_unloaded hfind hget
    omega

/-! ## A Worker with a negative count -/

/-- A deployment with one Worker, no work, and a given count. -/
def idleDb (usedSlots : ℤ) : Db := { Db.empty with
    machines := Table.empty.insert
      { name := "worker"
        os := .linux
        labels := []
        cpus := none
        memoryMiB := none
        benchmark := none
        maxSlots := 4
        usedSlots := usedSlots
        lastSeen := 0
        token := "secret" } }

/-- A count that is too high is repaired. -/
theorem slot_repair_exact_phantom :
    ∃ r db' machine, Reconcile.run 0 (idleDb 3) = .ok (r, db') ∧
      db'.machines.get 0 = some machine ∧
      machine.usedSlots = db'.jobs.count (Job.occupies 0) +
        db'.attempts.count (Attempt.occupies 0) + db'.experiments.count (Experiment.occupies 0) := by
  have hcommits : ((run 0 (idleDb 3)).toOption.bind fun p => p.2.machines.get 0).isSome
      = true := by decide
  rcases hrun : run 0 (idleDb 3) with e | p
  · simp [hrun, Except.toOption] at hcommits
  obtain ⟨machine, hmachine⟩ : ∃ machine, p.2.machines.get 0 = some machine := by
    simpa [hrun, Except.toOption, isSome_iff_exists] using hcommits
  refine ⟨p.1, p.2, machine, rfl, hmachine, slot_repair_exact hrun hmachine (.inr ?_)⟩
  intro before hbefore
  have hthree : ((idleDb 3).machines.get 0).map Machine.usedSlots = some 3 := by decide
  have : before.usedSlots = 3 := by simpa [hbefore] using hthree
  omega

/-- A Worker that counts fewer than no slots is not loaded, and stays wrong. -/
theorem slot_repair_overdrawn :
    (Reconcile.run 0 (idleDb (-1))).toOption.map
        (fun p => ((p.2.machines.get 0).map Machine.usedSlots, occupancy 0 p.2))
      = some (some (-1), 0) := by
  decide

end EraInfra
