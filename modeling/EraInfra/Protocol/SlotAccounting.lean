import EraInfra.Protocol.SlotRepair

/-!
# Slot accounting over whole runs

`Slots` says what single edits do to a Worker's count and `SlotRepair` what a pass of the reconciler
does.  Together they cover every call of the protocol (`perform_balanced`), so the count is right in
every state a deployment without legacy jobs reaches (`slots_accounted`).
-/

namespace EraInfra

open DocStore List Option

variable {js : Engine} {c : Call} {now : ℤ} {db db' : Db} {m : DocId Machine}

/-! ## A pass of the reconciler -/

/-- Every release of a pass finds the slot it gives back. -/
lemma reconcile_releases {r : ReconcileResult} (h : Reconcile.run now db = .ok (r, db'))
    (hb : Balanced db) :
    (∀ x ∈ db'.slotReleases, 1 ≤ x.found) ∧ ∀ i, db'.jobs.get i = none := by
  obtain ⟨swept, s, hcovered, -, hjobs, -, hreleases, hwork, -⟩ :=
    reconcile_repairs (fun s => Covered s.db) (fun i a s s' hfound hget hactive hbeats hs hc => by
      rcases sweepAttempt_cases hfound hactive hbeats
        (fun m hm => loadMachines_of_attempt hget hactive hm) hs with
        ⟨hsame, -⟩ | ⟨f, released, dropped, hedits, hrule, -, -⟩
      · rw [hsame]
        exact hc
      · exact hedits.covered hrule (by simp) hc)
      (by
        have hnone : ∀ status, jobsWith status db = [] := fun status =>
          Table.collect_eq_nil fun i job hget => by simp [hb.jobs i] at hget
        simp only [sweepJobs, hnone]
        exact ⟨hb.covered.slots, hb.releases⟩) h
  refine ⟨?_, fun i => ?_⟩
  · rw [show db'.slotReleases = s.db.slotReleases from congrArg (fun w => w.2.2.2) hwork, hreleases]
    exact hcovered.releases
  rw [show db'.jobs = s.db.jobs from congrArg Prod.fst hwork]
  by_contra hne
  obtain ⟨job, hjob⟩ := ne_none_iff_exists'.mp hne
  obtain ⟨before, hbefore, -⟩ := hjobs _ (fun _ _ _ _ => rfl) i job hjob rfl
  simp [hb.jobs i] at hbefore

lemma reconcile_balanced {r : ReconcileResult} (h : Reconcile.run now db = .ok (r, db'))
    (hb : Balanced db) : Balanced db' := by
  obtain ⟨hreleases, hjobs⟩ := reconcile_releases h hb
  refine ⟨fun m => ?_, hreleases, hjobs⟩
  obtain ⟨hloaded, hothers, hfree⟩ := reconcile_slots h m
  have hslots := hb.slots m
  cases hfind : (loadMachines db).find m with
  | some machine =>
    obtain ⟨current, hcurrent, hcount⟩ := hloaded machine hfind
    rw [usedSlotsOf, hcurrent]
    exact hcount
  | none =>
    -- a Worker that was not loaded was free, and still is
    have hzero : occupancy m db = 0 := by
      by_contra hne
      have hget := loadMachines_of_referenced (referenced_of_occupied hne)
      rw [hfind] at hget
      rw [usedSlotsOf, ← hget] at hslots
      simp only [map_none, getD_none] at hslots
      omega
    rw [hfree hzero, usedSlotsOf, hothers hfind]
    rw [hzero] at hslots
    exact hslots

/-! ## Every call -/

/-- **Every call keeps count and work in step.** -/
theorem perform_balanced (h : perform js c db = .ok db') (hb : Balanced db) : Balanced db' := by
  cases perform_effect h with
  | one htry hreconcile hone => exact hone.balanced htry hreconcile hb
  | passed htry hreconcile hinv _ =>
    exact hinv Balanced ⟨fun _ _ _ _ _ _ _ he hrule => he.balanced hrule htry hreconcile,
        fun _ _ _ hused hb => hb.patchMachine hused,
        fun _ hb => ⟨hb.slots, hb.releases, hb.jobs⟩⟩ hb
  | created args _ hcreated => exact createAttempt_balanced hcreated hb
  | joined tokens machine _ hused => exact balanced_insertMachine hused hb
  | placed n _ hplaced => exact tryAssign_balanced hplaced hb
  | requested e _ he => exact balanced_insertExperiment he hb
  | experiment _ he => exact he.balanced hb
  | reconciled r _ hrun => exact reconcile_balanced hrun hb

/-! ## Every run -/

lemma balanced_empty : Balanced .empty := by
  refine ⟨fun m => ?_, fun x hx => ?_, fun i => rfl⟩
  · simp [usedSlotsOf, occupancy, Db.empty]
  · simp [Db.empty] at hx

lemma Balanced.step (hb : Balanced db) (c : Call) : Balanced (step js db c) :=
  commit_rule (P := Balanced) hb fun _ h => perform_balanced h hb

lemma balanced_after (js : Engine) (calls : List Call) : Balanced (after js calls) :=
  run_invariant (fun _ db => Balanced db) balanced_empty (fun _ c hb => hb.step c) calls

/-- **Slots are accounted for.**  In every state a run reaches, each Worker's `usedSlots` is the
number of its Attempts in `pending`, `preparing`, `ready` or `running` plus the number of its
Experiments in `queued`, `preparing` or `running`; and no release so far has found a Worker with
no slot in use, so that the lower bound of zero has never hidden a double release. -/
theorem slots_accounted (js : Engine) (calls : List Call) :
    (∀ m machine, (after js calls).machines.get m = some machine →
      machine.usedSlots =
        (after js calls).attempts.count (fun a => a.machineId = some m &&
          (a.state = .pending || a.state = .preparing || a.state = .ready || a.state = .running)) +
        (after js calls).experiments.count (fun e => e.machineId = some m &&
          (e.state = .queued || e.state = .preparing || e.state = .running))) ∧
    ∀ x ∈ (after js calls).slotReleases, 1 ≤ x.found := by
  have hb := balanced_after js calls
  refine ⟨fun m machine hm => ?_, hb.releases⟩
  have hattempt : (fun a : Attempt => decide (a.machineId = some m) && (decide (a.state = .pending) ||
      decide (a.state = .preparing) || decide (a.state = .ready) || decide (a.state = .running)))
      = Attempt.occupies m := by
    funext a
    cases hs : a.state <;> simp [Attempt.occupies, AttemptState.isTerminal, hs]
  have hexperiment : (fun e : Experiment => decide (e.machineId = some m) &&
      (decide (e.state = .queued) || decide (e.state = .preparing) || decide (e.state = .running)))
      = Experiment.occupies m := by
    funext e
    cases hs : e.state <;> simp [Experiment.occupies, ExperimentState.isTerminal, hs]
  have hjobs : (after js calls).jobs.count (Job.occupies m) = 0 :=
    Table.count_eq_zero fun i job hget => by simp [hb.jobs i] at hget
  have hslots := hb.slots m
  simp only [usedSlotsOf, hm, map_some, getD_some, occupancy, hjobs] at hslots
  rw [hattempt, hexperiment, hslots]
  push_cast
  ring

end EraInfra
