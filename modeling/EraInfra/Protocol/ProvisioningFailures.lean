import EraInfra.Protocol.JobRuns
import EraInfra.Protocol.SlotRepair

/-!
# Failures of an attempt

The action that asks GitHub for a JIT config captures its command and its job, and may come back
after both have moved on.  `failAttempt` looks the command up again and takes the job it belongs to
now.  While the command is there that is right (`provisioning_failure_isolated`): an assigned job
has one command, so the failure of that command is the failure of the job's current attempt.

When the command is gone, `failAttempt` falls back to the captured job.  `late_failure` is a run in
which that job has been assigned again: the failure of the discarded command takes the slot and the
assignment from the job, and its new command goes on without them.
-/

namespace EraInfra

open DocStore List Option

variable {js : Engine} {now : ℤ} {db db' : Db} {k : DocId Command} {c : Command} {job : Job}

/-- The calls that may report that the attempt of command `k` failed. -/
def JobOp.mayFail (k : DocId Command) : JobOp → Prop
  | .failAttempt commandId _ _ => commandId = some k
  | .report _ commandId _ => commandId = k
  | _ => False

/-- All that a call changed is the job whose only command, and current assignment, is `k`, and that
command's Worker. -/
structure FailsOwner (k : DocId Command) (db db' : Db) (c : Command) (job : Job) : Prop where
  command : db.commands.get k = some c
  owner : db.jobs.get c.jobId = some job
  assigned : job.status = .assigned
  current : isAssignmentOf job c = true
  only : ∀ k' c', db.commands.get k' = some c' → c'.jobId = c.jobId → k' = k
  jobs : ∀ j, j ≠ c.jobId → db'.jobs.get j = db.jobs.get j
  machines : ∀ m, m ≠ c.machineId → db'.machines.get m = db.machines.get m

/-- A failure of command `k` changes no job and no Worker, or only its owner's. -/
def FailsOnly (k : DocId Command) (db db' : Db) : Prop :=
  db'.jobs = db.jobs ∧ db'.machines = db.machines ∨ ∃ c job, FailsOwner k db db' c job

lemma FailsOnly.refl (k : DocId Command) (db : Db) : FailsOnly k db db := .inl ⟨rfl, rfl⟩

lemma jobSide_discardCommand (now : ℤ) (k : DocId Command) (command : Command) (job : Option Job) (db : Db) :
    (discardCommand now k command job db).jobSide = db.jobSide :=
  view_enqueueRunnerDeletion Db.jobSide fun _ _ => rfl

lemma machines_releaseJobSlot {m m' : DocId Machine} (h : m' ≠ m) (db : Db) :
    (releaseJobSlot (some m) db).machines.get m' = db.machines.get m' := by
  unfold releaseJobSlot
  dsimp only
  split
  · rfl
  · exact Table.get_patch_ne h

/-- With its command there, a failure acts on the command's owner. -/
lemma failAttempt_failsOnly (ht : Tidy db.board) (hk : db.commands.get k = some c)
    (jobId : DocId Job) (error : String) :
    FailsOnly k db (failAttempt now (some k) jobId error db) := by
  rcases failAttempt_cases now (some k) jobId error db with
    ⟨hgone, -⟩ | ⟨k', c', hk', hc', hcases⟩
  · simp [hk] at hgone
  cases hk'
  cases hk.symm.trans hc'
  rcases hcases with ⟨-, heq⟩ | ⟨job, machineId, hj, hassigned, hmachine, heq⟩
  · have hside := jobSide_discardCommand now k c (db.jobs.get c.jobId) db
    rw [heq]
    exact .inl ⟨congrArg Prod.fst hside, congrArg Prod.snd hside⟩
  have hcurrent := ht.assigned k c job hk hj hassigned
  have hplaced : job.machineId = some c.machineId := by
    simp only [isAssignmentOf, Bool.and_eq_true, decide_eq_true_eq] at hcurrent
    exact hcurrent.2
  obtain rfl : machineId = some c.machineId := by
    rw [hmachine, hplaced]
    rfl
  have hside := jobSide_discardCommand now k c (some job) db
  refine .inr ⟨c, job, hk, hj, hassigned, hcurrent, fun k' c' hk' hc' =>
    ht.single k k' c c' job hk hk' hc' hj hassigned, fun j hne => ?_, fun m hne => ?_⟩
  · obtain ⟨job', hboard, -⟩ := board_failed now k error (some c.machineId) hj
    rw [heq, ← job_board, hboard]
    simp [hne]
  · rw [heq, machines_settleFailedJob, machines_releaseJobSlot hne]
    exact congrArg (fun side => side.2.get m) hside

/-- **A failure only affects the attempt it belongs to.**  In every run in which each `failAttempt`
finds its command, or a job that is not assigned, and each pass of the reconciler deletes the
finished commands of assigned jobs: a call that reports the failure of command `k` changes no
job and no Worker, or the one assigned job whose current assignment is `k` and which has no
other command, and that command's Worker. -/
theorem provisioning_failure_isolated (js : Engine) (calls : List JobCall) (call : JobCall)
    (k : DocId Command)
    (hcalls : Meets (stepJob js) .empty (fun db c => c.Isolated db) (calls ++ [call]))
    (hop : call.op.mayFail k) :
    FailsOnly k (afterJobs js calls) (stepJob js (afterJobs js calls) call) := by
  obtain ⟨hcalls, hcall⟩ := meets_snoc.mp hcalls
  have ht := tidy_after hcalls
  refine commit_rule (P := FailsOnly k (afterJobs js calls)) (.refl k _) fun db' h => ?_
  obtain ⟨now, op⟩ := call
  cases op with
  | failAttempt commandId jobId error =>
    obtain rfl : commandId = some k := hop
    cases h
    rcases failAttempt_cases now (some k) jobId error (afterJobs js calls) with
      ⟨hgone, ⟨-, heq⟩ | ⟨job, hj, hassigned, -⟩⟩ | ⟨_, c, hk', hk, -⟩
    · rw [heq]
      exact .refl k _
    · rcases hcall with hsome | hnot
      · rw [show run (stepJob js) .empty calls = afterJobs js calls from rfl, hgone] at hsome
        simp at hsome
      · exact absurd hassigned (hnot job hj)
    · cases hk'
      exact failAttempt_failsOnly ht hk jobId error
  | report token commandId exitCode =>
    obtain rfl : commandId = k := hop
    obtain ⟨r, hr⟩ := map_snd_ok.mp h
    rcases report_cases hr with rfl | ⟨c, error, hk, rfl⟩ | rfl
    · exact .refl _ _
    · exact failAttempt_failsOnly ht hk c.jobId error
    · exact .inl ⟨rfl, rfl⟩
  | _ => exact hop.elim

/-- GitHub answers the first assignment's action with an error. -/
theorem provisioning_failure_isolated_first :
    FailsOnly 0 (afterJobs asciiEngine assignedCalls) (stepJob asciiEngine
      (afterJobs asciiEngine assignedCalls) ⟨0, .failAttempt (some 0) 0 "GitHub responded 500"⟩) := by
  refine provisioning_failure_isolated asciiEngine assignedCalls _ 0 ?_ rfl
  refine meets_snoc.mpr ⟨?_, .inl ?_⟩
  · simp only [assignedCalls, joinedCalls, cons_append, nil_append, meets_cons]
    exact ⟨trivial, trivial, trivial, trivial, meets_nil⟩
  · decide

/-- A job is assigned; its Worker falls silent, so that the command is discarded and the job goes back
to the queue; the Worker reports again, and the job is assigned to it a second time. -/
def reassignedCalls : List JobCall := assignedCalls ++
    [⟨180000, .attempt .reconcile⟩,
      ⟨200000, .attempt (.heartbeat "secret")⟩,
      ⟨200000, .assignJobs⟩]

/-- Then GitHub's answer for the first command arrives.  The job's current assignment is the second
command, and still the failure of the first one puts the job back in the queue and frees the
slot; the second command stays. -/
theorem late_failure :
    let before := afterJobs asciiEngine reassignedCalls
    let after := stepJob asciiEngine before
      ⟨200000, .failAttempt (some 0) 0 "GitHub responded 500"⟩
    (before.commands.get 0 = none ∧
      (before.jobs.get 0).map (fun job => (job.status, job.runnerName))
        = some (.assigned, some "rc-worker-1-2") ∧
      (before.commands.get 1).map (fun c => (c.jobId, c.runnerName)) = some (0, "rc-worker-1-2") ∧
      (before.machines.get 0).map Machine.usedSlots = some 1) ∧
    (after.jobs.get 0).map (fun job => (job.status, job.runnerName)) = some (.queued, none) ∧
      (after.commands.get 1).map (fun c => (c.jobId, c.runnerName)) = some (0, "rc-worker-1-2") ∧
      (after.machines.get 0).map Machine.usedSlots = some 0 := by
  decide

end EraInfra
