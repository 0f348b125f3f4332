import EraInfra.Backend.ControllerApi
import EraInfra.Backend.Jobs

/-!
# The reconciler

`reconcile.ts`, the minute cron.  It recovers work whose Worker went silent, expires what waited
too long, deletes what is past its retention, and last repairs every Worker's `usedSlots` from the
work that is active then.

The source is one long function over local variables; here each of its loops is a definition, in
the source's order, and the locals the loops share are a `Sweep`.  `machineSlots` is the local copy
of `usedSlots` that the repair compares with.
-/

namespace EraInfra

open DocStore

/-! ## Constants -/

def assignmentStuckMs : ℤ := 45 * 60000
def runningAbandonedMs : ℤ := 10 * 60000
def queueExpiredMs : ℤ := 24 * 60 * 60000
def registrationTokenRetentionMs : ℤ := 60 * 60000
def finishedJobRetentionMs : ℤ := 30 * 24 * 60 * 60000
def terminalWorkRetentionMs : ℤ := finishedJobRetentionMs
def deliveryRetentionMs : ℤ := 7 * 24 * 60 * 60000
def recoveryRetentionMs : ℤ := deliveryRetentionMs

def activeExperimentStates : List ExperimentState := [.queued, .preparing, .running]
def activeCommandStates : List CommandStatus := [.pending, .claimed, .cancelled]
def terminalAttemptStates : List AttemptState := [.completed, .cancelled, .failed]
def terminalExperimentStates : List ExperimentState := [.completed, .cancelled, .failed]

/-! ## Loading -/

/-- The rows of an index range on a time, earliest first, at most `n` of them. -/
def takeEarliest {α : Type} (key : α → ℤ) (n : ℕ) (rows : List (DocId α × α)) : List (DocId α × α) :=
  (rows.insertionSort fun a b => key a.2 ≤ key b.2).take n

/-- The Attempts that have not ended. -/
def activeAttempts (db : Db) : List (DocId Attempt × Attempt) :=
  db.attempts.collectBy Attempt.state activeAttemptStates

/-- The Experiments that have not ended. -/
def activeExperiments (db : Db) : List (DocId Experiment × Experiment) :=
  db.experiments.collectBy Experiment.state activeExperimentStates

/-- The commands that no Worker has answered yet. -/
def activeCommands (db : Db) : List (DocId Command × Command) :=
  db.commands.collectBy Command.status activeCommandStates

def jobsWith (status : JobStatus) (db : Db) : List (DocId Job × Job) :=
  db.jobs.collect fun job => job.status = status

/-- The Workers some active work names. -/
def referencedMachineIds (db : Db) : List (DocId Machine) :=
  (jobsWith .assigned db ++ jobsWith .running db ++ jobsWith .queued db).filterMap
      (fun r => r.2.machineId) ++
    (activeAttempts db).filterMap (fun r => r.2.machineId) ++
    (activeExperiments db).filterMap (fun r => r.2.machineId)

/-- Those Workers, and the ones that count slots as used. -/
def loadMachines (db : Db) : OrderedMap (DocId Machine) Machine := OrderedMap.ofList
    (((referencedMachineIds db).dedup.filterMap fun machineId =>
        (db.machines.get machineId).map fun machine => (machineId, machine)) ++
      db.machines.collect fun machine => machine.usedSlots > 0)

/-- The locals the recovery loops share. -/
structure Sweep where
  db : Db
  machineSlots : OrderedMap (DocId Machine) ℤ
  requeued : ℕ
  abandoned : ℕ
  expired : ℕ

/-- What the loops read and do not change: the time, the Workers as they were loaded, and the
active commands of each job. -/
structure SweepContext where
  now : ℤ
  machinesById : OrderedMap (DocId Machine) Machine
  commands : List (DocId Command × Command)

/-- A Worker as it was loaded. -/
def SweepContext.machineOf (ctx : SweepContext) (machineId : Option (DocId Machine)) :
    Option Machine :=
  machineId.bind ctx.machinesById.find

/-- The active commands of a job, as they were loaded. -/
def SweepContext.commandsOf (ctx : SweepContext) (jobId : DocId Job) : List (DocId Command × Command) :=
  ctx.commands.filter fun r => r.2.jobId = jobId

/-- Whether a Worker has been silent for longer than `limit`; one that was not found has. -/
def silentFor (machine : Option Machine) (now limit : ℤ) : Bool :=
  match machine with
  | none => true
  | some machine => now - machine.lastSeen > limit

/-- Take a slot off a Worker, in the database and in the local copy. -/
def Sweep.releaseSlot (s : Sweep) (machineId : Option (DocId Machine)) (machine : Option Machine) :
    Sweep :=
  match machineId, machine with
  | some machineId, some machine =>
    let usedSlots := max 0 ((s.machineSlots.find machineId).getD machine.usedSlots - 1)
    { s with
      db := s.db.patchMachine machineId fun stored => { stored with usedSlots := usedSlots }
      machineSlots := s.machineSlots.set machineId usedSlots }
  | _, _ => s

/-! ## Jobs -/

/-- When the newest of a job's current commands was claimed, or created; 0 without one. -/
def assignmentStartedAt (commands : List (DocId Command × Command)) : ℤ :=
  commands.foldl (fun latest r => max latest (r.2.claimedAt.getD r.2.creationTime)) 0

/-- An assigned job whose Worker is gone or whose provisioning is stuck goes back to the queue, or
fails when its attempts are used up. -/
def sweepAssignedJob (ctx : SweepContext) (s : Sweep) (r : DocId Job × Job) : Sweep :=
  let machine := ctx.machineOf r.2.machineId
  let agentOffline := silentFor machine ctx.now workerOfflineAfterMs
  let commands := ctx.commandsOf r.1
  let startedAt := assignmentStartedAt (commands.filter fun c => isAssignmentOf r.2 c.2)
  let assignmentStuck := startedAt > 0 && ctx.now - startedAt > assignmentStuckMs
  if !agentOffline && !assignmentStuck then s
  else
    let name := (machine.map Machine.name).getD "the assigned machine"
    let minutes := assignmentStuckMs / 60000
    let reason :=
      if agentOffline then s!"Agent for {name} stopped reporting"
      else s!"Provisioning did not start within {minutes} minutes"
    let discarded := { s with db := discardCommands ctx.now commands (some r.2) s.db }
    let released := discarded.releaseSlot r.2.machineId machine
    let settled :=
      { released with db := settleFailedJob ctx.now r.1 r.2 reason r.2.machineId released.db }
    match decideAttemptOutcome (r.2.attempts.getD 1) ctx.now reason with
    | .exhausted _ => settled
    | .retry _ _ => { settled with requeued := settled.requeued + 1 }

/-- The commands of a job whose Worker vanished mid-job: finished, and handed back to GitHub. -/
def abandonCommands (now : ℤ) (job : Job) (commands : List (DocId Command × Command)) (db : Db) :
    Db :=
  commands.foldl (fun db r =>
    let finished :=
      if r.2.status ≠ .finished then
        db.patchCommand r.1 fun stored => { stored with status := .finished }
      else db
    enqueueRunnerDeletion now r.2 (some job) finished) db

section Frame

variable {α : Type} (view : Db → α)

lemma view_abandonCommands {now : ℤ} {job : Job} {commands : List (DocId Command × Command)} {db : Db}
    (h : ∀ db commands deletions,
      view { db with commands := commands, runnerDeletions := deletions } = view db) :
    view (abandonCommands now job commands db) = view db := by
  refine foldl_frame view (fun db r => ?_) commands db
  rw [view_enqueueRunnerDeletion view fun db => h db db.commands]
  split
  · exact h db _ _
  · rfl

lemma view_releaseSlot (h : ∀ db machines, view { db with machines := machines } = view db)
    (s : Sweep) (machineId : Option (DocId Machine)) (machine : Option Machine) :
    view (s.releaseSlot machineId machine).db = view s.db := by
  unfold Sweep.releaseSlot
  split
  · exact h _ _
  · rfl

end Frame

variable (ctx : SweepContext) (now : ℤ)

/-- A running job whose Worker vanished fails. -/
def sweepRunningJob (s : Sweep) (r : DocId Job × Job) : Sweep :=
  let machine := ctx.machineOf r.2.machineId
  if !silentFor machine ctx.now runningAbandonedMs then s
  else
    let failed := s.db.patchJob r.1 fun stored =>
      { stored with
        status := .failed
        conclusion := some "abandoned"
        finishedAt := some ctx.now }
    let abandoned := { s with db := abandonCommands ctx.now r.2 (ctx.commandsOf r.1) failed }
    let released := abandoned.releaseSlot r.2.machineId machine
    { released with abandoned := released.abandoned + 1 }

/-- A job nothing could take for a day expires. -/
def sweepQueuedJob (s : Sweep) (r : DocId Job × Job) : Sweep :=
  if ctx.now - r.2.queuedAt ≤ queueExpiredMs then s
  else
    { s with
      db := s.db.patchJob r.1 fun stored =>
        { stored with
          status := .failed
          conclusion := some "expired"
          finishedAt := some ctx.now
          nextAttemptAt := none }
      expired := s.expired + 1 }

/-! ## Attempts -/

/-- The row of an Attempt no Worker could take for a day. -/
def expiredAttempt (stored : Attempt) : Attempt := { stored with
    state := .cancelled
    jitConfig := none
    cancelReason := some "No compatible Worker became ready within 24 hours"
    finishedAt := some now
    runnerCleanupPending := some true }

/-- The row of an unclaimed Attempt taken off a silent Worker. -/
def unplacedAttempt (stored : Attempt) : Attempt := { stored with machineId := none }

/-- An Attempt without a Worker expires after a day. -/
def expireAttempt (s : Sweep) (r : DocId Attempt × Attempt) : Result Sweep :=
  if ctx.now - r.2.createdAt > queueExpiredMs then do
    let db ← deleteAttemptSecret r.1 s.db
    pure { s with db := db.patchAttempt r.1 (expiredAttempt ctx.now), expired := s.expired + 1 }
  else pure s

/-- A retiring Attempt is called off when its Worker reports again, and ended when nothing can
settle it any more. -/
def sweepRetiring (s : Sweep) (r : DocId Attempt × Attempt)
    (machineId : DocId Machine) (machine : Option Machine) : Result Sweep :=
  let (kept, keptDb) := keepForReturningWorker r.1 r.2 s.db
  if (machine.map (workerReports · ctx.now)).getD false && kept then
    pure { s with db := keptDb }
  else if retirementBackstopDue r.2 machine ctx.now s.db then do
    let db ← finishRetirement ctx.now r.1 r.2 true s.db
    let machineSlots := match machine, db.machines.get machineId with
      | some _, some current => s.machineSlots.set machineId current.usedSlots
      | _, _ => s.machineSlots
    pure { s with db := db, machineSlots := machineSlots, abandoned := s.abandoned + 1 }
  else pure s

/-- Why an Attempt that is not retiring has to be retired, if it has to. -/
def abandonReason (attempt : Attempt) (machine : Option Machine) :
    Option String :=
  let idle := attempt.state = .preparing || attempt.state = .ready
  let stuckPreparing := idle && ctx.now - attempt.claimedAt.getD attempt.createdAt > assignmentStuckMs
  let abandonedRunning := attempt.state = .running && silentFor machine ctx.now runningAbandonedMs
  if (idle && silentFor machine ctx.now workerOfflineAfterMs) || stuckPreparing || abandonedRunning then
    some (if abandonedRunning then "Worker stopped reporting during the GitHub job"
      else if stuckPreparing then "Executor did not become usable within 45 minutes"
      else "Worker stopped reporting while preparing the runner")
  else none

/-- One Attempt of the recovery loop. -/
def sweepAttempt (s : Sweep) (r : DocId Attempt × Attempt) : Result Sweep :=
  match r.2.machineId with
  | none => expireAttempt ctx s r
  | some machineId =>
    let machine := ctx.machinesById.find machineId
    if r.2.state = .pending ∧ silentFor machine ctx.now workerOfflineAfterMs = true then
      pure { s with
        db := s.db.patchAttempt r.1 unplacedAttempt
        requeued := s.requeued + 1 }
    else if r.2.retirement.isSome then sweepRetiring ctx s r machineId machine
    else
      match abandonReason ctx r.2 machine with
      | none => pure s
      | some reason => do
          let (_, db) ← retireAttempt ctx.now r.1 r.2 .failed reason s.db
          pure { s with db := db, abandoned := s.abandoned + 1 }

/-! ## Experiments -/

/-- Why an Experiment on a Worker has failed, if it has. -/
def experimentFailure (experiment : Experiment) (machine : Option Machine) :
    Option String :=
  let stuckPreparing := experiment.state = .preparing &&
    ctx.now - experiment.claimedAt.getD experiment.createdAt > assignmentStuckMs
  let startedAt := experiment.startedAt.getD (experiment.claimedAt.getD experiment.createdAt)
  let exceededDeadline := experiment.state = .running &&
    ((ctx.now - startedAt : ℤ) : ℚ) > experiment.timeoutSeconds * 1000 + 5 * 60000
  let abandonedRunning := experiment.state = .running && silentFor machine ctx.now runningAbandonedMs
  if (experiment.state = .preparing && silentFor machine ctx.now workerOfflineAfterMs) ||
      stuckPreparing || exceededDeadline || abandonedRunning then
    some (if exceededDeadline then "Experiment exceeded its timeout without exiting"
      else if abandonedRunning then "Worker stopped reporting during the Experiment"
      else if stuckPreparing then "Experiment executor did not start within 45 minutes"
      else "Worker stopped reporting while preparing the Experiment")
  else none

/-- The row of an Experiment the reconciler gave up on. -/
def failedExperiment (error : String) (stored : Experiment) : Experiment :=
  { stored with state := .failed, finishedAt := some now, lastError := some error }

/-- The row of an unclaimed Experiment taken off a silent Worker. -/
def unplacedExperiment (stored : Experiment) : Experiment := { stored with machineId := none }

/-- One Experiment of the recovery loop. -/
def sweepExperiment (s : Sweep) (r : DocId Experiment × Experiment) : Sweep :=
  match r.2.machineId with
  | none =>
    if ctx.now - r.2.createdAt > queueExpiredMs then
      { s with
        db := s.db.patchExperiment r.1
          (failedExperiment ctx.now "No compatible Worker became ready within 24 hours")
        expired := s.expired + 1 }
    else s
  | some machineId =>
    let machine := ctx.machinesById.find machineId
    if r.2.state = .queued ∧ silentFor machine ctx.now workerOfflineAfterMs = true then
      { s with
        db := s.db.patchExperiment r.1 unplacedExperiment
        requeued := s.requeued + 1 }
    else
      match experimentFailure ctx r.2 machine with
      | none => s
      | some error =>
        { s with
          db := s.db.patchExperiment r.1 (failedExperiment ctx.now error)
          abandoned := s.abandoned + 1 }

/-! ## Retention -/

/-- Delete tokens that were used or have expired, two hundred of each at a time. -/
def purgeRegistrationTokens (db : Db) : Db :=
  let expired := takeEarliest RegistrationToken.createdAt 200
    (db.registrationTokens.collect fun row => row.createdAt ≤ now - registrationTokenRetentionMs)
  let used := takeEarliest (fun row => row.usedAt.getD 0) 200
    (db.registrationTokens.collect fun row => row.usedAt.getD 0 > 0)
  { db with
    registrationTokens := ((expired ++ used).map Prod.fst).dedup.foldl Table.delete
      db.registrationTokens }

/-- Delete settled deliveries that are past their retention. -/
def purgeDeliveries (db : Db) : Db := { db with
    webhookDeliveries := [DeliveryStatus.processed, .rejected, .failed].foldl (fun deliveries status =>
        (takeEarliest WebhookDelivery.receivedAt 200 (deliveries.collect fun row =>
            row.status = status && row.receivedAt ≤ now - deliveryRetentionMs)).foldl
          (fun deliveries r =>
            if now - r.2.settledAt.getD r.2.receivedAt ≥ deliveryRetentionMs then
              deliveries.delete r.1
            else deliveries) deliveries) db.webhookDeliveries }

/-- Delete the notes of recoveries that are over and past their retention. -/
def purgeRecovery (db : Db) : Db := { db with
    webhookRecovery := [RecoveryState.recovered, .abandoned].foldl (fun recovery state =>
        (takeEarliest WebhookRecovery.lastRequestedAt 200 (recovery.collect fun row =>
            row.state = state && row.lastRequestedAt ≤ now - recoveryRetentionMs)).foldl
          (fun recovery r =>
            if now - r.2.lastRequestedAt ≥ recoveryRetentionMs then recovery.delete r.1
            else recovery) recovery) db.webhookRecovery }

/-- The finished jobs of one status that are past their retention. -/
def staleJobs (status : JobStatus) (jobs : Table Job) : List (DocId Job × Job) :=
  (takeEarliest Job.queuedAt 100 (jobs.collect fun job =>
    job.status = status && job.queuedAt ≤ now - finishedJobRetentionMs)).filter fun r =>
      now - r.2.finishedAt.getD r.2.creationTime ≥ finishedJobRetentionMs

/-- Delete finished jobs that are past their retention. -/
def purgeJobs (db : Db) : Db := { db with
    jobs := [JobStatus.done, .failed].foldl (fun jobs status =>
      ((staleJobs now status jobs).map Prod.fst).foldl Table.delete jobs) db.jobs }

/-- The terminal Attempts of one state that are past their retention and owe GitHub nothing. -/
def staleAttempts (state : AttemptState) (db : Db) : List (DocId Attempt × Attempt) :=
  let finished := takeEarliest (fun attempt => attempt.finishedAt.getD 0) 100
    (db.attempts.collect fun attempt =>
      attempt.state = state && attempt.runnerCleanupPending = none &&
        match attempt.finishedAt with
        | none => false
        | some finishedAt => 0 < finishedAt && finishedAt ≤ now - terminalWorkRetentionMs)
  let legacyWithoutFinishedAt := (db.attempts.collect fun attempt =>
    attempt.state = state && attempt.runnerCleanupPending = none && attempt.finishedAt = none).take 100
  finished ++ legacyWithoutFinishedAt.filter fun r =>
    now - r.2.createdAt ≥ terminalWorkRetentionMs

/-- Delete an Attempt with the rows kept beside it. -/
def purgeAttempt (db : Db) (attemptId : DocId Attempt) : Result Db := do
  let db ← deleteAttemptSecret attemptId db
  let db ← deleteAttemptEgress attemptId db
  pure { db with attempts := db.attempts.delete attemptId }

/-- Delete terminal Attempts that are past their retention. -/
def purgeAttempts (db : Db) : Result Db := terminalAttemptStates.foldlM (fun db state =>
    ((staleAttempts now state db).map Prod.fst).foldlM purgeAttempt db) db

/-- The terminal Experiments of one state that are past their retention. -/
def staleExperiments (state : ExperimentState) (experiments : Table Experiment) :
    List (DocId Experiment × Experiment) :=
  let finished := takeEarliest (fun experiment => experiment.finishedAt.getD 0) 100
    (experiments.collect fun experiment =>
      experiment.state = state &&
        match experiment.finishedAt with
        | none => false
        | some finishedAt => 0 < finishedAt && finishedAt ≤ now - terminalWorkRetentionMs)
  let legacyWithoutFinishedAt := (experiments.collect fun experiment =>
    experiment.state = state && experiment.finishedAt = none).take 100
  finished ++ legacyWithoutFinishedAt.filter fun r =>
    now - r.2.createdAt ≥ terminalWorkRetentionMs

/-- Delete terminal Experiments that are past their retention. -/
def purgeExperiments (db : Db) : Db := { db with
    experiments := terminalExperimentStates.foldl (fun experiments state =>
      ((staleExperiments now state experiments).map Prod.fst).foldl Table.delete experiments)
      db.experiments }

/-! ## Slot repair -/

/-- The Workers of the work that is active now, once per piece of work. -/
def occupiedSlots (db : Db) : List (DocId Machine) :=
  (jobsWith .assigned db ++ jobsWith .running db).filterMap (fun r => r.2.machineId) ++
    (activeAttempts db).filterMap (fun r => r.2.machineId) ++
    (activeExperiments db).filterMap (fun r => r.2.machineId)

/-- Correct one Worker's count, if the local copy differs from what it should be. -/
def repairSlot (occupied : List (DocId Machine)) (s : Sweep × ℕ) (r : DocId Machine × Machine) :
    Sweep × ℕ :=
  let expectedSlots : ℤ := occupied.count r.1
  let currentSlots := (s.1.machineSlots.find r.1).getD r.2.usedSlots
  if currentSlots = expectedSlots then s
  else
    ({ s.1 with
        db := s.1.db.patchMachine r.1 fun stored => { stored with usedSlots := expectedSlots }
        machineSlots := s.1.machineSlots.set r.1 expectedSlots },
      s.2 + 1)

/-! ## Stalled deliveries -/

def maxDeliveryAttempts : ℕ := 5
def deliveryRetryAfterMs : ℤ := 60000

/-- When a pending delivery becomes eligible for its next retry. -/
def deliveryRetryDueAt (delivery : WebhookDelivery) : ℤ :=
  delivery.receivedAt + (delivery.attempts + 1) * deliveryRetryAfterMs

structure RetryTally where
  db : Db
  /-- The deliveries scheduled to be processed again. -/
  retried : List (DocId WebhookDelivery)
  abandoned : ℕ

/-- Schedule a delivery that is due again, or give it up. -/
def retryDelivery (s : RetryTally) (r : DocId WebhookDelivery × WebhookDelivery) :
    RetryTally :=
  if now < deliveryRetryDueAt r.2 then s
  else
    let attempts := r.2.attempts + 1
    if attempts ≥ maxDeliveryAttempts then
      { s with
        db := { s.db with
          webhookDeliveries := s.db.webhookDeliveries.patch r.1 fun stored =>
            { stored with
              status := .failed
              attempts := attempts
              lastError := some s!"Gave up after {attempts} attempts"
              settledAt := some now } }
        abandoned := s.abandoned + 1 }
    else
      { s with
        db := { s.db with
          webhookDeliveries := s.db.webhookDeliveries.patch r.1 fun stored =>
            { stored with attempts := attempts } }
        retried := s.retried ++ [r.1] }

/-- Retry deliveries that never settled, fifty at a time. -/
def retryStalledDeliveries (db : Db) : RetryTally :=
  ((db.webhookDeliveries.collect fun row => row.status = .pending).take 50).foldl
    (retryDelivery now) ⟨db, [], 0⟩

/-! ## The whole pass -/

structure ReconcileResult where
  requeued : ℕ
  abandoned : ℕ
  expired : ℕ
  slotsRepaired : ℕ
  deliveriesRetried : ℕ

/-- The oldest finished commands, which the pass deletes first. -/
def finishedCommands (db : Db) : List (DocId Command × Command) :=
  (db.commands.collect fun command => command.status = .finished).take 200

/-- The three job loops. -/
def sweepJobs (loaded : Db) (s : Sweep) : Sweep :=
  let s := (jobsWith .assigned loaded).foldl (sweepAssignedJob ctx) s
  let s := (jobsWith .running loaded).foldl (sweepRunningJob ctx) s
  (jobsWith .queued loaded).foldl (sweepQueuedJob ctx) s

/-- All recovery loops, over the rows loaded at the start. -/
def recover (loaded : Db) (s : Sweep) : Result Sweep := do
  let s ← (activeAttempts loaded).foldlM (sweepAttempt ctx) (sweepJobs ctx loaded s)
  pure ((activeExperiments loaded).foldl (sweepExperiment ctx) s)

/-- All retention deletes. -/
def purge (db : Db) : Result Db := do
  let db := purgeJobs now (purgeRecovery now (purgeDeliveries now (purgeRegistrationTokens now db)))
  let db ← purgeAttempts now db
  pure (purgeExperiments now db)

/-- What a pass reads before it changes anything. -/
def sweepContext (db : Db) : SweepContext := ⟨now, loadMachines db, activeCommands db⟩

/-- The locals when the recovery loops start; finished commands are gone by then. -/
def initialSweep (db : Db) : Sweep where
  db := { db with
    commands := ((finishedCommands db).map Prod.fst).foldl Table.delete db.commands }
  machineSlots := (loadMachines db).map fun r => (r.1, r.2.usedSlots)
  requeued := 0
  abandoned := 0
  expired := 0

/-- One pass of the reconciler. -/
def Reconcile.run (db : Db) : Result (ReconcileResult × Db) := do
  let swept ← recover (sweepContext now db) db (initialSweep db)
  let purged ← purge now swept.db
  let (repaired, slotsRepaired) := (loadMachines db).foldl (repairSlot (occupiedSlots purged))
    ({ swept with db := purged }, 0)
  let deliveries := retryStalledDeliveries now repaired.db
  pure (⟨swept.requeued, swept.abandoned, swept.expired, slotsRepaired, deliveries.retried.length⟩,
    deliveries.db)

end EraInfra
