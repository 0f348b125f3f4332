import EraInfra.Backend.AttemptScheduler

/-!
# Ending an Attempt

`attemptSecrets.ts`, `attemptRetirement.ts` and `pinnedAttempts.ts`: how an Attempt whose GitHub
Runner may be online is brought to its end — GitHub first, the executor last.

`retireAttempt` only records the intent.  The Attempt keeps its state and its slot, and
`runnerCleanupPending` puts its Runner on the controller's list of Runners to delete.  From there
`finishRetirement` ends it when the delete is confirmed (or can no longer be), `keepForJob` calls
the retirement off when GitHub handed the Runner a job first, and `keepForReturningWorker` when a
silent Worker reports again.  An Attempt no Agent has claimed is cancelled at once
(`cancelUnclaimedAttempt`).

An operation that reads a row first takes the identifier and the row it read, as the source passes
a document.
-/

namespace EraInfra

open DocStore

/-! ## The rows kept beside an Attempt -/

variable (js : Engine) (now : ℤ) (attemptId : DocId Attempt) (attempt : Attempt) (reason : String)
  (stored : Attempt)

def deleteAttemptSecret (db : Db) : Result Db := do
  match ← db.attemptSecrets.unique (.notUnique "attemptSecrets")
      fun secret => secret.attemptId = attemptId with
  | none => pure db
  | some (secretId, _) => pure { db with attemptSecrets := db.attemptSecrets.delete secretId }

def deleteAttemptEgress (db : Db) : Result Db := do
  match ← db.attemptEgress.unique (.notUnique "attemptEgress")
      fun record => record.attemptId = attemptId with
  | none => pure db
  | some (recordId, _) => pure { db with attemptEgress := db.attemptEgress.delete recordId }

/-! ## Retirement -/

def AttemptState.text : AttemptState → String
  | .pending => "pending"
  | .preparing => "preparing"
  | .ready => "ready"
  | .running => "running"
  | .completed => "completed"
  | .cancelled => "cancelled"
  | .failed => "failed"

def RetirementOutcome.state : RetirementOutcome → AttemptState
  | .cancelled => .cancelled
  | .failed => .failed

/-- The states in which an Attempt's Runner may be registered and online with GitHub. -/
def runnerMayBeOnline (state : AttemptState) : Bool :=
  state = .preparing || state = .ready || state = .running

/-- Whether an Attempt waits for its Runner to be gone. -/
def isRetiring : Bool := attempt.retirement.isSome && runnerMayBeOnline attempt.state

/-- The row of an Attempt that begins to retire. -/
def retiringAttempt (outcome : RetirementOutcome) (reason : String) (stored : Attempt) :
    Attempt :=
  { stored with
    jitConfig := none
    runnerCleanupPending := some true
    retirement := some ⟨outcome, sliceTo reason 500, now⟩ }

/-- Ask the controller to delete the Attempt's Runner, and end the Attempt only once it has.  A
second request keeps the first reason and time.  Returns whether this call started it. -/
def retireAttempt (outcome : RetirementOutcome) (reason : String) (db : Db) : Result (Bool × Db) :=
  if !runnerMayBeOnline attempt.state then
    throw (.internal s!"retireAttempt on a {attempt.state.text} Attempt")
  else if attempt.retirement.isSome then pure (false, db)
  else do
    let db ← deleteAttemptSecret attemptId db
    pure (true, db.patchAttempt attemptId (retiringAttempt now outcome reason))

/-- How long a retirement waits to be settled before the reconciler may end the Attempt anyway. -/
def retirementUnconfirmedMs : ℤ := 6 * 60 * 60000

/-- Bounds the read of a Profile's controller reports. -/
def controllerReportLimit : ℕ := 50

/-- The cutoff every scheduling and reconciliation decision uses for a Worker being online. -/
def workerReports (machine : Machine) (now : ℤ) : Bool := now - machine.lastSeen ≤ workerOfflineAfterMs

/-- The controller reports of a Profile that a decision reads: the first fifty by host name. -/
def controllerReports (profile : String) (db : Db) : List ControllerHeartbeat :=
  (((db.controllerHeartbeats.collect fun row => row.report.profile = profile).map Prod.snd
    ).insertionSort fun a b => ¬ b.report.hostname < a.report.hostname).take controllerReportLimit

/-- Whether the reconciler ends a retirement nobody settled in time. -/
def retirementBackstopDue (machine : Option Machine) (now : ℤ) (db : Db) :
    Bool :=
  match attempt.retirement with
  | none => false
  | some retirement =>
    if now - retirement.requestedAt ≤ retirementUnconfirmedMs then false
    else if attempt.state = .running ∧ (machine.map (workerReports · now)).getD false = true then
      false
    else liveControllers (controllerReports attempt.profile db) now = 0

/-- The row of an Attempt whose retirement is called off. -/
def keptAttempt : Attempt := { stored with retirement := none, runnerCleanupPending := none }

/-- Call off the retirement of a running Attempt whose Worker reports again.  Returns whether there
was a retirement to call off. -/
def keepForReturningWorker (db : Db) : Bool × Db :=
  if attempt.state ≠ .running ∨ attempt.retirement = none then (false, db)
  else (true, db.patchAttempt attemptId keptAttempt)

/-- A Worker's first heartbeat after a silence: call off the retirement of each of its running
Attempts.  Returns how many. -/
def keepRunningAttemptsOfReturningWorker (machineId : DocId Machine) (db : Db) : ℕ × Db :=
  let running := db.attempts.collect fun attempt =>
    attempt.machineId = some machineId && attempt.state = .running
  running.foldl (fun s r =>
    let (kept, db) := keepForReturningWorker r.1 r.2 s.2
    (if kept then s.1 + 1 else s.1, db)) (0, db)

/-- The row of an Attempt that ended as its retirement asked. -/
def retiredAttempt (retirement : Retirement) (unconfirmed : Bool) (stored : Attempt) :
    Attempt :=
  let hours := retirementUnconfirmedMs / 3600000
  let reason :=
    if unconfirmed then
      s!"{retirement.reason} (no controller confirmed the Runner was deleted within " ++
        s!"{hours} hours)"
    else retirement.reason
  { stored with
    state := retirement.outcome.state
    jitConfig := none
    finishedAt := some now
    runnerCleanupPending := if unconfirmed then some true else none
    retirement := none
    cancelReason :=
      if retirement.outcome = .cancelled then some (sliceTo reason 500) else stored.cancelReason
    lastError :=
      if retirement.outcome = .cancelled then stored.lastError else some (sliceTo reason 500) }

/-- End a retiring Attempt as its retirement asked.  When nobody confirmed that the Runner was
deleted, the Runner is still owed a delete. -/
def finishRetirement (unconfirmed : Bool) (db : Db) : Result Db := do
  match attempt.retirement with
  | none => throw (.internal "finishRetirement on an Attempt not retiring")
  | some retirement =>
    let db ← deleteAttemptSecret attemptId (releaseAttemptSlot attempt db)
    pure (db.patchAttempt attemptId (retiredAttempt now retirement unconfirmed))

/-- The row of an Attempt cancelled before any Agent claimed it. -/
def cancelledAttempt : Attempt := { stored with
    state := .cancelled
    jitConfig := none
    cancelReason := some (sliceTo reason 500)
    finishedAt := some now
    runnerCleanupPending := some true }

/-- End an Attempt whose Agent has not claimed it: free its slot, drop its JIT config, and mark its
Runner for the controller to delete. -/
def cancelUnclaimedAttempt (db : Db) : Result Db := do
  if attempt.state ≠ .pending then
    throw (.internal s!"cancelUnclaimedAttempt on a {attempt.state.text} Attempt")
  let db ← deleteAttemptSecret attemptId (releaseAttemptSlot attempt db)
  pure (db.patchAttempt attemptId (cancelledAttempt now reason))

inductive IdleEnd
  | cancelled
  | retiring

/-- End an Attempt that has no job yet: an unclaimed one at once, a `preparing` or `ready` one once
GitHub has deleted its Runner. -/
def endIdleAttempt (db : Db) : Result (IdleEnd × Db) := do
  if attempt.state = .pending then
    let db ← cancelUnclaimedAttempt now attemptId attempt reason db
    return (.cancelled, db)
  let (_, db) ← retireAttempt now attemptId attempt .cancelled reason db
  pure (.retiring, db)

/-- GitHub handed a retiring Runner a job first: the job wins.  The part of the patch that goes
alongside the move to `running`. -/
def keepForJob (attempt stored : Attempt) : Attempt :=
  if attempt.retirement = none then stored
  else keptAttempt stored

/-! ## Attempts on Workers that lost a label -/

structure PinRetirement where
  requeued : ℕ
  retired : ℕ

def idleStates : List AttemptState := [.pending, .preparing, .ready]

/-- The row of an unclaimed Attempt taken off a Worker that lost its label. -/
def requeuedAttempt : Attempt := { stored with machineId := none, selectionReason := none }

/-- Take a pinned Profile's idle work off a Worker that no longer carries every label it is pinned
to: back to the queue when unclaimed, retired otherwise. -/
def retireIfOffPin
    (profile : Option Profile) (machine : Option Machine) (tally : PinRetirement) (db : Db) :
    Result (PinRetirement × Db) :=
  match profile, machine with
  | some profile, some machine => do
      let missing := missingHostLabels js profile.workerLabels machine.labels
      if missing.isEmpty then return (tally, db)
      if attempt.state = .pending then
        return ({ tally with requeued := tally.requeued + 1 },
          (releaseAttemptSlot attempt db).patchAttempt attemptId requeuedAttempt)
      let detail := missingHostLabelsDetail missing
      let reason := s!"Retired before it took a job. Worker {machine.name}: {detail}"
      let (started, db) ← retireAttempt now attemptId attempt .cancelled reason db
      pure (if started then { tally with retired := tally.retired + 1 } else tally, db)
  | _, _ => pure (tally, db)

/-- After a Worker's labels change: its idle Attempts whose Profile it no longer qualifies for.
The Profile is looked up once per name; the rows it reads do not change meanwhile. -/
def retireOffPinOnWorker (machineId : DocId Machine) (machine : Machine)
    (db : Db) : Result (PinRetirement × Db) :=
  idleStates.foldlM (fun s state =>
    (s.2.attempts.collect fun attempt =>
        attempt.machineId = some machineId && attempt.state = state).foldlM
      (fun s r => do
        let profile ← s.2.profiles.unique (.notUnique "profiles") fun profile =>
          profile.name = r.2.profile
        retireIfOffPin js now r.1 r.2 (profile.map Prod.snd) (some machine) s.1 s.2) s)
    (⟨0, 0⟩, db)

/-- After a Profile's pin changes: its idle Attempts on Workers that do not carry the new pin. -/
def retireOffPinForProfile (profile : Profile) (db : Db) : Result (PinRetirement × Db) :=
  if (profile.workerLabels.getD []).isEmpty then pure (⟨0, 0⟩, db)
  else
    idleStates.foldlM (fun s state =>
      (s.2.attempts.collect fun attempt =>
          attempt.profile = profile.name && attempt.state = state).foldlM
        (fun s r =>
          match r.2.machineId with
          | none => pure s
          | some machineId =>
            retireIfOffPin js now r.1 r.2 (some profile) (s.2.machines.get machineId) s.1 s.2) s)
      (⟨0, 0⟩, db)

end EraInfra
