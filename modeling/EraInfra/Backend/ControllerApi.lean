import EraInfra.Backend.AttemptRetirement
import EraInfra.Backend.ControllerLease

/-!
# What controllers call

`controllerApi.ts` and the label rules it enforces (`scaleSetLabels.ts`).  A controller publishes
its Profile, creates one Attempt per GitHub Runner it registers, relays GitHub's JobStarted and
JobCompleted messages, scales down with `cancelAttempt`, and deletes the Runners in
`listRunnerCleanups`, acknowledging each with `completeRunnerCleanup`.

Every function takes the caller its HTTP route resolved, and the lease check runs in the same
transaction as the read or write it guards; server code passes no caller and is not checked.
-/

namespace EraInfra

open DocStore

/-- The check of a route; a call without a caller is not checked. -/
def authorize (now : ℤ) (profile : String) (caller : Option ControllerCaller) (db : Db) :
    Result Unit :=
  match caller with
  | none => pure ()
  | some caller => do
      let _ ← authorizeController now profile caller db
      pure ()

/-- Refuse a Worker's controller on a route that changes a Profile. -/
def refuseMachineToken (caller : Option ControllerCaller) : Result Unit :=
  match caller with
  | none => pure ()
  | some caller => requireControllerToken caller

def AttemptState.isTerminal : AttemptState → Bool
  | .completed | .cancelled | .failed => true
  | .pending | .preparing | .ready | .running => false

def activeAttemptStates : List AttemptState := [.pending, .preparing, .ready, .running]

/-- The Attempt whose Runner has a name. -/
def attemptByRunnerName (runnerName : String) (db : Db) : Result (Option (DocId Attempt × Attempt)) :=
  db.attempts.unique (.notUnique "attempts") fun attempt => attempt.runnerName = runnerName

/-! ## Scale-set labels -/

section ScaleSetLabels

variable (js : Engine)

/-- The labels GitHub matches a Profile's scale set by: its configured labels, else its name. -/
def scaleSetLabels (profile : Profile) : List String :=
  let labels := profile.labels.getD []
  (if labels.isEmpty then [profile.scaleSetName] else labels).map js.toLowerCase

/-- Why one scale set could take the other's jobs, from `profile`'s side. -/
def scaleSetConflict (profile other : Profile) : Option String :=
  if other.name = profile.name then none
  else
    let taken := (scaleSetLabels js profile).find? fun label =>
      label = js.toLowerCase other.scaleSetName || label = js.toLowerCase other.name
    let theirs := scaleSetLabels js other
    match taken with
    | some taken =>
      some (s!"scale-set label {taken} is Profile {other.name}'s name; " ++
        "its jobs could run on this Profile instead (ADR 0017)")
    | none =>
      if theirs.contains (js.toLowerCase profile.scaleSetName) ||
          theirs.contains (js.toLowerCase profile.name) then
        some (s!"Profile {other.name}'s scale set also answers to {profile.name}; " ++
          "this Profile's jobs could run there instead (ADR 0017)")
      else none

structure LabelConflict where
  profile : String
  other : String
  reason : String

/-- The conflicts `profile` is part of, each phrased from its side. -/
def conflictsOf (profile : Profile) (profiles : List Profile) : List LabelConflict :=
  profiles.filterMap fun other =>
    (scaleSetConflict js profile other).map fun reason => ⟨profile.name, other.name, reason⟩

/-- The conflicts a registration would add to those the stored row already had. -/
def introducedLabelConflicts (existing : Option Profile) (value : Profile) (db : Db) :
    List LabelConflict :=
  let others := ((db.profiles.collect fun profile => profile.state = .active).map Prod.snd).filter
    fun other => other.name ≠ value.name
  let before : List String := match existing with
    | none => []
    | some existing =>
      if existing.state ≠ ProfileState.active then []
      else (conflictsOf js existing others).map LabelConflict.other
  (conflictsOf js value others).filter fun conflict => !before.contains conflict.other

end ScaleSetLabels

/-! ## Profiles -/

variable (now : ℤ) (profile : String) (caller : Option ControllerCaller)

structure RegisterProfileArgs where
  name : String
  scaleSetName : String
  executor : Executor
  imageRelease : String
  vcpus : ℕ
  memoryMiB : ℕ
  warmPool : Option ℕ
  fitPolicy : Option FitPolicy
  minRunners : ℕ
  maxRunners : ℕ
  egress : Option ProfileEgress
  githubConfigUrl : Option String
  githubCacheFacts : Option Bool
  runnerGroup : Option String
  labels : Option (List String)
  workerLabels : Option (List String)
  caller : Option ControllerCaller

/-- The row a registration stores.  A controller that predates the GitHub fields sends none, and
then what a newer one published is kept. -/
def registeredProfile (args : RegisterProfileArgs) (existing : Option Profile) : Profile where
  name := args.name
  scaleSetName := args.scaleSetName
  executor := args.executor
  imageRelease := args.imageRelease
  vcpus := args.vcpus
  memoryMiB := args.memoryMiB
  warmPool := some (args.warmPool.getD 0)
  fitPolicy := some (args.fitPolicy.getD .balanced)
  minRunners := args.minRunners
  maxRunners := args.maxRunners
  egress := match args.egress with
    | none => none
    | some egress => if egress.mode = .publicInternet then none else some egress
  githubConfigUrl := args.githubConfigUrl.orElse fun _ => existing.bind Profile.githubConfigUrl
  githubCacheFacts :=
    if args.githubConfigUrl = none then existing.bind Profile.githubCacheFacts
    else some (args.githubCacheFacts = some true)
  runnerGroup :=
    if args.githubConfigUrl = none then existing.bind Profile.runnerGroup else args.runnerGroup
  labels := if args.githubConfigUrl = none then existing.bind Profile.labels else args.labels
  workerLabels := if (args.workerLabels.getD []).isEmpty then none else args.workerLabels
  state := .active
  updatedAt := now

/-- `labels?.join(",")`. -/
def joinedLabels (labels : Option (List String)) : Option String := labels.map (String.intercalate ",")

/-- Insert a Profile's row, or write it over the existing one. -/
def storeProfile (existing : Option (DocId Profile × Profile)) (value : Profile) (db : Db) : Db :=
  match existing with
  | none => { db with profiles := db.profiles.insert value }
  | some (profileId, _) => { db with profiles := db.profiles.patch profileId fun _ => value }

inductive RegisterResult
  | registered
  | conflict (reason : String)

/-- Publish a Profile.  A registration that would add a label conflict is refused, not thrown, so
that the controller is told why. -/
def registerProfile (js : Engine) (now : ℤ) (args : RegisterProfileArgs) (db : Db) :
    Result (RegisterResult × Db) := do
  authorize now args.name args.caller db
  refuseMachineToken args.caller
  let existing ← profileFor db args.name
  let value := registeredProfile now args (existing.map Prod.snd)
  match introducedLabelConflicts js (existing.map Prod.snd) value db with
  | conflict :: _ => pure (.conflict conflict.reason, db)
  | [] => do
      let stored := storeProfile existing value db
      let pin := (existing.bind fun row => row.2.workerLabels)
      if joinedLabels pin ≠ joinedLabels value.workerLabels then
        let (_, retired) ← retireOffPinForProfile js now value stored
        return (.registered, retired)
      pure (.registered, stored)

/-- Take a retired scale set's Profile out of service. -/
def pauseProfile (name : String) (caller : Option ControllerCaller) (db : Db) : Result (Bool × Db) := do
  authorize now name caller db
  refuseMachineToken caller
  match ← profileFor db name with
  | none => pure (false, db)
  | some (profileId, profile) =>
    if profile.state ≠ .paused then
      return (true, { db with
        profiles := db.profiles.patch profileId fun stored =>
          { stored with state := .paused, updatedAt := now } })
    pure (true, db)

/-! ## Heartbeats -/

/-- The lease check of a controller's report: a holder's is a write like any other; a standby's
claims nothing. -/
def authorizeReport (report : HeartbeatReport) (caller : Option ControllerCaller)
    (db : Db) : Result Unit :=
  match caller with
  | none => pure ()
  | some caller =>
    match report.leaseRole with
    | some .holder => authorize now report.profile (some caller) db
    | some .standby => do
        if caller.epoch.isSome then authorize now report.profile (some caller) db
        authorizeStandbyReport report.profile caller db
    | none => authorize now report.profile (some caller) db

/-- Which machine sent a report, for a caller with a machine token. -/
def reportingMachine (db : Db) : Result (Option (DocId Machine × Machine)) :=
  match caller with
  | some (.machine token _) =>
    db.machines.unique (.notUnique "machines") fun machine => machine.token = token
  | _ => pure none

/-- Upsert one controller's report, keyed by Profile and reporter. -/
def recordHeartbeat (report : HeartbeatReport) (caller : Option ControllerCaller)
    (db : Db) : Result Db := do
  authorizeReport now report caller db
  let machine ← reportingMachine caller db
  let reporter := match machine with
    | none => s!"controller:{report.hostname}"
    | some (machineId, _) => s!"machine:{machineId}"
  let known ← db.controllerHeartbeats.unique (.notUnique "controllerHeartbeats") fun row =>
    row.report.profile = report.profile && row.reporter = some reporter
  -- a dedicated host's row from before the lease is reused once
  let unclaimed := (db.controllerHeartbeats.collect fun row =>
    row.report.profile = report.profile && row.report.hostname = report.hostname &&
      row.reporter = none).head?
  let existing := match known with
    | some row => some row
    | none => if machine.isNone then unclaimed else none
  let row (firstSeenAt : ℤ) : ControllerHeartbeat :=
    { report := report
      reporter := some reporter
      firstSeenAt := firstSeenAt
      receivedAt := now
      lastListeningAt :=
        if report.sessionState = .listening then some now
        else existing.bind fun row => row.2.lastListeningAt }
  let rows := match existing with
    | none => db.controllerHeartbeats.insert (row now)
    | some (rowId, _) =>
      db.controllerHeartbeats.patch rowId fun stored => row stored.firstSeenAt
  pure { db with controllerHeartbeats := rows }

/-! ## What the controller counts and what it deletes -/

structure ActiveAttempt where
  runnerName : String
  runnerId : ℕ
  state : AttemptState
  createdAt : ℤ

/-- The Attempts a controller counts as capacity: active and not retiring. -/
def listActiveAttempts (db : Db) : Result (List ActiveAttempt) := do
  authorize now profile caller db
  pure (activeAttemptStates.flatMap fun state =>
    ((db.attempts.collect fun attempt =>
        attempt.profile = profile && attempt.state = state).filter fun r => !isRetiring r.2).map
      fun r => ⟨r.2.runnerName, r.2.runnerId, state, r.2.createdAt⟩)

structure RunnerCleanup where
  runnerName : String
  runnerId : ℕ

/-- The Runners the controller must delete from GitHub. -/
def listRunnerCleanups (db : Db) : Result (List RunnerCleanup) := do
  authorize now profile caller db
  pure ((db.attempts.collect fun attempt =>
      attempt.profile = profile && attempt.runnerCleanupPending = some true).map
    fun r => ⟨r.2.runnerName, r.2.runnerId⟩)

structure CleanupArgs where
  profile : String
  runnerName : String
  runnerId : ℕ
  caller : Option ControllerCaller

/-- The row of an ended Attempt whose Runner is acknowledged to be gone. -/
def acknowledgedAttempt (stored : Attempt) : Attempt :=
  { stored with runnerCleanupPending := none, retirement := none }

/-- GitHub has confirmed that a Runner is gone. -/
def completeRunnerCleanup (args : CleanupArgs) (db : Db) : Result (Bool × Db) := do
  authorize now args.profile args.caller db
  match ← attemptByRunnerName args.runnerName db with
  | none => pure (false, db)
  | some (attemptId, attempt) =>
    if attempt.profile ≠ args.profile ∨ attempt.runnerId ≠ args.runnerId then
      return (false, db)
    if attempt.runnerCleanupPending ≠ some true then return (true, db)
    if isRetiring attempt then
      let db ← finishRetirement now attemptId attempt false db
      return (true, db)
    pure (true, db.patchAttempt attemptId acknowledgedAttempt)

/-! ## Attempts -/

structure CreateAttemptArgs where
  profile : String
  executor : Executor
  imageRelease : String
  vcpus : ℕ
  memoryMiB : ℕ
  runnerName : String
  runnerId : ℕ
  encodedJITConfig : String
  caller : Option ControllerCaller

/-- The row a new Attempt starts as. -/
def newAttempt (args : CreateAttemptArgs) : Attempt where
  profile := args.profile
  executor := args.executor
  imageRelease := args.imageRelease
  vcpus := args.vcpus
  memoryMiB := args.memoryMiB
  runnerName := args.runnerName
  runnerId := args.runnerId
  state := .pending
  machineId := none
  selectionReason := none
  jitConfig := none
  createdAt := now
  claimedAt := none
  readyAt := none
  startedAt := none
  finishedAt := none
  executorFinishedAt := none
  executorExitCode := none
  runnerRequestId := none
  repo := none
  owner := none
  jobId := none
  workflowRef := none
  headBranch := none
  displayName := none
  workflowRunId := none
  eventName := none
  queueTime := none
  assignedAt := none
  runnerAssignedAt := none
  result := none
  lastError := none
  cancelReason := none
  runnerCleanupPending := none
  retirement := none

/-- Create the Attempt of a Runner the controller registered.  A replay of the same request is
accepted and changes nothing. -/
def createAttempt (args : CreateAttemptArgs) (db : Db) : Result Db := do
  authorize now args.profile args.caller db
  let mismatch : Err := .convex "Attempt does not match the registered Profile contract"
  match ← profileFor db args.profile with
  | none => throw mismatch
  | some (_, profile) =>
    if profile.state ≠ .active ∨ profile.executor ≠ args.executor ∨
        profile.imageRelease ≠ args.imageRelease ∨ profile.vcpus ≠ args.vcpus ∨
        profile.memoryMiB ≠ args.memoryMiB then
      throw mismatch
    match ← attemptByRunnerName args.runnerName db with
    | some (_, existing) =>
      if existing.profile = args.profile ∧ existing.executor = args.executor ∧
          existing.imageRelease = args.imageRelease ∧ existing.vcpus = args.vcpus ∧
          existing.memoryMiB = args.memoryMiB ∧ existing.runnerId = args.runnerId then
        return db
      throw (.convex "Runner name already belongs to another Attempt")
    | none =>
      pure { db with
        attempts := db.attempts.insert (newAttempt now args)
        attemptSecrets := db.attemptSecrets.insert ⟨db.attempts.next, args.encodedJITConfig, now⟩ }

structure CancelAttemptArgs where
  profile : String
  runnerName : String
  reason : String
  caller : Option ControllerCaller

/-- A scale-down. -/
def cancelAttempt (args : CancelAttemptArgs) (db : Db) : Result Db := do
  authorize now args.profile args.caller db
  match ← attemptByRunnerName args.runnerName db with
  | none => pure db
  | some (attemptId, attempt) =>
    if attempt.profile ≠ args.profile ∨ attempt.state.isTerminal = true then return db
    if attempt.state = .running then
      throw (.convex "A running Attempt cannot be removed by a scale-down reconciliation")
    let (_, db) ← endIdleAttempt now attemptId attempt args.reason db
    pure db

structure JobStartedArgs where
  profile : String
  runnerName : String
  runnerRequestId : Option String
  repository : Option String
  owner : Option String
  jobId : Option String
  workflowRef : Option String
  headBranch : Option String
  displayName : Option String
  workflowRunId : Option ℕ
  eventName : Option String
  queueTime : Option ℤ
  assignedAt : Option ℤ
  runnerAssignedAt : Option ℤ
  caller : Option ControllerCaller

/-- The row a JobStarted message leaves.  A Runner that took a job while retiring keeps it; a
running Attempt stays as it was in that respect.  The three times are written even when they
are absent. -/
def startedAttempt (args : JobStartedArgs) (attempt stored : Attempt) : Attempt :=
  let kept := if attempt.state = .running then stored else keepForJob attempt stored
  { kept with
    state := .running
    startedAt := some (attempt.startedAt.getD now)
    runnerRequestId := args.runnerRequestId.orElse fun _ => stored.runnerRequestId
    repo := args.repository.orElse fun _ => stored.repo
    owner := args.owner.orElse fun _ => stored.owner
    jobId := args.jobId.orElse fun _ => stored.jobId
    workflowRef := args.workflowRef.orElse fun _ => stored.workflowRef
    headBranch := args.headBranch.orElse fun _ => stored.headBranch
    displayName := args.displayName.orElse fun _ => stored.displayName
    workflowRunId := args.workflowRunId.orElse fun _ => stored.workflowRunId
    eventName := args.eventName.orElse fun _ => stored.eventName
    queueTime := args.queueTime
    assignedAt := args.assignedAt
    runnerAssignedAt := args.runnerAssignedAt }

/-- The row of an ended Attempt whose branch became known afterwards. -/
def branchedAttempt (headBranch : Option String) (stored : Attempt) : Attempt :=
  { stored with headBranch := headBranch }

/-- Record GitHub's JobStarted message on its Attempt.  On a terminal Attempt it may still note the
branch, for the test report of a job that ran. -/
def markJobStarted (args : JobStartedArgs) (db : Db) : Result Db := do
  authorize now args.profile args.caller db
  let unknown : Err := .convex "Job started for an unknown Attempt"
  match ← attemptByRunnerName args.runnerName db with
  | none => throw unknown
  | some (attemptId, attempt) =>
    if attempt.profile ≠ args.profile then throw unknown
    if attempt.state.isTerminal then
      if args.headBranch.isSome ∧ attempt.startedAt.isSome ∧ attempt.headBranch = none then
        return db.patchAttempt attemptId (branchedAttempt args.headBranch)
      return db
    pure (db.patchAttempt attemptId (startedAttempt now args attempt))

structure JobCompletedArgs where
  profile : String
  runnerName : String
  runnerRequestId : Option String
  jobId : Option String
  result : Option String
  finishedAt : ℤ
  caller : Option ControllerCaller

/-- The row a JobCompleted message leaves. -/
def completedAttempt (args : JobCompletedArgs) (stored : Attempt) : Attempt := { stored with
    state := .completed
    jitConfig := none
    runnerCleanupPending := none
    retirement := none
    runnerRequestId := args.runnerRequestId.orElse fun _ => stored.runnerRequestId
    jobId := args.jobId.orElse fun _ => stored.jobId
    result := args.result.orElse fun _ => stored.result
    finishedAt := some args.finishedAt }

/-- Record GitHub's JobCompleted message on its Attempt. -/
def markJobCompleted (args : JobCompletedArgs) (db : Db) : Result Db := do
  authorize now args.profile args.caller db
  let unknown : Err := .convex "Job completed for an unknown Attempt"
  match ← attemptByRunnerName args.runnerName db with
  | none => throw unknown
  | some (attemptId, attempt) =>
    if attempt.profile ≠ args.profile then throw unknown
    let released := if attempt.state.isTerminal then db else releaseAttemptSlot attempt db
    let db ← deleteAttemptSecret attemptId released
    pure (db.patchAttempt attemptId (completedAttempt args))

end EraInfra
