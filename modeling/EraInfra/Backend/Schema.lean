import EraInfra.Core.Table

/-!
# The control plane's database

The rows of `convex/schema.ts` that the CI control plane's mutations read and write, one
structure per table, and `Db`, the database they live in.  Field names are the schema's.  An
optional field is an `Option`, and a patch that writes `undefined` writes `none`.

Times are milliseconds as integers, GitHub's and Convex's numeric ids are naturals, and numbers
the code itself checks for integrality (exit codes, timeouts, pool sizes) are rationals, so that
the check has something to refuse.  `usedSlots` is an integer and not a natural: it is a plain
`v.number()`, and nothing in the schema keeps a wrong value from being negative.

Documents carry no `_id` here — a row's identifier is its place in the table.  `_creationTime`
is a field where some function reads it.
-/

namespace EraInfra

open DocStore

/-! ## Errors -/

/-- Why a controller request was refused; the HTTP layer maps each to a status. -/
inductive ControllerRefusal
  | lease
  | unauthorized
  | forbidden
deriving DecidableEq, Repr

/-- What a mutation can throw. -/
inductive Err
  /-- `refuse(code, message)`: a `ConvexError` with a refusal code. -/
  | refused (code : ControllerRefusal) (message : String)
  /-- A `ConvexError` with a message. -/
  | convex (message : String)
  /-- A plain `Error`. -/
  | internal (message : String)
  /-- `.unique()` found more than one row of a table. -/
  | notUnique (table : String)
deriving DecidableEq, Repr

/-- A computation that may throw. -/
abbrev Result := Except Err

/-! ## Workers -/

inductive Os
  | linux
  | mac
  | win
deriving DecidableEq, Repr

inductive Executor
  | docker
  | firecracker
  | tart
  | hyperv
deriving DecidableEq, Repr

structure BenchmarkScores where
  cpu : ℕ
  memory : ℕ
  disk : ℕ
  network : ℕ
  balanced : ℕ

structure BenchmarkSummary where
  measuredAt : ℤ
  scores : BenchmarkScores

/-- A Worker's host, with its slots. -/
structure Machine where
  name : String
  os : Os
  labels : List String
  cpus : Option ℕ
  memoryMiB : Option ℕ
  benchmark : Option BenchmarkSummary
  maxSlots : ℕ
  usedSlots : ℤ
  lastSeen : ℤ
  token : String

/-- A token with which a Worker joins. -/
structure RegistrationToken where
  token : String
  createdAt : ℤ
  usedAt : Option ℤ

/-! ## Profiles and readiness -/

inductive FitPolicy
  | balanced
  | cpu
  | network
  | io

inductive EgressMode
  | publicInternet
  | audit
  | allowlist
deriving DecidableEq, Repr

structure ProfileEgress where
  mode : EgressMode
  presets : List String
  domains : List String
  cidrs : List String

inductive ProfileState
  | active
  | paused
deriving DecidableEq, Repr

/-- A kind of Runner, and how many of it there may be. -/
structure Profile where
  name : String
  scaleSetName : String
  executor : Executor
  imageRelease : String
  vcpus : ℕ
  memoryMiB : ℕ
  warmPool : Option ℕ
  fitPolicy : Option FitPolicy
  minRunners : ℕ
  maxRunners : ℕ
  egress : Option ProfileEgress
  githubConfigUrl : Option String
  githubCacheFacts : Option Bool
  runnerGroup : Option String
  labels : Option (List String)
  workerLabels : Option (List String)
  state : ProfileState
  updatedAt : ℤ

inductive Boundary
  | guestKernel
  | sharedKernel
deriving DecidableEq, Repr

structure ReadinessCheck where
  name : String
  passed : Bool

structure EgressEvidence where
  mode : String
  hostMode : String
  profileMode : String
  presets : Option (List String)
  domains : Option (List String)
  cidrs : Option (List String)
  allowedDomainCount : ℕ

structure StorageFacts where
  snapshotter : Option String
  poolName : Option String
  poolTotalMiB : Option ℚ
  poolFreeMiB : Option ℚ

structure NetworkFacts where
  policyName : Option String
  policyHash : Option String
  subnet : Option String
  egressMode : Option String
  egress : Option EgressEvidence

/-- What a Worker proved about its host, as `isolation.ts` judges it. -/
structure ReadinessFacts where
  isolation : Option String
  boundary : Option Boundary
  checks : Option (List ReadinessCheck)
  cacheScope : Option String
  cacheSharedWritable : Option Bool
  /-- `hardware.kvm`, the one hardware fact admission reads. -/
  kvm : Option Bool
  storage : Option StorageFacts
  network : Option NetworkFacts

structure WarmPool where
  target : ℕ
  parked : ℕ
  claimed : ℕ

inductive ReadinessState
  | preparing
  | ready
  | degraded
  | failed
deriving DecidableEq, Repr

/-- What a Worker can serve of a Profile. -/
structure WorkerReadiness where
  machineId : DocId Machine
  profile : String
  executor : Executor
  imageRelease : String
  vcpus : Option ℕ
  memoryMiB : Option ℕ
  state : ReadinessState
  checkedAt : ℤ
  warmPool : Option WarmPool
  facts : ReadinessFacts

/-- The facts behind a readiness report. -/
structure ReadinessEvidence where
  machineId : DocId Machine
  profile : String
  executor : Executor
  imageRelease : String
  vcpus : Option ℕ
  memoryMiB : Option ℕ
  checkedAt : ℤ
  facts : ReadinessFacts

/-! ## Controllers -/

inductive Credential
  | controllerToken
  | machine
deriving DecidableEq, Repr

/-- Who holds a lease: a credential, plus the random instance id of the controller process. -/
structure LeaseHolder where
  credential : Credential
  machineId : Option (DocId Machine)
  hostname : String
  instanceId : String

/-- Who may act for a Profile. -/
structure ControllerLease where
  profile : String
  epoch : ℤ
  holder : Option LeaseHolder
  acquiredAt : Option ℤ
  renewedAt : Option ℤ
  expiresAt : ℤ

inductive SessionState
  | starting
  | standby
  | listening
  | conflict
  | stopped
deriving DecidableEq, Repr

inductive LeaseRole
  | holder
  | standby

inductive TokenSlot
  | current
  | next
  | machine

/-- One controller's report, as it arrives and as it is stored. -/
structure HeartbeatReport where
  profile : String
  hostname : String
  version : String
  scaleSetId : Option ℕ
  sessionState : SessionState
  leaseRole : Option LeaseRole
  leaseEpoch : Option ℤ
  lastMessageAt : Option ℤ
  startedAt : Option ℤ
  assignedJobs : ℕ
  runningJobs : ℕ
  lastError : Option String
  tokenSlot : TokenSlot

/-- The last report of a Profile's controller on a host. -/
structure ControllerHeartbeat where
  report : HeartbeatReport
  reporter : Option String
  firstSeenAt : ℤ
  receivedAt : ℤ
  lastListeningAt : Option ℤ

/-! ## Attempts and Experiments -/

inductive AttemptState
  | pending
  | preparing
  | ready
  | running
  | completed
  | cancelled
  | failed
deriving DecidableEq, Repr

inductive RetirementOutcome
  | cancelled
  | failed
deriving DecidableEq, Repr

/-- How an Attempt is to end, and why. -/
structure Retirement where
  outcome : RetirementOutcome
  reason : String
  requestedAt : ℤ

/-- An Attempt: one GitHub Runner with a just-in-time configuration, on its way through a
Worker. -/
structure Attempt where
  profile : String
  executor : Executor
  imageRelease : String
  vcpus : ℕ
  memoryMiB : ℕ
  runnerName : String
  runnerId : ℕ
  state : AttemptState
  machineId : Option (DocId Machine)
  selectionReason : Option String
  /-- Legacy-cycle compatibility: new Attempts keep it in `attemptSecrets`. -/
  jitConfig : Option String
  createdAt : ℤ
  claimedAt : Option ℤ
  readyAt : Option ℤ
  startedAt : Option ℤ
  finishedAt : Option ℤ
  executorFinishedAt : Option ℤ
  executorExitCode : Option ℚ
  runnerRequestId : Option String
  repo : Option String
  owner : Option String
  jobId : Option String
  workflowRef : Option String
  headBranch : Option String
  displayName : Option String
  workflowRunId : Option ℕ
  eventName : Option String
  queueTime : Option ℤ
  assignedAt : Option ℤ
  runnerAssignedAt : Option ℤ
  result : Option String
  lastError : Option String
  cancelReason : Option String
  runnerCleanupPending : Option Bool
  retirement : Option Retirement

/-- What only the Worker of an Attempt may read. -/
structure AttemptSecret where
  attemptId : DocId Attempt
  jitConfig : String
  createdAt : ℤ

inductive EgressVerdict
  | allowed
  | blocked
  | unlisted

structure EgressName where
  name : String
  verdict : EgressVerdict
  queries : ℤ

inductive EgressProtocol
  | tcp
  | udp

structure EgressFlow where
  destination : String
  protocol : EgressProtocol
  port : ℤ
  name : Option String
  verdict : EgressVerdict

/-- What a guest has reached. -/
structure EgressRecord where
  mode : EgressMode
  names : Option (List EgressName)
  flows : Option (List EgressFlow)
  omittedNames : Option ℤ
  omittedFlows : Option ℤ
  error : Option String

structure AttemptEgress where
  attemptId : DocId Attempt
  machineId : DocId Machine
  profile : String
  recordedAt : ℤ
  record : EgressRecord

inductive ExperimentState
  | queued
  | preparing
  | running
  | completed
  | cancelled
  | failed
deriving DecidableEq, Repr

/-- An operator's workload.  Its executor is the literal `firecracker`. -/
structure Experiment where
  name : String
  profile : String
  imageRelease : String
  vcpus : ℕ
  memoryMiB : ℕ
  command : List String
  timeoutSeconds : ℚ
  state : ExperimentState
  machineId : Option (DocId Machine)
  selectionReason : Option String
  createdBy : String
  createdAt : ℤ
  claimedAt : Option ℤ
  startedAt : Option ℤ
  finishedAt : Option ℤ
  exitCode : Option ℚ
  lastError : Option String

/-! ## Legacy jobs -/

inductive JobStatus
  | queued
  | assigned
  | running
  | done
  | failed
deriving DecidableEq, Repr

/-- A workflow job. -/
structure Job where
  ghJobId : ℕ
  githubInstallationId : Option ℕ
  repo : String
  workflowName : String
  labels : List String
  status : JobStatus
  machineId : Option (DocId Machine)
  runnerName : Option String
  queuedAt : ℤ
  startedAt : Option ℤ
  finishedAt : Option ℤ
  conclusion : Option String
  attempts : Option ℕ
  lastError : Option String
  nextAttemptAt : Option ℤ
  lastFailedMachineId : Option (DocId Machine)
  creationTime : ℤ

inductive CommandStatus
  | pending
  | claimed
  | cancelled
  | finished
deriving DecidableEq, Repr

/-- What a Worker is asked to do for a job. -/
structure Command where
  machineId : DocId Machine
  jobId : DocId Job
  jitConfig : Option String
  image : Option String
  runnerName : String
  runnerId : Option ℕ
  status : CommandStatus
  claimedAt : Option ℤ
  cancelledAt : Option ℤ
  exitCode : Option ℚ
  creationTime : ℤ

/-- A registration that GitHub is to forget. -/
structure RunnerDeletion where
  repo : String
  githubInstallationId : Option ℕ
  runnerId : ℕ
  runnerName : String
  createdAt : ℤ
  attempts : ℕ
  lastError : Option String

/-! ## Webhook intake -/

inductive WorkflowJobAction
  | queued
  | inProgress
  | completed
deriving DecidableEq, Repr

/-- A narrowed `workflow_job` event. -/
structure WorkflowJobEvent where
  action : WorkflowJobAction
  ghJobId : ℕ
  githubInstallationId : Option ℕ
  repo : String
  repoIsPublic : Bool
  workflowName : String
  labels : List String
  runnerName : Option String
  conclusion : Option String
deriving DecidableEq, Repr

inductive DeliveryStatus
  | pending
  | processed
  | rejected
  | failed
deriving DecidableEq, Repr

/-- A delivery that arrived. -/
structure WebhookDelivery where
  deliveryId : String
  event : String
  receivedAt : ℤ
  status : DeliveryStatus
  workflowJob : Option WorkflowJobEvent
  attempts : ℕ
  lastError : Option String
  settledAt : Option ℤ
deriving DecidableEq, Repr

inductive RecoveryState
  | requested
  | recovered
  | abandoned
deriving DecidableEq, Repr

/-- A delivery that was asked for again. -/
structure WebhookRecovery where
  guid : String
  githubDeliveryId : ℕ
  event : String
  deliveredAt : ℤ
  statusCode : ℕ
  attempts : ℕ
  firstRequestedAt : ℤ
  lastRequestedAt : ℤ
  nextAttemptAt : ℤ
  state : RecoveryState
  lastError : Option String

/-! ## The database -/

/-- One release of a Worker's slot: the Worker, and the `usedSlots` the release found there. -/
structure SlotRelease where
  machineId : DocId Machine
  found : ℤ

/-- The tables. -/
structure Db where
  machines : Table Machine
  registrationTokens : Table RegistrationToken
  profiles : Table Profile
  workerReadiness : Table WorkerReadiness
  readinessEvidence : Table ReadinessEvidence
  controllerLeases : Table ControllerLease
  controllerHeartbeats : Table ControllerHeartbeat
  attempts : Table Attempt
  attemptSecrets : Table AttemptSecret
  attemptEgress : Table AttemptEgress
  experiments : Table Experiment
  jobs : Table Job
  commands : Table Command
  runnerDeletions : Table RunnerDeletion
  webhookDeliveries : Table WebhookDelivery
  webhookRecovery : Table WebhookRecovery
  /-- Not a table: an observer's log of the slot releases made so far.  Nothing reads it. -/
  slotReleases : List SlotRelease
deriving Inhabited

/-- A deployment nothing has happened to. -/
def Db.empty : Db where
  machines := .empty
  registrationTokens := .empty
  profiles := .empty
  workerReadiness := .empty
  readinessEvidence := .empty
  controllerLeases := .empty
  controllerHeartbeats := .empty
  attempts := .empty
  attemptSecrets := .empty
  attemptEgress := .empty
  experiments := .empty
  jobs := .empty
  commands := .empty
  runnerDeletions := .empty
  webhookDeliveries := .empty
  webhookRecovery := .empty
  slotReleases := []

namespace Db

def patchMachine (db : Db) (i : DocId Machine) (f : Machine → Machine) : Db :=
  { db with machines := db.machines.patch i f }

def patchAttempt (db : Db) (i : DocId Attempt) (f : Attempt → Attempt) : Db :=
  { db with attempts := db.attempts.patch i f }

def patchExperiment (db : Db) (i : DocId Experiment) (f : Experiment → Experiment) : Db :=
  { db with experiments := db.experiments.patch i f }

def patchJob (db : Db) (i : DocId Job) (f : Job → Job) : Db := { db with jobs := db.jobs.patch i f }

def patchCommand (db : Db) (i : DocId Command) (f : Command → Command) : Db :=
  { db with commands := db.commands.patch i f }

end Db

end EraInfra
