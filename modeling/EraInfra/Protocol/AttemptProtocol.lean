import EraInfra.Backend.Reconcile
import EraInfra.Core.Run

/-!
# The Attempt protocol

Everything that can happen to a deployment that runs Attempts and Experiments: what controllers,
Workers, operators and the cron call, as one type of operations.  A run is any list of calls, each
with its own clock reading, made one after another from an empty deployment; calls that throw
change nothing.  No call is ever scheduled by another here: `tryAssign` may simply be called at
any time.

Two operations stand for what is not modelled.  `measure` changes a Worker's measured facts
(`reportHostFacts`, `reportBenchmark`), and `readiness` replaces the readiness rows
(`reportReadiness`) — by anything at all, so that nothing proved here depends on what Workers
report.
-/

namespace EraInfra

open DocStore

/-- The facts a Worker reports about itself. -/
structure MachineFacts where
  cpus : Option ℕ
  memoryMiB : Option ℕ
  benchmark : Option BenchmarkSummary
  maxSlots : ℕ

inductive Op
  | issueRegistrationToken (token : String)
  | registerAgent (args : RegisterAgentArgs)
  | setLabels (name : String) (labels : List String)
  | heartbeat (token : String)
  | measure (machineId : DocId Machine) (facts : MachineFacts)
  | readiness (rows : Table WorkerReadiness) (evidence : Table ReadinessEvidence)
  | acquireLease (args : AcquireArgs)
  | renewLease (args : LeaseArgs)
  | releaseLease (args : LeaseArgs)
  | recordHeartbeat (report : HeartbeatReport) (caller : Option ControllerCaller)
  | registerProfile (args : RegisterProfileArgs)
  | pauseProfile (name : String) (caller : Option ControllerCaller)
  | createAttempt (args : CreateAttemptArgs)
  | cancelAttempt (args : CancelAttemptArgs)
  | markJobStarted (args : JobStartedArgs)
  | markJobCompleted (args : JobCompletedArgs)
  | completeRunnerCleanup (args : CleanupArgs)
  | tryAssign
  | claimAttempt (token : String) (attemptId : DocId Attempt)
  | markReady (token : String) (attemptId : DocId Attempt)
  | reportAttempt (args : ReportAttemptArgs)
  | createExperiment (auth : Result String) (args : CreateExperimentArgs)
  | cancelExperiment (auth : Result String) (experimentId : DocId Experiment)
  | claimExperiment (token : String) (experimentId : DocId Experiment)
  | markExperimentRunning (token : String) (experimentId : DocId Experiment)
  | reportExperiment (token : String) (experimentId : DocId Experiment) (exitCode : ℚ)
  | reconcile

/-- One call: when, and what. -/
structure Call where
  now : ℤ
  op : Op

/-- A Worker's row with new measured facts. -/
def measuredMachine (facts : MachineFacts) (stored : Machine) : Machine := { stored with
    cpus := facts.cpus
    memoryMiB := facts.memoryMiB
    benchmark := facts.benchmark
    maxSlots := facts.maxSlots }

/-- The database a call commits. -/
def perform (js : Engine) (c : Call) (db : Db) : Result Db :=
  match c.op with
  | .issueRegistrationToken token => issueRegistrationToken c.now token db
  | .registerAgent args => (registerAgent js c.now args db).map Prod.snd
  | .setLabels name labels => (setLabels js c.now name labels db).map Prod.snd
  | .heartbeat token => (heartbeat c.now token db).map Prod.snd
  | .measure machineId facts => pure (db.patchMachine machineId (measuredMachine facts))
  | .readiness rows evidence =>
    pure { db with workerReadiness := rows, readinessEvidence := evidence }
  | .acquireLease args => (acquire c.now args db).map Prod.snd
  | .renewLease args => (renew c.now args db).map Prod.snd
  | .releaseLease args => release c.now args db
  | .recordHeartbeat report caller => recordHeartbeat c.now report caller db
  | .registerProfile args => (registerProfile js c.now args db).map Prod.snd
  | .pauseProfile name caller => (pauseProfile c.now name caller db).map Prod.snd
  | .createAttempt args => createAttempt c.now args db
  | .cancelAttempt args => cancelAttempt c.now args db
  | .markJobStarted args => markJobStarted c.now args db
  | .markJobCompleted args => markJobCompleted c.now args db
  | .completeRunnerCleanup args => (completeRunnerCleanup c.now args db).map Prod.snd
  | .tryAssign => (AttemptScheduler.tryAssign js c.now db).map Prod.snd
  | .claimAttempt token attemptId => (claimAttempt c.now token attemptId db).map Prod.snd
  | .markReady token attemptId => (markReady c.now token attemptId db).map Prod.snd
  | .reportAttempt args => (reportAttempt c.now args db).map Prod.snd
  | .createExperiment auth args => (createExperiment c.now auth args db).map Prod.snd
  | .cancelExperiment auth experimentId =>
    (cancelExperiment c.now auth experimentId db).map Prod.snd
  | .claimExperiment token experimentId =>
    (claimExperiment c.now token experimentId db).map Prod.snd
  | .markExperimentRunning token experimentId =>
    (markExperimentRunning c.now token experimentId db).map Prod.snd
  | .reportExperiment token experimentId exitCode =>
    (reportExperiment c.now token experimentId exitCode db).map Prod.snd
  | .reconcile => (Reconcile.run c.now db).map Prod.snd

/-- The database after a call: what it committed, or what was there when it threw. -/
def step (js : Engine) (db : Db) (c : Call) : Db := commit db (perform js c db)

/-- The database after a run from an empty deployment. -/
def after (js : Engine) (calls : List Call) : Db := run (step js) .empty calls

end EraInfra
