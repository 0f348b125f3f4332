import EraInfra.Backend.AttemptRetirement

/-!
# What Workers and operators call

The Worker's side of an Attempt and of an Experiment (`workerApi.ts`, `agentApi.ts` heartbeat),
the operator's Experiments (`experiments.ts`), and how a Worker joins and is labelled
(`machines.ts`).

`reportHostFacts`, `reportBenchmark` and `reportReadiness` are not here: they write a Worker's
measured facts and its readiness rows, which no result of this development constrains.  Where
runs are considered, those rows may change to anything between any two calls.
-/

namespace EraInfra

open DocStore

variable (js : Engine) (now : ℤ) (token : String) (experimentId : DocId Experiment) (exitCode : ℚ)
  (attemptId : DocId Attempt) (stored : Experiment)

/-- The Worker a machine token names. -/
def machineForToken (db : Db) : Result (DocId Machine × Machine) := do
  match ← db.machines.unique (.notUnique "machines") fun machine => machine.token = token with
  | none => throw (.convex "Invalid machine token")
  | some machine => pure machine

/-- `Number.isInteger`. -/
def isInteger (q : ℚ) : Bool := q.den = 1

/-- The egress claimed work runs under: its Profile's, read at claim. -/
def claimEgress (profile : String) (db : Db) : Result ProfileEgress := do
  let row ← db.profiles.unique (.notUnique "profiles") fun row => row.name = profile
  pure (profileEgressOf (row.bind fun row => row.2.egress))

/-! ## Attempts -/

structure ClaimedAttempt where
  runnerName : String
  profile : String
  executor : Executor
  imageRelease : String
  vcpus : ℕ
  memoryMiB : ℕ
  jitConfig : String
  egress : ProfileEgress

/-- The row of an Attempt its Worker has claimed. -/
def claimedAttempt (stored : Attempt) : Attempt :=
  { stored with state := .preparing, claimedAt := some now, jitConfig := none }

/-- Hand an Attempt's JIT config to its Worker, and drop it. -/
def claimAttempt (db : Db) : Result (Option ClaimedAttempt × Db) := do
  let (machineId, _) ← machineForToken token db
  match db.attempts.get attemptId with
  | none => pure (none, db)
  | some attempt =>
    if attempt.machineId ≠ some machineId ∨ attempt.state ≠ .pending then return (none, db)
    let secret ← db.attemptSecrets.unique (.notUnique "attemptSecrets")
      fun secret => secret.attemptId = attemptId
    match (secret.map fun row => row.2.jitConfig).orElse fun _ => attempt.jitConfig with
    | none => pure (none, db)
    | some jitConfig =>
      let secrets := match secret with
        | none => db.attemptSecrets
        | some (secretId, _) => db.attemptSecrets.delete secretId
      let claimed := { db with attemptSecrets := secrets }.patchAttempt attemptId (claimedAttempt now)
      let egress ← claimEgress attempt.profile claimed
      pure (some ⟨attempt.runnerName, attempt.profile, attempt.executor, attempt.imageRelease,
        attempt.vcpus, attempt.memoryMiB, jitConfig, egress⟩, claimed)

/-- The row of an Attempt whose executor is up. -/
def readyAttempt (stored : Attempt) : Attempt := { stored with state := .ready, readyAt := some now }

/-- The executor is up and its Runner is waiting for a job. -/
def markReady (db : Db) : Result (Bool × Db) := do
  let (machineId, _) ← machineForToken token db
  match db.attempts.get attemptId with
  | none => pure (false, db)
  | some attempt =>
    if attempt.machineId ≠ some machineId ∨ attempt.state ≠ .preparing then return (false, db)
    pure (true, db.patchAttempt attemptId (readyAttempt now))

/-- How the guest's GitHub runner ended, as the Firecracker guest reports it. -/
structure RunnerExit where
  exitCode : ℚ
  ranJob : Bool
  diagnostic : Option String

def maxRunnerDiagnosticChars : ℕ := 300

/-- `[\u0000-\u001f\u007f-\u009f]`. -/
def isControl (c : Char) : Bool := c.toNat ≤ 0x1f || (0x7f ≤ c.toNat && c.toNat ≤ 0x9f)

/-- Whether an Attempt's Runner may still be registered with GitHub after its executor exited. -/
def runnerOutlivesExecutor (attempt : Attempt) (exitCode : ℚ) : Bool :=
  attempt.state ≠ .running || exitCode ≠ 0 || attempt.retirement.isSome

/-- Why an Attempt failed when its runner exited without ever taking a job. -/
def joblessRunnerFailure (attempt : Attempt) (runnerExit : Option RunnerExit) : Option String :=
  match runnerExit with
  | none => none
  | some runnerExit =>
    if runnerExit.ranJob ∨ attempt.state = .running then none
    else
      let printable := ((runnerExit.diagnostic.getD "").toList.map fun c =>
        if isControl c then ' ' else c)
      let diagnostic := sliceTo (trim (String.ofList printable)) maxRunnerDiagnosticChars
      let code := runnerExit.exitCode.num
      let detail := if diagnostic = "" then "" else s!": {diagnostic}"
      some (s!"GitHub runner exited with code {code} without taking a job" ++ detail)

structure ReportAttemptArgs where
  token : String
  attemptId : DocId Attempt
  exitCode : ℚ
  egress : Option EgressRecord
  runnerExit : Option RunnerExit

/-- Store what the guest talked to, one record per Attempt. -/
def recordEgress (machineId : DocId Machine)
    (profile : String) (egress : Option EgressRecord) (db : Db) : Result Db :=
  match egress with
  | none => pure db
  | some egress => do
      let existing ← db.attemptEgress.unique (.notUnique "attemptEgress")
        fun record => record.attemptId = attemptId
      let row : AttemptEgress := ⟨attemptId, machineId, profile, now, boundedEgressRecord egress⟩
      let records := match existing with
        | none => db.attemptEgress.insert row
        | some (recordId, _) => db.attemptEgress.patch recordId fun _ => row
      pure { db with attemptEgress := records }

/-- The row of an Attempt that had ended before its executor reported. -/
def reportedAgain (stored : Attempt) : Attempt := { stored with
    jitConfig := none
    executorFinishedAt := some now
    executorExitCode := some exitCode }

/-- The row of an idle Attempt whose executor exits while it is retiring: it ends as the retirement
asked. -/
def exitedRetiring (retirement : Retirement) (stored : Attempt) :
    Attempt :=
  { stored with
    state := retirement.outcome.state
    jitConfig := none
    executorFinishedAt := some now
    executorExitCode := some exitCode
    finishedAt := some now
    cancelReason :=
      if retirement.outcome = .cancelled then some retirement.reason else stored.cancelReason
    lastError :=
      if retirement.outcome = .cancelled then stored.lastError else some retirement.reason
    runnerCleanupPending := some true
    retirement := none }

/-- The row of any other Attempt whose executor exits. -/
def exitedAttempt (runnerExit : Option RunnerExit) (attempt stored : Attempt) : Attempt :=
  let runnerFailure := joblessRunnerFailure attempt runnerExit
  let code := exitCode.num
  { stored with
    state := if exitCode = 0 ∧ runnerFailure = none then .completed else .failed
    jitConfig := none
    executorFinishedAt := some now
    executorExitCode := some exitCode
    finishedAt := some now
    lastError := runnerFailure.orElse fun _ =>
      if exitCode = 0 then none else some s!"Executor exited with code {code}"
    runnerCleanupPending := if runnerOutlivesExecutor attempt exitCode then some true else none
    retirement := none }

/-- The exit codes a report may carry. -/
def validateExit (args : ReportAttemptArgs) : Result Unit :=
  if !isInteger args.exitCode then throw (.convex "Exit code must be an integer")
  else
    match args.runnerExit with
    | none => pure ()
    | some runnerExit =>
      if isInteger runnerExit.exitCode && 0 ≤ runnerExit.exitCode &&
          runnerExit.exitCode ≤ 255 then pure ()
      else throw (.convex "runnerExit exit code must be an integer from 0 to 255")

/-- The Worker reports that an Attempt's executor exited. -/
def reportAttempt (args : ReportAttemptArgs) (db : Db) : Result (Bool × Db) := do
  validateExit args
  let (machineId, _) ← machineForToken args.token db
  match db.attempts.get args.attemptId with
  | none => pure (false, db)
  | some attempt =>
    if attempt.machineId ≠ some machineId then return (false, db)
    let recorded ← recordEgress now args.attemptId machineId attempt.profile args.egress db
    if attempt.state = .completed ∨ attempt.state = .cancelled ∨ attempt.state = .failed then
      let db ← deleteAttemptSecret args.attemptId recorded
      return (true, db.patchAttempt args.attemptId (reportedAgain now args.exitCode))
    let db ← deleteAttemptSecret args.attemptId (releaseAttemptSlot attempt recorded)
    match attempt.retirement with
    | some retirement =>
      if attempt.state ≠ .running then
        return (true, db.patchAttempt args.attemptId (exitedRetiring now args.exitCode retirement))
      pure (true, db.patchAttempt args.attemptId
        (exitedAttempt now args.exitCode args.runnerExit attempt))
    | none =>
      pure (true, db.patchAttempt args.attemptId
        (exitedAttempt now args.exitCode args.runnerExit attempt))

/-! ## Experiments -/

def ExperimentState.isTerminal : ExperimentState → Bool
  | .completed | .cancelled | .failed => true
  | .queued | .preparing | .running => false

/-- The length of a text in UTF-8. -/
def utf8Length (text : String) : ℕ := (text.toList.map Char.utf8Size).sum

/-- What an operator may ask an Experiment to run. -/
def validateCommand (command : List String) : Result Unit := do
  let bytes := (command.map utf8Length).sum
  if command.length < 1 ∨ command.length > 32 ∨ bytes > 16 * 1024 then
    throw (.convex "Experiment command must contain 1-32 arguments and fit within 16 KiB")
  if command.any fun value => value = "" || value.toList.contains (Char.ofNat 0) then
    throw (.convex "Experiment command arguments must be non-empty and contain no NUL bytes")

structure CreateExperimentArgs where
  name : String
  profile : String
  command : List String
  timeoutSeconds : ℚ

/-- Queue an operator's workload.  `auth` is the outcome of the dashboard check: who asks, or why
not. -/
def createExperiment (auth : Result String) (args : CreateExperimentArgs) (db : Db) :
    Result (DocId Experiment × Db) := do
  let subject ← auth
  let name := trim args.name
  if jsLength name < 1 ∨ jsLength name > 80 then
    throw (.convex "Experiment name must contain 1-80 characters")
  validateCommand args.command
  if isInteger args.timeoutSeconds = false ∨ args.timeoutSeconds < 1 ∨ args.timeoutSeconds > 21600 then
    throw (.convex "Experiment timeout must be between 1 and 21600 seconds")
  match ← db.profiles.unique (.notUnique "profiles") fun row => row.name = args.profile with
  | none => throw (.convex "Experiment Profile is not active")
  | some (_, profile) =>
    if profile.state ≠ .active then throw (.convex "Experiment Profile is not active")
    if profile.executor ≠ .firecracker then
      throw (.convex "Experiments currently require a Linux Firecracker Profile")
    let experiment : Experiment :=
      { name := name
        profile := profile.name
        imageRelease := profile.imageRelease
        vcpus := profile.vcpus
        memoryMiB := profile.memoryMiB
        command := args.command
        timeoutSeconds := args.timeoutSeconds
        state := .queued
        machineId := none
        selectionReason := none
        createdBy := subject
        createdAt := now
        claimedAt := none
        startedAt := none
        finishedAt := none
        exitCode := none
        lastError := none }
    pure (db.experiments.next, { db with experiments := db.experiments.insert experiment })

/-- The row of an Experiment its operator cancelled. -/
def cancelledExperiment : Experiment := { stored with
    state := .cancelled
    finishedAt := some now
    lastError := some "Cancelled by operator" }

/-- The operator cancels an Experiment. -/
def cancelExperiment (auth : Result String) (experimentId : DocId Experiment) (db : Db) :
    Result (Bool × Db) := do
  let _ ← auth
  match db.experiments.get experimentId with
  | none => pure (false, db)
  | some experiment =>
    if experiment.state.isTerminal then return (true, db)
    pure (true, (releaseMachineSlot experiment.machineId db).patchExperiment experimentId
      (cancelledExperiment now))

structure ClaimedExperiment where
  name : String
  profile : String
  imageRelease : String
  vcpus : ℕ
  memoryMiB : ℕ
  command : List String
  timeoutSeconds : ℚ
  egress : ProfileEgress

/-- The row of an Experiment its Worker has claimed. -/
def claimedExperiment : Experiment := { stored with state := .preparing, claimedAt := some now }

/-- A Worker takes up an Experiment that was placed on it. -/
def claimExperiment (db : Db) : Result (Option ClaimedExperiment × Db) := do
  let (machineId, _) ← machineForToken token db
  match db.experiments.get experimentId with
  | none => pure (none, db)
  | some experiment =>
    if experiment.machineId ≠ some machineId ∨ experiment.state ≠ .queued then return (none, db)
    let claimed := db.patchExperiment experimentId (claimedExperiment now)
    let egress ← claimEgress experiment.profile claimed
    pure (some ⟨experiment.name, experiment.profile, experiment.imageRelease, experiment.vcpus,
      experiment.memoryMiB, experiment.command, experiment.timeoutSeconds, egress⟩, claimed)

/-- The row of an Experiment whose workload started. -/
def runningExperiment : Experiment := { stored with state := .running, startedAt := some now }

/-- The workload has started. -/
def markExperimentRunning (db : Db) : Result (Bool × Db) := do
  let (machineId, _) ← machineForToken token db
  match db.experiments.get experimentId with
  | none => pure (false, db)
  | some experiment =>
    if experiment.machineId ≠ some machineId ∨ experiment.state ≠ .preparing then
      return (false, db)
    pure (true, db.patchExperiment experimentId (runningExperiment now))

/-- The row of an Experiment whose executor exited. -/
def exitedExperiment : Experiment :=
  let code := exitCode.num
  { stored with
    state := if exitCode = 0 then .completed else .failed
    exitCode := some exitCode
    finishedAt := some now
    lastError := if exitCode = 0 then none else some s!"Experiment exited with code {code}" }

/-- The executor has exited; the Experiment ends, and its slot is free. -/
def reportExperiment (db : Db) : Result (Bool × Db) := do
  if !isInteger exitCode then throw (.convex "Exit code must be an integer")
  let (machineId, _) ← machineForToken token db
  match db.experiments.get experimentId with
  | none => pure (false, db)
  | some experiment =>
    if experiment.machineId ≠ some machineId then return (false, db)
    if experiment.state.isTerminal then return (true, db)
    pure (true, (releaseMachineSlot experiment.machineId db).patchExperiment experimentId
      (exitedExperiment now exitCode))

/-! ## Workers -/

/-- A Worker is alive.  After a silence its running Attempts are kept. -/
def heartbeat (db : Db) : Result ((Os × ℕ) × Db) := do
  let (machineId, machine) ← machineForToken token db
  let db :=
    if workerReports machine now then db
    else (keepRunningAttemptsOfReturningWorker machineId db).2
  pure ((machine.os, machine.maxSlots),
    db.patchMachine machineId fun stored => { stored with lastSeen := now })

def maxHostLabels : ℕ := 16

/-- `HOST_LABEL`: a lower-case letter or digit, then at most 62 of those, `.`, `_` and `-`. -/
def isHostLabel (label : String) : Bool :=
  let lowerOrDigit (c : Char) := c.isDigit || ('a' ≤ c && c ≤ 'z')
  match label.toList with
  | [] => false
  | c :: cs =>
    lowerOrDigit c && cs.length ≤ 62 && cs.all fun c => lowerOrDigit c || c = '.' || c = '_' || c = '-'

/-- One character of a JSON string literal. -/
def jsonChar (c : Char) : List Char :=
  let hex (n : ℕ) := (Nat.digitChar n)
  match c.toNat with
  | 0x22 => ['\\', '"']
  | 0x5c => ['\\', '\\']
  | 0x08 => ['\\', 'b']
  | 0x0c => ['\\', 'f']
  | 0x0a => ['\\', 'n']
  | 0x0d => ['\\', 'r']
  | 0x09 => ['\\', 't']
  | n => if n < 0x20 then ['\\', 'u', '0', '0', hex (n / 16), hex (n % 16)] else [c]

/-- `JSON.stringify` of a text. -/
def jsonString (text : String) : String :=
  String.ofList (['"'] ++ text.toList.flatMap jsonChar ++ ['"'])

def notHostLabel (value : String) : String :=
  s!"{jsonString value} is not a host label: lowercase letters, digits, '.', '_' and '-', " ++
    "starting with a letter or digit, at most 63 characters"

/-- The labels trimmed, lower-cased and de-duplicated, or the first text that is no label. -/
def collectHostLabels (js : Engine) : List String → List String → Except String (List String)
  | labels, [] => .ok labels
  | labels, value :: rest =>
    let label := js.toLowerCase (trim value)
    if !isHostLabel label then .error (notHostLabel value)
    else collectHostLabels js (if labels.contains label then labels else labels ++ [label]) rest

/-- Normalise a list of host labels: trimmed, lower-cased, de-duplicated, sorted. -/
def normalizeHostLabels (raw : List String) : Except String (List String) := do
  let labels ← collectHostLabels js [] raw
  if labels.length > maxHostLabels then throw s!"at most {maxHostLabels} host labels"
  pure (labels.insertionSort fun a b => ¬ b < a)

inductive SetLabelsResult
  | ok (name : String) (labels : List String) (retiredRunners requeuedAttempts : ℕ)
  | refused (status : ℕ) (error : String)

/-- Replace a Worker's host labels; a removed label takes effect on its idle Attempts at once. -/
def setLabels (name : String) (labels : List String) (db : Db) : Result (SetLabelsResult × Db) :=
  match normalizeHostLabels js labels with
  | .error error => pure (.refused 400 error, db)
  | .ok labels => do
      match ← db.machines.unique (.notUnique "machines") fun machine => machine.name = name with
      | none => pure (.refused 404 "No Worker has that name", db)
      | some (machineId, machine) =>
        let labelled := db.patchMachine machineId fun stored => { stored with labels := labels }
        let (tally, db) ←
          retireOffPinOnWorker js now machineId { machine with labels := labels } labelled
        pure (.ok machine.name labels tally.retired tally.requeued, db)

def registrationTokenTtlMs : ℤ := 15 * 60 * 1000

/-- Issue a registration token.  The source draws random tokens until one is free; `token` is the
one it ends with. -/
def issueRegistrationToken (db : Db) : Result Db := do
  match ← db.registrationTokens.unique (.notUnique "registrationTokens")
      fun row => row.token = token with
  | some _ => throw (.internal "registration token is taken")
  | none =>
    pure { db with registrationTokens := db.registrationTokens.insert ⟨token, now, none⟩ }

/-- How many jobs a host of that size should run at once. -/
def resourceRecommendedSlots (os : Os) (cpus : ℕ) (memoryMiB : Option ℕ) : ℕ :=
  let cpuSlots := max 1 (cpus / 4)
  let memorySlots := match memoryMiB with
    | none => cpuSlots
    | some memoryMiB => max 1 (memoryMiB / 8192)
  match os with
  | .linux => min 16 (min cpuSlots memorySlots)
  | .mac => min 2 (min cpuSlots memorySlots)
  | .win => 1

def isNameChar (c : Char) : Bool :=
  c.isDigit || ('a' ≤ c && c ≤ 'z') || ('A' ≤ c && c ≤ 'Z') || c = '.' || c = '_' || c = '-'

/-- `replace(/[^A-Za-z0-9._-]+/g, "-")`; the flag says that the run being replaced has its dash. -/
def dashRuns : Bool → List Char → List Char
  | _, [] => []
  | replaced, c :: cs =>
    if isNameChar c then c :: dashRuns false cs
    else if replaced then dashRuns true cs
    else '-' :: dashRuns true cs

/-- A host name as a Worker's name. -/
def sanitizeMachineName (hostname : String) : String :=
  let dashed := dashRuns false (trim hostname).toList
  let stripped := ((dashed.dropWhile (· = '-')).reverse.dropWhile (· = '-')).reverse
  let sanitized := String.ofList (stripped.take 64)
  if sanitized = "" then "runner" else sanitized

/-- The base name, or the first of `base-2`, `base-3`, … no Worker has; with `n` Workers one of the
first `n + 1` names is free. -/
def freeMachineName (base : String) (db : Db) : String :=
  let taken := db.machines.rows.map fun r => r.2.name
  let suffixed := (List.range taken.length).map fun k => s!"{base}-{k + 2}"
  ((base :: suffixed).find? fun name => !taken.contains name).getD base

structure RegisterAgentArgs where
  registrationToken : String
  name : String
  os : Os
  cpus : ℕ
  memoryMiB : Option ℕ
  labels : Option (List String)
  maxSlots : Option ℕ
  /-- The random token the source ends with. -/
  machineToken : String

inductive RegisterAgentResult
  | ok (machineToken : String)
  | refused (status : ℕ) (error : String)

/-- The row a Worker starts with. -/
def registeredMachine (args : RegisterAgentArgs) (labels : List String) (name : String) : Machine where
  name := name
  os := args.os
  labels := labels
  cpus := some args.cpus
  memoryMiB := args.memoryMiB
  benchmark := none
  maxSlots := args.maxSlots.getD (resourceRecommendedSlots args.os args.cpus args.memoryMiB)
  usedSlots := 0
  lastSeen := 0
  token := args.machineToken

/-- A Worker joins with a registration token, which it uses up. -/
def registerAgent (args : RegisterAgentArgs) (db : Db) : Result (RegisterAgentResult × Db) := do
  match ← db.registrationTokens.unique (.notUnique "registrationTokens")
      fun row => row.token = args.registrationToken with
  | none => pure (.refused 401 "Invalid registration token", db)
  | some (registrationId, registration) =>
    if registration.usedAt.isSome then
      return (.refused 409 "Registration token has already been used", db)
    if now - registration.createdAt ≥ registrationTokenTtlMs then
      return (.refused 410 "Registration token has expired", db)
    match normalizeHostLabels js (args.labels.getD []) with
    | .error error => pure (.refused 400 error, db)
    | .ok labels => do
        let name := freeMachineName (sanitizeMachineName args.name) db
        match ← db.machines.unique (.notUnique "machines")
            fun machine => machine.token = args.machineToken with
        | some _ => throw (.internal "machine token is taken")
        | none =>
          pure (.ok args.machineToken, { db with
            registrationTokens := db.registrationTokens.patch registrationId fun stored =>
              { stored with usedAt := some now }
            machines := db.machines.insert (registeredMachine args labels name) })

end EraInfra
