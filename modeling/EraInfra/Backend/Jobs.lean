import EraInfra.Backend.WorkerApi

/-!
# Legacy jobs

The path for jobs that arrive as `workflow_job` webhooks: the image catalog (`catalog.ts`), bounded
retries (`retry.ts`), runner registrations to hand back (`runners.ts`), the job scheduler
(`scheduler.ts`), the events themselves (`jobs.ts`), what the Agent does with a command
(`agentApi.ts`) and the operator's two repairs (`admin.ts`).

A job's *assignment* is a row of `commands`: the Worker, and the name of the JIT runner minted for
it.  `Scheduler.tryAssign` mints them, and hands GitHub's answer for each to an action that runs
later (`IssueJit`); by the time it calls back with `storeJitConfig` or `failAttempt`, the command
may be gone or may belong to another job.
-/

namespace EraInfra

open DocStore

/-! ## The image catalog -/

structure ImageCatalogEntry where
  os : Os
  image : String
  preview : Bool

def previewOptInLabel : String := "rc-preview"

def actionsRunnerImage : String := "ghcr.io/actions/actions-runner:2.338.2@sha256:" ++
    "759a1d94a15b05941aba5196974ff43fe15b4cbba29b694b35cbc32a1166b232"

def macosSequoiaImage : String := "ghcr.io/cirruslabs/macos-sequoia-base@sha256:" ++
    "fdd8b72a6ee46fc8ad35dc1b9f3b1f162b6607b82a584947d20bb28d3dcb99ed"

def macosTahoeImage : String := "ghcr.io/cirruslabs/macos-tahoe-base:latest"
def windows2025Image : String := "rc-win2025"
def windows2022Image : String := "rc-win2022"

/-- The labels that name an image. -/
def imageCatalog : List (String × ImageCatalogEntry) :=
  [("ubuntu-22.04", ⟨.linux, actionsRunnerImage, false⟩),
    ("ubuntu-24.04", ⟨.linux, actionsRunnerImage, false⟩),
    ("rc-linux", ⟨.linux, actionsRunnerImage, false⟩),
    ("macos-15", ⟨.mac, macosSequoiaImage, false⟩),
    ("macos-26", ⟨.mac, macosTahoeImage, true⟩),
    ("rc-mac", ⟨.mac, macosSequoiaImage, false⟩),
    ("windows-2022", ⟨.win, windows2022Image, false⟩),
    ("windows-2025", ⟨.win, windows2025Image, false⟩),
    ("rc-win", ⟨.win, windows2025Image, false⟩)]

def defaultImageLabel : Os → String
  | .linux => "rc-linux"
  | .mac => "rc-mac"
  | .win => "rc-win"

/-- The first label that names an image. -/
def findImageLabel (labels : List String) : Option String :=
  labels.find? fun label => imageCatalog.any fun entry => entry.1 = label

/-- The image a Worker runs a job with these labels on, if it may. -/
def selectImageForMachine (jobLabels : List String) (machine : Machine) :
    Option ImageCatalogEntry :=
  let imageLabel := findImageLabel jobLabels
  match imageCatalog.lookup (imageLabel.getD (defaultImageLabel machine.os)) with
  | none => none
  | some entry =>
    if entry.os ≠ machine.os then none
    else if entry.preview = true ∧ machine.labels.contains previewOptInLabel = false then none
    else if jobLabels.all fun label =>
        label = "self-hosted" || imageLabel = some label || machine.labels.contains label then
      some entry
    else none

/-! ## Bounded retries -/

def maxProvisionAttempts : ℕ := 3

/-- How long a job waits after a failed attempt. -/
def backoffMs (attempts : ℕ) : ℤ :=
  match attempts with
  | 0 => 0
  | 1 => 15000
  | 2 => 60000
  | _ => 300000

def maxErrorLength : ℕ := 500

/-- `replace(/\s+/g, " ")`; the flag says that the run being replaced has its blank. -/
def collapseSpaces : Bool → List Char → List Char
  | _, [] => []
  | replaced, c :: cs =>
    if isJsSpace c then
      if replaced then collapseSpaces true cs else ' ' :: collapseSpaces true cs
    else c :: collapseSpaces false cs

/-- A short, single-line message for the operator. -/
def summarizeError (error : String) : String :=
  let collapsed := trim (String.ofList (collapseSpaces false error.toList))
  let message := if collapsed = "" then "Unknown error" else collapsed
  if jsLength message ≤ maxErrorLength then message
  else sliceTo message (maxErrorLength - 1) ++ "…"

inductive AttemptOutcome
  | retry (nextAttemptAt : ℤ) (lastError : String)
  | exhausted (lastError : String)

/-- What happens to a job whose provisioning attempt just failed; `attempts` includes this one. -/
def decideAttemptOutcome (attempts : ℕ) (now : ℤ) (error : String) : AttemptOutcome :=
  if attempts ≥ maxProvisionAttempts then .exhausted (summarizeError error)
  else .retry (now + backoffMs attempts) (summarizeError error)

/-! ## Commands and runner registrations -/

/-- Hand a runner registration back to GitHub, when there is one. -/
def enqueueRunnerDeletion (now : ℤ) (command : Command) (job : Option Job) (db : Db) : Db :=
  match command.runnerId, job with
  | some runnerId, some job =>
    { db with
      runnerDeletions := db.runnerDeletions.insert
        { repo := job.repo
          githubInstallationId := job.githubInstallationId
          runnerId := runnerId
          runnerName := command.runnerName
          createdAt := now
          attempts := 0
          lastError := none } }
  | _, _ => db

/-- Delete a command and hand its runner registration back to GitHub. -/
def discardCommand (now : ℤ) (commandId : DocId Command) (command : Command) (job : Option Job)
    (db : Db) : Db :=
  let db := enqueueRunnerDeletion now command job db
  { db with commands := db.commands.delete commandId }

/-- Delete commands, handing their registrations back. -/
def discardCommands (now : ℤ) (commands : List (DocId Command × Command)) (job : Option Job)
    (db : Db) : Db :=
  commands.foldl (fun db r => discardCommand now r.1 r.2 job db) db

section Frame

variable {α : Type} {now : ℤ} {db : Db} {command : Command} {job : Option Job} (view : Db → α)

/-- What does not show a table does not show what is written to it. -/
lemma view_enqueueRunnerDeletion
    (h : ∀ db deletions, view { db with runnerDeletions := deletions } = view db) :
    view (enqueueRunnerDeletion now command job db) = view db := by
  unfold enqueueRunnerDeletion
  split
  · exact h db _
  · rfl

lemma view_discardCommands {commands : List (DocId Command × Command)} (h : ∀ db commands deletions,
      view { db with commands := commands, runnerDeletions := deletions } = view db) :
    view (discardCommands now commands job db) = view db := by
  refine foldl_frame view (fun db r => (h _ _ _).trans ?_) commands db
  exact view_enqueueRunnerDeletion view fun db => h db db.commands

end Frame

variable (now : ℤ) (jobId : DocId Job) (event : WorkflowJobEvent)

/-- The commands of a job. -/
def commandsForJob (db : Db) : List (DocId Command × Command) :=
  db.commands.collect fun command => command.jobId = jobId

/-- `usedSlots: Math.max(0, machine.usedSlots - 1)`, as each job path writes it. -/
def releaseJobSlot (machineId : Option (DocId Machine)) (db : Db) : Db :=
  match machineId with
  | none => db
  | some machineId =>
    match db.machines.get machineId with
    | none => db
    | some machine =>
      db.patchMachine machineId fun stored =>
        { stored with usedSlots := max 0 (machine.usedSlots - 1) }

/-! ## Assignment -/

/-- The arguments of the action that asks GitHub for a command's JIT config. -/
structure IssueJit where
  commandId : DocId Command
  jobId : DocId Job
  repo : String
  githubInstallationId : Option ℕ
  runnerName : String
  labels : List String

/-- A Worker and the slots it has in use as the pass goes on. -/
structure Seat where
  machineId : DocId Machine
  machine : Machine
  usedSlots : ℤ

/-- The Workers with room for a job, each with the image it would run. -/
def seatsFor (job : Job) (seats : List Seat) : List (Seat × ImageCatalogEntry) :=
  seats.filterMap fun seat =>
    if seat.usedSlots ≥ seat.machine.maxSlots then none
    else (selectImageForMachine job.labels seat.machine).map fun entry => (seat, entry)

/-- The first Worker other than the one that just failed this job, or that one. -/
def chooseSeat (job : Job) (seats : List Seat) : Option (Seat × ImageCatalogEntry) :=
  let open_ := seatsFor job seats
  match open_.find? fun s => job.lastFailedMachineId ≠ some s.1.machineId with
  | some choice => some choice
  | none => open_.head?

/-- The name of the Runner of one attempt of a job on a Worker. -/
def runnerNameFor (machine : Machine) (ghJobId attempts : ℕ) : String :=
  s!"rc-{machine.name}-{ghJobId}-{attempts}"

structure AssignState where
  db : Db
  seats : List Seat
  issued : List IssueJit

/-- Assign one job: take a slot, mark the job, and mint a command. -/
def assignJob (s : AssignState) (r : DocId Job × Job) : AssignState :=
  match chooseSeat r.2 s.seats with
  | none => s
  | some (seat, entry) =>
    let attempts := r.2.attempts.getD 0 + 1
    let runnerName := runnerNameFor seat.machine r.2.ghJobId attempts
    let db := s.db.patchMachine seat.machineId fun stored =>
      { stored with usedSlots := seat.usedSlots + 1 }
    let db := db.patchJob r.1 fun stored =>
      { stored with
        status := .assigned
        machineId := some seat.machineId
        runnerName := some runnerName
        attempts := some attempts
        nextAttemptAt := none }
    let command : Command :=
      { machineId := seat.machineId
        jobId := r.1
        jitConfig := none
        image := some entry.image
        runnerName := runnerName
        runnerId := none
        status := .pending
        claimedAt := none
        cancelledAt := none
        exitCode := none
        creationTime := now }
    { db := { db with commands := db.commands.insert command }
      seats := s.seats.map fun other =>
        if other.machineId = seat.machineId then { other with usedSlots := other.usedSlots + 1 }
        else other
      issued := s.issued ++ [⟨db.commands.next, r.1, r.2.repo, r.2.githubInstallationId,
        runnerName, r.2.labels⟩] }

/-- Assign queued jobs to Workers, oldest first; returns the actions it scheduled, one per
assignment. -/
def Scheduler.tryAssign (db : Db) : List IssueJit × Db :=
  let eligible := ((db.jobs.collect fun job => job.status = .queued).filter fun r =>
    r.2.nextAttemptAt.getD 0 ≤ now).insertionSort fun a b => a.2.queuedAt ≤ b.2.queuedAt
  let machines := (db.machines.collect fun machine =>
    machine.lastSeen > now - workerOfflineAfterMs).insertionSort fun a b => a.2.lastSeen ≤ b.2.lastSeen
  let s := eligible.foldl (assignJob now) ⟨db, machines.map fun r => ⟨r.1, r.2, r.2.usedSlots⟩, []⟩
  (s.issued, s.db)

/-- GitHub answered with a JIT config; refused when the command has moved on meanwhile. -/
def storeJitConfig (commandId : DocId Command) (jitConfig : String) (runnerId : Option ℕ)
    (db : Db) : Bool × Db :=
  match db.commands.get commandId with
  | none => (false, db)
  | some command =>
    if command.status ≠ .pending then (false, db)
    else
      (true, db.patchCommand commandId fun stored =>
        { stored with jitConfig := some jitConfig, runnerId := runnerId })

/-- Put a job whose provisioning failed back in the queue behind a backoff, or give up on it. -/
def settleFailedJob (job : Job) (error : String) (failedOn : Option (DocId Machine)) (db : Db) : Db :=
  match decideAttemptOutcome (job.attempts.getD 1) now error with
  | .exhausted lastError =>
    db.patchJob jobId fun stored =>
      { stored with
        status := .failed
        conclusion := some "provision-failed"
        finishedAt := some now
        lastError := some lastError
        machineId := none
        runnerName := none
        nextAttemptAt := none }
  | .retry nextAttemptAt lastError =>
    db.patchJob jobId fun stored =>
      { stored with
        status := .queued
        machineId := none
        runnerName := none
        lastError := some lastError
        nextAttemptAt := some nextAttemptAt
        lastFailedMachineId := failedOn }

/-- Record a failed provisioning attempt.  The command's live ownership wins over the job the
caller captured; without the command, the captured job is the one that failed. -/
def failAttempt (commandId : Option (DocId Command)) (jobId : DocId Job)
    (error : String) (db : Db) : Db :=
  let command := commandId.bind db.commands.get
  let ownerId := (command.map Command.jobId).getD jobId
  let job := db.jobs.get ownerId
  let db := match commandId, command with
    | some commandId, some command => discardCommand now commandId command job db
    | _, _ => db
  match job with
  | none => db
  | some job =>
    if job.status ≠ .assigned then db
    else
      let machineId := job.machineId.orElse fun _ => command.map Command.machineId
      settleFailedJob now ownerId job error machineId (releaseJobSlot machineId db)

/-! ## The Agent -/

structure ClaimedCommand where
  jitConfig : String
  image : Option String
  runnerName : String
  os : Os

/-- The Agent takes a pending command whose JIT config has arrived. -/
def AgentApi.claim (token : String) (commandId : DocId Command) (db : Db) :
    Result (Option ClaimedCommand × Db) := do
  let (machineId, machine) ← machineForToken token db
  match db.commands.get commandId with
  | none => pure (none, db)
  | some command =>
    if command.machineId ≠ machineId ∨ command.status ≠ .pending then return (none, db)
    match command.jitConfig with
    | none => pure (none, db)
    | some jitConfig =>
      pure (some ⟨jitConfig, command.image, command.runnerName, machine.os⟩,
        db.patchCommand commandId fun stored =>
          { stored with status := .claimed, claimedAt := some now, jitConfig := none })

/-- The Agent reports that a command's provisioner exited. -/
def AgentApi.report (token : String) (commandId : DocId Command) (exitCode : ℚ)
    (db : Db) : Result (Bool × Db) := do
  if !isInteger exitCode then throw (.convex "Exit code must be an integer")
  let (machineId, _) ← machineForToken token db
  match db.commands.get commandId with
  | none => pure (false, db)
  | some command =>
    if command.machineId ≠ machineId ∨ command.status = .pending then return (false, db)
    let assigned := (db.jobs.get command.jobId).map Job.status = some .assigned
    if command.status ≠ .cancelled ∧ assigned ∧ exitCode ≠ 0 then
      let code := exitCode.num
      return (true,
        failAttempt now (some commandId) command.jobId s!"Provisioner exited with code {code}" db)
    pure (true, db.patchCommand commandId fun stored =>
      { stored with status := .finished, exitCode := some exitCode })

/-! ## Events -/

def JobStatus.isTerminal : JobStatus → Bool
  | .done | .failed => true
  | .queued | .assigned | .running => false

/-- Whether a command is the live assignment a job records. -/
def isAssignmentOf (job : Job) (command : Command) : Bool :=
  job.runnerName = some command.runnerName && job.machineId = some command.machineId

/-- Move a live command from the job it was minted for to the job GitHub started with it.  When
the latter has a live command of its own the two are swapped; otherwise its stale commands are
discarded, its slot released, and the displaced job goes back to the queue. -/
def displace (commandId : DocId Command) (provisionedId actualId : DocId Job)
    (actual : Job) (db : Db) : Db :=
  let previousCommands := commandsForJob actualId db
  let previousCommand := previousCommands.find? fun r =>
    isAssignmentOf actual r.2 && (r.2.status = .pending || r.2.status = .claimed)
  let moved := db.patchCommand commandId fun stored => { stored with jobId := actualId }
  let requeue (db : Db) := db.patchJob provisionedId fun stored =>
    { stored with status := .queued, machineId := none, runnerName := none, nextAttemptAt := none }
  match previousCommand with
  | some (previousId, previous) =>
    if actual.status = .assigned then
      (moved.patchCommand previousId fun stored => { stored with jobId := provisionedId }).patchJob
        provisionedId fun stored =>
          { stored with
            machineId := some previous.machineId
            runnerName := some previous.runnerName
            nextAttemptAt := none }
    else requeue (discardCommands now previousCommands (some actual) moved)
  | none =>
    let discarded := discardCommands now previousCommands (some actual) moved
    requeue (if actual.status = .assigned then releaseJobSlot actual.machineId discarded
      else discarded)

/-- The row of a job GitHub started on a runner. -/
def adoptedJob (machineId : DocId Machine) (runnerName : String) (attempts : Option ℕ)
    (stored : Job) : Job :=
  { stored with
    status := .running
    machineId := some machineId
    runnerName := some runnerName
    startedAt := some (stored.startedAt.getD now)
    attempts := attempts
    nextAttemptAt := none }

/-- The webhook's runner name is the source of truth: move that runner's command and its slot to
the job GitHub actually started. -/
def adoptRunnerAssignment (actualId : DocId Job) (actual : Job)
    (runnerName : Option String) (db : Db) : Result (Job × Db) :=
  match runnerName with
  | none => pure (actual, db)
  | some runnerName =>
    if actual.status.isTerminal then pure (actual, db)
    else do
      match ← db.commands.unique (.notUnique "commands")
          fun command => command.runnerName = runnerName with
      | none => pure (actual, db)
      | some (commandId, command) =>
        if command.status = .cancelled then return (actual, db)
        match db.jobs.get command.jobId with
        | none => pure (actual, db)
        | some provisioned =>
          if provisioned.repo ≠ actual.repo ∨ provisioned.status ≠ .assigned then
            return (actual, db)
          if command.jobId ≠ actualId ∧ actual.status = .running ∧
              (actual.runnerName ≠ none ∨ actual.machineId ≠ none) then
            return (actual, db)
          let other := command.jobId ≠ actualId
          let attempts := if other then some (actual.attempts.getD 0 + 1) else actual.attempts
          let displaced :=
            if other then displace now commandId command.jobId actualId actual db else db
          let adopted := adoptedJob now command.machineId runnerName attempts
          pure (adopted actual, displaced.patchJob actualId adopted)

/-- The row an event creates for a job that was not known. -/
def newJob (status : JobStatus) (startedAt finishedAt : Option ℤ)
    (conclusion : Option String) : Job where
  ghJobId := event.ghJobId
  githubInstallationId := event.githubInstallationId
  repo := event.repo
  workflowName := event.workflowName
  labels := event.labels
  status := status
  machineId := none
  runnerName := none
  queuedAt := now
  startedAt := startedAt
  finishedAt := finishedAt
  conclusion := conclusion
  attempts := some 0
  lastError := none
  nextAttemptAt := none
  lastFailedMachineId := none
  creationTime := now

/-- The first row of a GitHub job. -/
def jobByGhJobId (ghJobId : ℕ) (db : Db) : Option (DocId Job × Job) :=
  (db.jobs.collect fun job => job.ghJobId = ghJobId).head?

/-- The row of the event's job, inserted as running when there was none. -/
def knownJob (existing : Option (DocId Job × Job)) (db : Db) : (DocId Job × Job) × Db :=
  match existing with
  | some row => (row, db)
  | none =>
    let job := newJob now event .running (some now) none none
    ((db.jobs.next, job), { db with jobs := db.jobs.insert job })

/-- Cancel a settled job's live commands; one that never started hands its registration back. -/
def cancelCommands (neverStarted : Bool) (job : Job)
    (commands : List (DocId Command × Command)) (db : Db) : Db :=
  commands.foldl (fun db r =>
    if r.2.status = .finished ∨ r.2.status = .cancelled then db
    else
      let cancelled := db.patchCommand r.1 fun stored =>
        { stored with status := .cancelled, cancelledAt := some now }
      if neverStarted then enqueueRunnerDeletion now r.2 (some job) cancelled else cancelled) db

/-- The job finished: settle its row, release its slot and cancel its commands. -/
def settleCompleted (conclusion : String) (jobId : DocId Job) (job : Job) (db : Db) : Db :=
  let status := if conclusion = "success" then JobStatus.done else JobStatus.failed
  let settled := db.patchJob jobId fun stored =>
    { stored with
      status := status
      conclusion := some conclusion
      finishedAt := some now
      nextAttemptAt := none }
  let released := releaseJobSlot job.machineId settled
  cancelCommands now (job.status ≠ .running) job (commandsForJob jobId released) released

/-- Apply one `workflow_job` event.  Events arrive in any order: one that finds no row records the
job in the state it proves. -/
def applyWorkflowJob (db : Db) : Result Db := do
  let existing := jobByGhJobId event.ghJobId db
  if existing.isNone && !event.labels.contains "self-hosted" then return db
  match event.action with
  | .queued =>
    match existing with
    | some (jobId, job) =>
      if job.status = .queued ∧ job.githubInstallationId = none ∧ event.githubInstallationId ≠ none then
        return db.patchJob jobId fun stored =>
          { stored with githubInstallationId := event.githubInstallationId }
      pure db
    | none => pure { db with jobs := db.jobs.insert (newJob now event .queued none none none) }
  | .inProgress =>
    let ((jobId, job), db) := knownJob now event existing db
    let (job, db) ← adoptRunnerAssignment now jobId job event.runnerName db
    if job.status = .assigned ∨ job.status = .queued then
      return db.patchJob jobId fun stored =>
        { stored with status := .running, startedAt := some now }
    pure db
  | .completed =>
    let conclusion := event.conclusion.getD "unknown"
    if existing.isNone && event.runnerName.isNone then
      let status := if conclusion = "success" then JobStatus.done else JobStatus.failed
      return { db with
        jobs := db.jobs.insert (newJob now event status none (some now) (some conclusion)) }
    let ((jobId, job), db) := knownJob now event existing db
    let (job, db) ← adoptRunnerAssignment now jobId job event.runnerName db
    if job.status.isTerminal then return db
    pure (settleCompleted now conclusion jobId job db)

/-! ## The operator -/

/-- Drop a job, in any state, with its commands. -/
def dropJob (db : Db) : Db :=
  match db.jobs.get jobId with
  | none => db
  | some job =>
    let discarded := discardCommands now (commandsForJob jobId db) (some job) db
    let released :=
      if job.status = .assigned ∨ job.status = .running then
        releaseJobSlot job.machineId discarded
      else discarded
    { released with jobs := released.jobs.delete jobId }

/-- Force an assigned job back to the queue, with a fresh attempt budget. -/
def requeueJob (db : Db) : Db :=
  match db.jobs.get jobId with
  | none => db
  | some job =>
    if job.status ≠ .assigned then db
    else
      let discarded := discardCommands now (commandsForJob jobId db) (some job) db
      (releaseJobSlot job.machineId discarded).patchJob jobId fun stored =>
        { stored with
          status := .queued
          machineId := none
          runnerName := none
          attempts := some 0
          nextAttemptAt := none
          lastFailedMachineId := none }

end EraInfra
