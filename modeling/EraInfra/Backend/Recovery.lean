import EraInfra.Backend.Webhooks

/-!
# Recovering deliveries that never arrived

GitHub does not retry a failed delivery.  A recovery pass (`recovery.ts`, with its bookkeeping in
`webhooks.ts`) lists GitHub's recent deliveries and asks for a redelivery of those that failed and
left no row here.  It remembers how far it has scanned in `scannedThrough`, the watermark.

A pass is an action of several transactions, so deliveries may arrive while it is under way; the
model says where (`arrivedBeforeScan`, `arrivedBeforeClaim`, `arrivedBeforeFinish`).  What GitHub
answers is an argument of the pass.
-/

namespace EraInfra

open DocStore

/-! ## Constants -/

variable (now : ℤ) (js : Engine)

def recoveryWindowMs : ℤ := 3 * 24 * 60 * 60 * 1000
def maxRecoverableAgeMs : ℤ := 24 * 60 * 60 * 1000
def recoverySeedMs : ℤ := 60 * 60 * 1000
def watermarkOverlapMs : ℤ := 10 * 60 * 1000
def maxPages : ℕ := 3
def maxRedeliveriesPerRun : ℕ := 20
def maxRecoveryAttempts : ℕ := 3
def recoveryScanLimit : ℕ := 100

/-- How long a delivery is left alone after a request. -/
def recoveryBackoffMs (attempts : ℕ) : ℤ :=
  match attempts with
  | 0 => 0
  | 1 => 60000
  | 2 => 300000
  | _ => 1800000

/-- How long recovery rests after failures in a row. -/
def nextRunDelayMs (consecutiveFailures : ℕ) : ℤ :=
  match consecutiveFailures with
  | 0 => 0
  | 1 => 60000
  | 2 => 300000
  | 3 => 900000
  | _ => 3600000

/-! ## What GitHub lists -/

/-- One attempt at a delivery.  `deliveredAt` is `Date.parse(delivered_at)`, absent when that is not
a time. -/
structure DeliveryItem where
  id : ℕ
  guid : String
  deliveredAt : Option ℤ
  statusCode : ℕ
  event : String
deriving DecidableEq, Repr

variable (items : List DeliveryItem)

structure RecoveryCandidate where
  guid : String
  githubDeliveryId : ℕ
  event : String
  deliveredAt : ℤ
  statusCode : ℕ
deriving DecidableEq, Repr

/-- Any status but a success. -/
def isFailedDelivery (item : DeliveryItem) : Bool := item.statusCode < 200 || item.statusCode ≥ 300

/-- One item of the loop that keeps the newest failed attempt of each delivery. -/
def noteFailed (delivered : List String) (now scannedThrough : ℤ)
    (newest : OrderedMap String RecoveryCandidate) (item : DeliveryItem) :
    OrderedMap String RecoveryCandidate :=
  if delivered.contains item.guid || !isFailedDelivery item then newest
  else if item.event ≠ "workflow_job" then newest
  else
    match item.deliveredAt with
    | none => newest
    | some deliveredAt =>
      if deliveredAt ≤ scannedThrough then newest
      else if now - deliveredAt > maxRecoverableAgeMs then newest
      else
        let candidate : RecoveryCandidate :=
          ⟨item.guid, item.id, item.event, deliveredAt, item.statusCode⟩
        match newest.find item.guid with
        | some previous =>
          if previous.deliveredAt ≥ deliveredAt then newest
          else newest.set item.guid candidate
        | none => newest.set item.guid candidate

/-- The deliveries worth redelivering: those no attempt of which succeeded, oldest first and at most
twenty. -/
def selectRecoverable (now scannedThrough : ℤ) :
    List RecoveryCandidate :=
  let delivered := (items.filter fun item => !isFailedDelivery item).map DeliveryItem.guid
  let newest := items.foldl (noteFailed delivered now scannedThrough) []
  ((newest.map Prod.snd).mergeSort fun a b =>
    a.deliveredAt < b.deliveredAt ||
      (a.deliveredAt = b.deliveredAt && (js.localeCompare a.guid b.guid).isLE)).take
    maxRedeliveriesPerRun

/-- Nothing on the page is newer than the watermark. -/
def pageIsExhausted (scannedThrough : ℤ) : Bool := items.all fun item =>
    match item.deliveredAt with
    | none => true
    | some deliveredAt => deliveredAt ≤ scannedThrough

/-- One item of the loop that looks for the newest time. -/
def laterTime (newest : Option ℤ) (item : DeliveryItem) : Option ℤ :=
  match item.deliveredAt, newest with
  | none, _ => newest
  | some deliveredAt, none => some deliveredAt
  | some deliveredAt, some best => if deliveredAt > best then some deliveredAt else some best

def newestDeliveryTime : Option ℤ := items.foldl laterTime none

/-! ## Decisions -/

/-- What is done about a delivery that has not arrived. -/
inductive RecoveryDecision
  | request (attempts : ℕ) (nextAttemptAt : ℤ)
  | skip
  | abandon (attempts : ℕ) (lastError : String)

def neverArrived (attempts : ℕ) : String :=
  s!"GitHub accepted {attempts} redelivery requests but the delivery never arrived"

/-- What to do about one candidate, given what was recorded for it. -/
def decideRecovery (existing : Option WebhookRecovery) (now : ℤ) : RecoveryDecision :=
  match existing with
  | none => .request 1 (now + recoveryBackoffMs 1)
  | some existing =>
    if existing.state ≠ .requested then .skip
    else if now < existing.nextAttemptAt then .skip
    else
      let attempts := existing.attempts + 1
      if attempts > maxRecoveryAttempts then
        .abandon existing.attempts (neverArrived existing.attempts)
      else .request attempts (now + recoveryBackoffMs attempts)

/-- Keep a watermark inside the window GitHub can redeliver from. -/
def clampWatermark (previous now : ℤ) : ℤ := min (max previous (now - recoveryWindowMs)) now

/-- The watermark after a scan: a little behind the newest delivery, and inside the window. -/
def advanceWatermark (previous newestDeliveredAt now : ℤ) : ℤ :=
  clampWatermark (max previous (newestDeliveredAt - watermarkOverlapMs)) now

/-- What a failed call threw: the HTTP status, 0 where there is none, and the message of an
`Error`. -/
structure Thrown where
  status : ℕ
  message : Option String

def Err.message : Err → String
  | .refused _ message => message
  | .convex message => message
  | .internal message => message
  | .notUnique table => s!"unique() query returned more than one result from table {table}"

def Err.thrown (e : Err) : Thrown := ⟨0, some e.message⟩

/-- The error that a failed run records. -/
def describeRecoveryFailure (error : Thrown) (action : String) : String :=
  if error.status > 0 then s!"GitHub responded {error.status} while {action}"
  else
    summarizeError (match error.message with
      | some message => s!"Could not reach GitHub while {action}: {message}"
      | none => s!"Could not reach GitHub while {action}")

/-! ## The bookkeeping -/

inductive RecoveryOutcome
  | pending
  | ok
  | skippedNoApp
  | skippedBackoff
  | error

/-- The one run record: the watermark and the circuit breaker. -/
structure WebhookRecoveryState where
  scannedThrough : ℤ
  lastRunAt : ℤ
  lastSuccessAt : Option ℤ
  nextRunAt : ℤ
  consecutiveFailures : ℕ
  lastOutcome : RecoveryOutcome
  lastError : Option String
  listed : ℕ
  missing : ℕ
  requested : ℕ

structure RecoveryDb extends Db where
  webhookRecoveryState : Table WebhookRecoveryState

def RecoveryDb.empty : RecoveryDb := { Db.empty with webhookRecoveryState := .empty }

def RecoveryDb.patchRecovery (db : RecoveryDb) (i : DocId WebhookRecovery)
    (f : WebhookRecovery → WebhookRecovery) : RecoveryDb :=
  { db with webhookRecovery := db.webhookRecovery.patch i f }

/-- The recovery row of a delivery. -/
def recoveryFor (db : RecoveryDb) (guid : String) :
    Result (Option (DocId WebhookRecovery × WebhookRecovery)) :=
  db.webhookRecovery.unique (.notUnique "webhookRecovery") fun row => row.guid = guid

/-- The row of a delivery that arrived. -/
def arrivalFor (db : RecoveryDb) (guid : String) :
    Result (Option (DocId WebhookDelivery × WebhookDelivery)) :=
  db.webhookDeliveries.unique (.notUnique "webhookDeliveries") fun row => row.deliveryId = guid

/-- Which of these deliveries left no row here. -/
def missingGuids (guids : List String) (db : RecoveryDb) : Result (List String) :=
  guids.foldlM (fun missing guid => do
    match ← arrivalFor db guid with
    | none => pure (missing ++ [guid])
    | some _ => pure missing) []

/-- The row of a delivery whose redelivery is requested for the first time. -/
def requestedRecovery (candidate : RecoveryCandidate) (attempts : ℕ)
    (nextAttemptAt : ℤ) : WebhookRecovery where
  guid := candidate.guid
  githubDeliveryId := candidate.githubDeliveryId
  event := candidate.event
  deliveredAt := candidate.deliveredAt
  statusCode := candidate.statusCode
  attempts := attempts
  firstRequestedAt := now
  lastRequestedAt := now
  nextAttemptAt := nextAttemptAt
  state := .requested
  lastError := none

/-- One candidate of `claimRecovery`. -/
def claimCandidate (state : List (String × ℕ) × RecoveryDb)
    (candidate : RecoveryCandidate) : Result (List (String × ℕ) × RecoveryDb) := do
  let (claimed, db) := state
  let existing ← recoveryFor db candidate.guid
  match decideRecovery (existing.map Prod.snd) now, existing with
  | .skip, _ => pure (claimed, db)
  | .abandon _ lastError, some (rowId, _) =>
    pure (claimed, db.patchRecovery rowId fun row =>
      { row with state := .abandoned, lastError := some lastError })
  | .abandon _ _, none => pure (claimed, db)
  | .request attempts nextAttemptAt, none =>
    pure (claimed ++ [(candidate.guid, candidate.githubDeliveryId)], { db with
      webhookRecovery := db.webhookRecovery.insert
        (requestedRecovery now candidate attempts nextAttemptAt) })
  | .request attempts nextAttemptAt, some (rowId, _) =>
    pure (claimed ++ [(candidate.guid, candidate.githubDeliveryId)], db.patchRecovery rowId fun row =>
        { row with
          githubDeliveryId := candidate.githubDeliveryId
          statusCode := candidate.statusCode
          attempts := attempts
          lastRequestedAt := now
          nextAttemptAt := nextAttemptAt })

/-- Take out the right to ask for these redeliveries.  The attempt is counted before the request is
made. -/
def claimRecovery (candidates : List RecoveryCandidate) (db : RecoveryDb) :
    Result (List (String × ℕ) × RecoveryDb) :=
  candidates.foldlM (claimCandidate now) ([], db)

/-- Record how one redelivery request went. -/
def settleRecovery (guid : String) (error : Option String) (db : RecoveryDb) :
    Result RecoveryDb := do
  match ← recoveryFor db guid with
  | none => pure db
  | some (rowId, _) => pure (db.patchRecovery rowId fun row => { row with lastError := error })

/-- One outstanding row of `reconcileRecovered`. -/
def reconcileRow (state : (ℕ × ℕ) × RecoveryDb)
    (row : DocId WebhookRecovery × WebhookRecovery) : Result ((ℕ × ℕ) × RecoveryDb) := do
  let ((recovered, abandoned), db) := state
  match ← arrivalFor db row.2.guid with
  | some _ =>
    pure ((recovered + 1, abandoned), db.patchRecovery row.1 fun stored =>
      { stored with state := .recovered, lastError := none })
  | none =>
    if row.2.attempts ≥ maxRecoveryAttempts ∧ now ≥ row.2.nextAttemptAt then
      return ((recovered, abandoned + 1), db.patchRecovery row.1 fun stored =>
        { stored with
          state := .abandoned
          lastError := some (row.2.lastError.getD (neverArrived row.2.attempts)) })
    pure ((recovered, abandoned), db)

/-- Close out recovery rows: those whose delivery arrived, and those that spent their attempts. -/
def reconcileRecovered (db : RecoveryDb) : Result ((ℕ × ℕ) × RecoveryDb) :=
  ((db.webhookRecovery.collect fun row => row.state = .requested).take recoveryScanLimit).foldlM
    (reconcileRow now) ((0, 0), db)

/-- Open a pass, or refuse it.  Returns the watermark to scan from. -/
def beginRecoveryRun (db : RecoveryDb) : Option ℤ × RecoveryDb :=
  match db.webhookRecoveryState.rows.head? with
  | none =>
    let scannedThrough := now - recoverySeedMs
    (some scannedThrough, { db with
      webhookRecoveryState := db.webhookRecoveryState.insert {
        scannedThrough
        lastRunAt := now
        lastSuccessAt := none
        nextRunAt := now
        consecutiveFailures := 0
        lastOutcome := .pending
        lastError := none
        listed := 0
        missing := 0
        requested := 0 } })
  | some (stateId, state) =>
    if now < state.nextRunAt then
      (none, { db with
        webhookRecoveryState := db.webhookRecoveryState.patch stateId fun stored =>
          { stored with lastRunAt := now, lastOutcome := .skippedBackoff } })
    else
      (some (clampWatermark state.scannedThrough now), { db with
        webhookRecoveryState := db.webhookRecoveryState.patch stateId fun stored =>
          { stored with lastRunAt := now } })

/-- How a pass ended.  `newestDeliveredAt` is absent when the scan was incomplete. -/
inductive FinishRecoveryRun
  | error (message : String)
  | skippedNoApp
  | ok (newestDeliveredAt : Option ℤ) (listed missing requested : ℕ)

/-- The run record after a pass. -/
def finishedState (result : FinishRecoveryRun) (state : WebhookRecoveryState) :
    WebhookRecoveryState :=
  match result with
  | .error message =>
    let consecutiveFailures := state.consecutiveFailures + 1
    { state with
      lastOutcome := .error
      lastError := some message
      consecutiveFailures
      nextRunAt := now + nextRunDelayMs consecutiveFailures
      scannedThrough := clampWatermark state.scannedThrough now }
  | .skippedNoApp =>
    { state with
      lastOutcome := .skippedNoApp
      lastError := none
      consecutiveFailures := 0
      nextRunAt := now
      scannedThrough := clampWatermark state.scannedThrough now
      listed := 0
      missing := 0
      requested := 0 }
  | .ok newestDeliveredAt listed missing requested =>
    { state with
      lastOutcome := .ok
      lastError := none
      lastSuccessAt := some now
      consecutiveFailures := 0
      nextRunAt := now
      scannedThrough := match newestDeliveredAt with
        | none => clampWatermark state.scannedThrough now
        | some newest => advanceWatermark state.scannedThrough newest now
      listed
      missing
      requested }

/-- Close a pass. -/
def finishRecoveryRun (result : FinishRecoveryRun) (db : RecoveryDb) : RecoveryDb :=
  match db.webhookRecoveryState.rows.head? with
  | none => db
  | some (stateId, state) =>
    { db with
      webhookRecoveryState := db.webhookRecoveryState.patch stateId fun _ =>
        finishedState now result state }

/-! ## A pass -/

/-- What opening a GitHub client gives. -/
inductive Opening
  | threw
  | noApp
  | app

/-- What a pass meets: its clock, GitHub's answers, and the deliveries that arrive meanwhile. -/
structure RecoveryPass where
  now : ℤ
  opening : Opening
  /-- The pages of GitHub's listing; every one but the last names a next cursor. -/
  pages : List (List DeliveryItem)
  /-- The failure of the listing request with this number. -/
  listFails : ℕ → Option Thrown
  /-- The failure of the redelivery request for this attempt. -/
  redeliverFails : ℕ → Option Thrown
  arrivedBeforeScan : List (ℤ × RecordDeliveryArgs)
  arrivedBeforeClaim : List (ℤ × RecordDeliveryArgs)
  arrivedBeforeFinish : List (ℤ × RecordDeliveryArgs)

/-- A delivery arrives. -/
def RecoveryDb.arrive (db : RecoveryDb) (arrival : ℤ × RecordDeliveryArgs) : RecoveryDb :=
  { db with toDb := commit db.toDb ((recordDelivery arrival.1 arrival.2 db.toDb).map Prod.snd) }

/-- The listing loop, with `budget` pages left and `request` the number of the next request.  Returns
the items and whether the page cap cut the scan short. -/
def scanPages (listFails : ℕ → Option Thrown) (scannedThrough : ℤ) :
    ℕ → ℕ → List (List DeliveryItem) → Except Thrown (List DeliveryItem × Bool)
  | 0, _, _ => pure ([], true)
  | budget + 1, request, pages => do
      match listFails request with
      | some failure => throw failure
      | none =>
        match pages with
        | [] => pure ([], false)
        | items :: rest =>
          if rest.isEmpty || pageIsExhausted items scannedThrough then
            return (items, false)
          let (more, truncated) ← scanPages listFails scannedThrough budget (request + 1) rest
          pure (items ++ more, truncated)

/-- The redelivery loop: a refusal is recorded and the loop goes on, an error of the bookkeeping
itself ends it.  Returns how many requests GitHub accepted. -/
def requestRedeliveries (redeliverFails : ℕ → Option Thrown) :
    List (String × ℕ) → ℕ → RecoveryDb → Except Thrown ℕ × RecoveryDb
  | [], requested, db => (.ok requested, db)
  | (guid, githubDeliveryId) :: rest, requested, db =>
    let refuse (failure : Thrown) : Except Thrown ℕ × RecoveryDb :=
      match settleRecovery guid
          (some (describeRecoveryFailure failure "requesting a redelivery")) db with
      | .ok db => requestRedeliveries redeliverFails rest requested db
      | .error e => (.error e.thrown, db)
    match redeliverFails githubDeliveryId with
    | some failure => refuse failure
    | none =>
      match settleRecovery guid none db with
      | .ok db => requestRedeliveries redeliverFails rest (requested + 1) db
      | .error e => refuse e.thrown

/-- The guarded part of a pass: how it ends, and what it leaves for `finish`. -/
def scanAndRequest (pass : RecoveryPass) (scannedThrough : ℤ) (db : RecoveryDb) :
    FinishRecoveryRun × RecoveryDb :=
  let failed (failure : Thrown) : FinishRecoveryRun :=
    .error (describeRecoveryFailure failure "scanning webhook deliveries")
  match scanPages pass.listFails scannedThrough maxPages 0 pass.pages with
  | .error failure => (failed failure, db)
  | .ok (items, pagesTruncated) =>
    let candidates := selectRecoverable js items pass.now scannedThrough
    let truncated := pagesTruncated || candidates.length = maxRedeliveriesPerRun
    let db := pass.arrivedBeforeScan.foldl RecoveryDb.arrive db
    match missingGuids (candidates.map RecoveryCandidate.guid) db with
    | .error e => (failed e.thrown, db)
    | .ok missing =>
      let db := pass.arrivedBeforeClaim.foldl RecoveryDb.arrive db
      match claimRecovery pass.now
          (candidates.filter fun candidate => missing.contains candidate.guid) db with
      | .error e => (failed e.thrown, db)
      | .ok (claimed, db) =>
        match requestRedeliveries pass.redeliverFails claimed 0 db with
        | (.error failure, db) => (failed failure, db)
        | (.ok requested, db) =>
          (.ok (if truncated then none else newestDeliveryTime items) items.length
            missing.dedup.length requested, db)

/-- One pass.  An action that throws keeps what its transactions committed. -/
def runRecovery (pass : RecoveryPass) (db : RecoveryDb) : RecoveryDb :=
  match reconcileRecovered pass.now db with
  | .error _ => db
  | .ok (_, db) =>
    match beginRecoveryRun pass.now db with
    | (none, db) => db
    | (some scannedThrough, db) =>
      match pass.opening with
      | .threw => db
      | .noApp => finishRecoveryRun pass.now .skippedNoApp db
      | .app =>
        let (result, db) := scanAndRequest js pass scannedThrough db
        finishRecoveryRun pass.now result (pass.arrivedBeforeFinish.foldl RecoveryDb.arrive db)

end EraInfra
