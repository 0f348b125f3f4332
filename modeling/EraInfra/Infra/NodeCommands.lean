import EraInfra.Infra.Secrets

/-!
# Node commands

The command queue of a Node (`infra/nodeCommands.ts`, `infra/logOutput.ts`, `nodeState.pending`).
A command is queued `pending`, claimed under an owner and an epoch for a minute at a time, and ends
with the outcome its Node reports, or cancelled.

What every function writes to a row is one of `claimedRow`, `renewedRow`, `reportedRow` and
`cancelledRow`, so that a reader finds in four places all that can happen to it.

**Left out** — audit rows, and the ticks that `cancel` and `report` schedule: a run may be ticked at
any time.
-/

namespace EraInfra.Infra

open DocStore

/-! ## Credentials -/

variable (env : Environment) (now : ℤ) (credential : String) (row : CommandRow)
  (commandId : DocId CommandRow) (deploymentId : DocId AppDeployment) (nodeId : DocId Node)

/-- The Node a presented credential belongs to. -/
def authenticateNode (db : Db) : Result (Option (DocId Node)) :=
  match env.hashCredential credential with
  | none => pure none
  | some tokenHash => do
      match ← db.nodeCredentials.unique notUnique fun row => row.tokenHash = tokenHash with
      | none => pure none
      | some (_, row) => pure (if row.revokedAt = none then some row.nodeId else none)

/-- The Node a credential belongs to. -/
def requireNode (db : Db) : Result (DocId Node) := do
  match ← authenticateNode env credential db with
  | none => throw "Unauthorized Node credential"
  | some nodeId => pure nodeId

/-! ## The fences -/

def keyOK (key : String) : Result Unit :=
  refuseIf (isKey key = false) "Invalid idempotency key/claim owner"

inductive CommandKind
  | operate
  | deploy
  | spec
  | build
  | logs
deriving DecidableEq, Repr

def NodeCommand.kind : NodeCommand → CommandKind
  | .operate _ => .operate
  | .deploy _ _ => .deploy
  | .spec _ => .spec
  | .build _ _ => .build
  | .logs _ => .logs

/-- The lease operation a command must run under. -/
def leaseOperation : NodeCommand → LeaseOperation
  | .deploy _ operation => operation.getD .deploy
  | _ => .deploy

/-- A command that carries an App lease epoch runs only while that is the App's live lease. -/
def appFence (db : Db) : Result Unit :=
  match row.app, row.appEpoch with
  | some app, some epoch => do
      let (_, lease) ← assertAppLease now app epoch db
      refuseIf (row.command.kind ≠ .operate ∧ lease.operation ≠ some (leaseOperation row.command))
        "App lease operation does not match command"
  | _, _ => pure ()

/-- On which side of a deployment a Node is: it deploys, or it builds. -/
inductive DeployRole
  | deploy
  | build

/-- Whether a run has that role for a Node. -/
def DeployRole.admits (role : DeployRole) (dep : AppDeployment) (nodeId : DocId Node) : Bool :=
  match role with
  | .deploy => dep.targetNodeIds.contains nodeId
  | .build => dep.buildNodeId = some nodeId

/-- The run a command belongs to, while it is live. -/
def activeDeployment
    (operation : LeaseOperation) (role : DeployRole) (db : Db) : Result AppDeployment :=
  match db.appDeployments.get deploymentId with
  | none => throw "Deployment is not active on this Node"
  | some dep =>
    match dep.leaseEpoch with
    | none => throw "Deployment is not active on this Node"
    | some epoch => do
        refuseIf (role.admits dep nodeId = false ∨ isTerminalStage dep.stage)
          "Deployment is not active on this Node"
        let (_, lease) ← assertAppLease now dep.app epoch db
        refuseIf (lease.operation ≠ some operation) "App lease operation does not match command"
        pure dep

structure DeploymentSpec where
  dep : AppDeployment
  app : String
  services : List AppService

/-- What a Node checks of one service before it is given it. -/
def checkService (s : AppService) : Result Unit := do
  refuseIf (isAppName s.name = false ∨ isImage s.image = false ∨
    env.validateDockerArgs s.args ≠ none) "Invalid deployment specification"
  refuseIf ((s.env.getD []).any fun (key, value) => !isEnvName key || 8192 < jsLength value)
    "Invalid plain environment"

/-- The services of a deployment that run on a Node. -/
def deploymentSpec (operation : Option LeaseOperation) (db : Db) :
    Result DeploymentSpec := do
  let dep ← activeDeployment now deploymentId nodeId (operation.getD .deploy) .deploy db
  let stored ← appByName db dep.app
  match placementOf dep stored with
  | none => throw "A stored App specification is required"
  | some placement => do
      let services := servicesOn nodeId placement
      refuseIf (services = [] ∨ 32 < services.length) "Invalid service placement/count"
      refuseIf (isAppName dep.app = false) "Invalid App name"
      services.forM (checkService env)
      refuseIf (64 * 1024 < env.servicesBytes services) "App specification too large"
      pure ⟨dep, dep.app, services⟩

/-! ## Queueing -/

structure CommandInput where
  nodeId : DocId Node
  idempotencyKey : String
  command : NodeCommand
  app : Option String
  appEpoch : Option ℤ
  deploymentId : Option (DocId AppDeployment)

/-- The row of a command nobody has claimed. -/
def queuedRow (input : CommandInput) : CommandRow where
  nodeId := input.nodeId
  idempotencyKey := input.idempotencyKey
  command := input.command
  app := input.app
  appEpoch := input.appEpoch
  createdAt := now
  status := .pending
  unsettled := true
  epoch := 0
  owner := none
  leaseUntil := none
  outcome := none
  finishedAt := none
  deploymentId := input.deploymentId
  specText := none

/-- The command a Node has under a key. -/
def commandByKey (db : Db) (nodeId : DocId Node) (key : String) :
    Result (Option (DocId CommandRow × CommandRow)) :=
  db.nodeCommands.unique notUnique fun row => row.nodeId = nodeId ∧ row.idempotencyKey = key

/-- The commands of a Node with a status, in the order they were queued. -/
def commandsWith (db : Db) (nodeId : DocId Node) (status : CommandStatus) :
    List (DocId CommandRow × CommandRow) :=
  db.nodeCommands.collect fun row => row.nodeId = nodeId ∧ row.status = status

/-- Queue a command, or find the one already queued under the same Node and key. -/
def insertNodeCommand (input : CommandInput) (db : Db) : Result (DocId CommandRow × Db) := do
  keyOK input.idempotencyKey
  match ← commandByKey db input.nodeId input.idempotencyKey with
  | some (id, prior) =>
    refuseIf (prior.command.canonical ≠ input.command.canonical)
      "Idempotency key reused for different command"
    pure (id, db)
  | none =>
    refuseIf (200 ≤ ((commandsWith db input.nodeId .pending).take 201).length)
      "Node command queue is full"
    pure (db.nodeCommands.next,
      { db with nodeCommands := db.nodeCommands.insert (queuedRow now input) })

/-- What a person may queue. -/
def enqueue (user : Option User) (nodeId : DocId Node)
    (idempotencyKey : String) (command : NodeCommand) (db : Db) :
    Result (DocId CommandRow × Db) := do
  refuseIf (command.kind = .spec ∨ command.kind = .build)
    "Spec and build commands are issued by the deploy pipeline only"
  refuseIf (command.kind = .logs) "Ask for logs through /api/v1/logs, which binds them to the requester"
  requirePermission user (if command.kind = .operate then .nodeRun else .appDeploy)
  keyOK idempotencyKey
  refuseIf (db.nodes.get nodeId = none) "No such Node"
  match ← commandByKey db nodeId idempotencyKey with
  | some (id, prior) =>
    refuseIf (prior.command.canonical ≠ command.canonical)
      "Idempotency key reused for different command"
    pure (id, db)
  | none =>
    match command with
    | .operate operation =>
      validateOperation operation
      insertNodeCommand now ⟨nodeId, idempotencyKey, command, none, none, none⟩ db
    | .deploy deploymentId operation =>
      let spec ← deploymentSpec env now deploymentId nodeId operation db
      insertNodeCommand now
        ⟨nodeId, idempotencyKey, command, some spec.dep.app, spec.dep.leaseEpoch, none⟩ db
    | _ => throw "unreachable"

/-! ## Cancelling -/

/-- The row of a command that will not run any more. -/
def cancelledRow : CommandRow :=
  { row with status := .cancelled, unsettled := false, finishedAt := some now }

/-- Whether a command has not ended. -/
def CommandRow.isOpen : Bool := row.status = .pending || row.status = .running

/-- Cancel a command that has not ended. -/
def cancelOpen (db : Db) (entry : DocId CommandRow × CommandRow) : Db :=
  if entry.2.isOpen then db.patchCommand entry.1 (cancelledRow now) else db

/-- An operator's cancellation; a command that has ended stays as it is. -/
def cancel (user : Option User) (commandId : DocId CommandRow) (db : Db) : Result Db :=
  match db.nodeCommands.get commandId with
  | none => throw "No such command"
  | some row => do
      requirePermission user
        (if row.command.kind = .operate ∨ row.command.kind = .logs then .nodeRun else .appDeploy)
      pure (cancelOpen now db (commandId, row))

/-! ## Claims -/

/-- The command, if it is of the Node the credential belongs to. -/
def ownCommand (db : Db) :
    Result CommandRow := do
  let nodeId ← requireNode env credential db
  match db.nodeCommands.get commandId with
  | none => throw "Command not found on this Node"
  | some row =>
    refuseIf (row.nodeId ≠ nodeId) "Command not found on this Node"
    pure row

structure ClaimArgs where
  credential : String
  commandId : DocId CommandRow
  owner : String
  epoch : ℤ

variable (args : ClaimArgs)

/-- Whether a command is running under a lease that has not lapsed. -/
def CommandRow.isLeased (now : ℤ) : Bool := row.status = .running && now < row.leaseUntil.getD 0

/-- The row of a live claim. -/
def claimed (db : Db) : Result CommandRow := do
  let row ← ownCommand env args.credential args.commandId db
  refuseIf (row.isLeased now = false ∨ row.owner ≠ some args.owner ∨ row.epoch ≠ args.epoch)
    "Stale command claim"
  appFence now row db
  pure row

/-- The row of a command that has been claimed anew. -/
def claimedRow (owner : String) (row : CommandRow) : CommandRow := { row with
    status := .running, owner := some owner, epoch := row.epoch + 1
    leaseUntil := some (now + commandTtlMs) }

/-- The running commands of a Node that stand in the way of another one. -/
def hasOtherActive (db : Db) : Bool :=
  let active := (commandsWith db nodeId .running).take 201
  200 < active.length || active.any fun (id, row) => id ≠ commandId && now < row.leaseUntil.getD 0

structure Claim where
  epoch : ℤ
  leaseUntil : ℤ

/-- Claim a command for a process.  A live claim is answered to its owner again; a lapsed one
begins a new epoch, if no other command of the Node is active. -/
def claim (owner : String) (db : Db) : Result (Claim × Db) := do
  keyOK owner
  let row ← ownCommand env credential commandId db
  appFence now row db
  refuseIf (row.isOpen = false) "Command is terminal"
  if row.isLeased now then
    refuseIf (row.owner ≠ some owner) "Command is already claimed"
    pure (⟨row.epoch, row.leaseUntil.getD 0⟩, db)
  else
    -- one command at a time on the entire Node
    refuseIf (hasOtherActive now commandId row.nodeId db) "Node has another active command"
    pure (⟨row.epoch + 1, now + commandTtlMs⟩, db.patchCommand commandId (claimedRow now owner))

/-- The row of a claim that has been extended. -/
def renewedRow : CommandRow := { row with leaseUntil := some (now + commandTtlMs) }

/-- Extend a live claim. -/
def renew (db : Db) : Result (ℤ × Db) := do
  let _ ← claimed env now args db
  pure (now + commandTtlMs, db.patchCommand args.commandId (renewedRow now))

/-! ## Reports -/

def maxLogBytes : ℕ := 128 * 1024

/-- `Math.ceil(MAX_LOG_BYTES / 3) * 4`. -/
def maxLogBase64 : ℕ := (maxLogBytes + 2) / 3 * 4

def isBase64Char (c : Char) : Bool := c.isAlphanum || c = '+' || c = '/'

/-- `/^[A-Za-z0-9+/]*={0,2}$/`. -/
def isBase64 (text : String) : Bool :=
  let rest := text.toList.dropWhile isBase64Char
  rest.all (· = '=') && rest.length ≤ 2

/-- The bytes of a log, if the text is canonical and not too long. -/
def decodeBase64 (text : String) : Option (List UInt8) :=
  if maxLogBase64 < text.length ∨ isBase64 text = false ∨ text.length % 4 ≠ 0 then none
  else env.atob text

/-- What a Node reports of a command. -/
structure ReportArgs extends ClaimArgs where
  outcome : CommandOutcome
  spec : Option String
  output : Option String
  truncated : Option Bool

/-- The tail a Node has uploaded. -/
def readyTail (bytes : List UInt8) (truncated : Option Bool) (row : LogTail) :
    LogTail :=
  { row with
    state := .ready, text := some (env.decodeUtf8 bytes), truncated := some (truncated = some true) }

/-- Store what a Node uploaded with the result of a `logs` command. -/
def recordLogOutput (result : ReportArgs) (db : Db) : Result Db := do
  match ← db.logTails.unique notUnique fun row => row.commandId = some commandId with
  | none => pure db
  | some (id, row) =>
    -- expired, or read already: the output is dropped
    if row.state ≠ .pending then return db
    if result.outcome ≠ .success then
      return db.patchTail id fun row => { row with state := .failed }
    match decodeBase64 env (result.output.getD "") with
    | none => throw "Log output is not base64 of at most 128 KiB"
    | some bytes =>
      refuseIf (maxLogBytes < bytes.length) "Log output is not base64 of at most 128 KiB"
      pure (db.patchTail id (readyTail env bytes result.truncated))

def maxSpecBytes : ℕ := 64 * 1024

/-- The row of a command that has ended with an outcome. -/
def reportedRow (outcome : CommandOutcome) (spec : Option String) (row : CommandRow) :
    CommandRow :=
  { row with
    status := outcome.status, unsettled := false, outcome := some outcome, finishedAt := some now
    specText := spec.orElse fun _ => row.specText }

/-- The outcome of a claimed command, with what its kind may carry. -/
def report (args : ReportArgs) (db : Db) : Result Db := do
  let row ← ownCommand env args.credential args.commandId db
  -- the exact report may be repeated, but not under a stale epoch or by another owner
  if row.status = args.outcome.status ∧ row.owner = some args.owner ∧ row.epoch = args.epoch then
    return db
  let _ ← claimed env now args.toClaimArgs db
  refuseIf (args.spec ≠ none ∧ (row.command.kind ≠ .spec ∨ args.outcome ≠ .success))
    "Only a successful spec command reports a spec"
  refuseIf (∃ spec ∈ args.spec, maxSpecBytes < spec.utf8ByteSize) "Spec file too large"
  refuseIf ((args.output ≠ none ∨ args.truncated ≠ none) ∧
      (row.command.kind ≠ .logs ∨ args.outcome ≠ .success))
    "Only a successful logs command reports output"
  let db ← if row.command.kind = .logs then recordLogOutput env args.commandId args db else pure db
  pure (db.patchCommand args.commandId (reportedRow now args.outcome args.spec))

/-! ## What a Node reads -/

def maxStatusIds : ℕ := 200

/-- The status of commands this Node holds journal keys for; `none` is `missing`.  An identifier is
what `normalizeId` makes of the text it was given as. -/
def statuses (commandIds : List (Option (DocId CommandRow)))
    (db : Db) : Result (List (Option CommandStatus)) := do
  let nodeId ← requireNode env credential db
  refuseIf (maxStatusIds < commandIds.length) "Too many command ids"
  pure (commandIds.map fun id =>
    ((id.bind db.nodeCommands.get).filter fun row => row.nodeId = nodeId).map CommandRow.status)

/-- A command as a page lists it. -/
structure ListedCommand where
  id : DocId CommandRow
  idempotencyKey : String
  kind : CommandKind

def pageSize : ℕ := 25

/-- A page of the commands a Node may claim, among those after `cursor`. -/
def pending (cursor : Option (DocId CommandRow))
    (db : Db) : Result (List ListedCommand × Option (DocId CommandRow)) := do
  let nodeId ← requireNode env credential db
  let rest := (db.nodeCommands.collect fun row => row.nodeId = nodeId ∧ row.unsettled).filter
    fun entry => cursor.all (· < entry.1)
  let page := rest.take pageSize
  pure ((page.filter fun entry => entry.2.isOpen && !entry.2.isLeased now).map
      fun entry => ⟨entry.1, entry.2.idempotencyKey, entry.2.command.kind⟩,
    if rest.length ≤ pageSize then none else (page.getLast?).map Prod.fst)

/-! ## Payloads -/

/-- Where the source of a run is fetched. -/
def sourceOf (dep : AppDeployment) (db : Db) : Result PayloadSource :=
  match dep.source with
  | none => throw "This deployment has no source"
  | some (.upload storageId) => do
      refuseIf (dep.sourceDeleted = some true) "This deployment's upload is gone"
      match db.storage.get storageId with
      | none => throw "This deployment's upload is gone"
      | some file => pure (.upload file.url)
  | some (.git repo ref sha) => pure (.git repo ref (sha.getD ""))

/-- The characters that an environment file cannot hold in a value. -/
def isMultiline (value : String) : Bool :=
  value.toList.any fun c => c = '\r' || c = '\n' || c = Char.ofNat 0

/-- The environment a service is started with. -/
def serviceEnv (scopes : DeploySecrets) (s : AppService) : Env :=
  let env := (s.env.getD []).assign scopes.appWide |>.assign ((scopes.services.lookup s.name).getD [])
  match (s.env.getD []).lookup "PORT" with
  | some port => if port = "" then env else env.set "PORT" port
  | none => env

/-- A service as it is sent to a Node. -/
def payloadService (scopes : DeploySecrets) (s : AppService) : Result PayloadService := do
  let env := serviceEnv scopes s
  refuseIf (env.any fun entry => isMultiline entry.2)
    "Multiline environment values are not supported by env-file deployment"
  pure ⟨s.name, s.image, s.args, s.port.getD 0, s.route.getD "", env⟩

/-- What a Node is sent to deploy. -/
def deployPayload (operation : Option LeaseOperation) (db : Db) :
    Result Payload := do
  let spec ← deploymentSpec env now deploymentId row.nodeId operation db
  let scopes ← secretsForNodeDeploy env now row.nodeId deploymentId db
  let services ← spec.services.mapM (payloadService scopes)
  let result := Payload.deploy spec.app services
  refuseIf (200 * 1024 < env.payloadBytes result) "Deployment payload too large"
  pure result

/-- What the claimant of a command is given to run it. -/
def payload (db : Db) : Result Payload := do
  let row ← claimed env now args db
  match row.command with
  | .operate operation => pure (.operate operation)
  | .logs operation =>
    refuseIf (operation.name ≠ "container.logs" ∧ operation.name ≠ "service.logs")
      "A logs command runs a logs operation only"
    pure (.logs operation)
  | .spec deploymentId =>
    let dep ← activeDeployment now deploymentId row.nodeId .deploy .build db
    refuseIf (dep.stage ≠ .readingSpec) "Deployment is past its spec step"
    let source ← sourceOf dep db
    pure (.spec source)
  | .build deploymentId service =>
    let dep ← activeDeployment now deploymentId row.nodeId .deploy .build db
    match (dep.plan.map DeployPlan.builds).bind fun builds =>
        builds.find? fun build => build.service = service with
    | none => throw "Deployment has no such build step"
    | some build =>
      refuseIf (dep.stage ≠ .building) "Deployment has no such build step"
      let source ← sourceOf dep db
      pure (.build dep.app service source build.dir build.image)
  | .deploy deploymentId operation => deployPayload env now row deploymentId operation db

end EraInfra.Infra
