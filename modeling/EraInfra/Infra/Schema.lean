import EraInfra.Backend.Accounts

/-!
# The infrastructure tables

The rows that deploys, Node commands, log tails and failover are made of (`infra/tables.ts`,
`infra/nodeCommandModel.ts`).  A text identifier of the source is a `DocId`; a field that may be
absent is an `Option`; a time is in milliseconds.

**Left out** — audit rows, provenance, git bindings, mesh links and port allocations, which no
function of this development reads back; a Node's mesh endpoint and its version; and the ciphertext
of a secret: a row holds its plaintext, under its scope.

These functions share no table with the job and Attempt protocol, so they have a database of their
own.
-/

namespace EraInfra.Infra

open DocStore

/-! ## Nodes -/

/-- A host on which Apps run. -/
structure Node where
  name : String
  lastSeenAt : Option ℤ
  /-- When a check first found the Node silent. -/
  failoverSuspectAt : Option ℤ
  /-- The `lastSeenAt` of the silence a failover already ran for. -/
  failoverHandledSeenAt : Option ℤ
deriving DecidableEq, Repr

/-- A credential of a Node, by its hash. -/
structure NodeCredential where
  nodeId : DocId Node
  tokenHash : String
  revokedAt : Option ℤ

/-! ## Apps -/

/-- A record from texts to texts, in insertion order. -/
abbrev Env := List (String × String)

/-- A service of an App, as it is deployed. -/
structure AppService where
  name : String
  image : String
  args : List String
  port : Option ℤ
  /-- The public label; absent means internal only. -/
  route : Option String
  /-- Absent means the App's primary Node. -/
  nodeId : Option (DocId Node)
  env : Option Env
deriving DecidableEq, Repr

structure AppLink where
  name : String
  need : String
  providerNodeId : DocId Node
  providerPort : ℤ
  consumerNodeId : DocId Node
  localPort : ℤ
deriving DecidableEq, Repr

structure SpecService where
  name : String
  build : Option String
  image : Option String
  port : Option ℤ
  route : Option String
  env : Env
  volumes : List String
  node : Option String
  needs : List String
deriving DecidableEq, Repr

/-- A validated App spec. -/
structure AppSpec where
  app : String
  services : List SpecService
deriving DecidableEq, Repr

/-- An App, with its services and where they run. -/
structure App where
  name : String
  nodeId : DocId Node
  services : List AppService
  links : List AppLink
  /-- The spec the last pipeline run deployed. -/
  spec : Option AppSpec
  updatedAt : ℤ
deriving DecidableEq, Repr

/-- A public label, and the Node, image and port that serve it. -/
structure AppRoute where
  name : String
  nodeId : DocId Node
  image : String
  port : ℤ
  app : Option String
  service : Option String
  updatedAt : ℤ
deriving DecidableEq, Repr

/-- Which of an App's secrets: without a service, those of all its services. -/
structure SecretScope where
  app : String
  service : Option String
deriving DecidableEq, Repr

structure AppDataKey where
  scope : SecretScope
  masterKeyId : String

structure AppSecret where
  scope : SecretScope
  name : String
  value : String

/-! ## Leases and runs -/

inductive LeaseOperation
  | deploy
  | failover
deriving DecidableEq, Repr

/-- One per App. -/
structure AppLease where
  app : String
  holder : Option String
  operation : Option LeaseOperation
  epoch : ℤ
  expiresAt : ℤ
  acquiredAt : ℤ

inductive DeployStage
  | queued
  | readingSpec
  | planning
  | building
  | deploying
  | linking
  | done
  | failed
deriving DecidableEq, Repr

inductive TriggerKind
  | git
  | upload
  | manual
  | hubImport
  | failover
deriving DecidableEq, Repr

/-- A file of the database's storage: the URL that serves it. -/
structure StoredFile where
  url : String

/-- Where the source of a run comes from. -/
inductive DeploySource
  | upload (storageId : DocId StoredFile)
  | git (repo ref : String) (sha : Option String)
deriving DecidableEq, Repr

structure PlannedBuild where
  service : String
  dir : String
  image : String
deriving DecidableEq, Repr

/-- What planning decided. -/
structure DeployPlan where
  nodeId : DocId Node
  services : List AppService
  links : List AppLink
  builds : List PlannedBuild
  /-- The Nodes whose services this run starts. -/
  deployNodeIds : List (DocId Node)
  urls : List String
deriving DecidableEq, Repr

structure FailoverMove where
  lostNodeId : DocId Node
  toNodeId : DocId Node
deriving DecidableEq, Repr

/-- A run of the pipeline. -/
structure AppDeployment where
  app : String
  stage : DeployStage
  detail : String
  urls : List String
  error : Option String
  startedAt : ℤ
  finishedAt : Option ℤ
  /-- The Nodes this run deploys to. -/
  targetNodeIds : List (DocId Node)
  /-- The App lease epoch this run holds while it is not terminal. -/
  leaseEpoch : Option ℤ
  trigger : Option TriggerKind
  /-- Absent on a run that is not the pipeline's. -/
  operation : Option LeaseOperation
  source : Option DeploySource
  sourceDeleted : Option Bool
  buildNodeId : Option (DocId Node)
  defaultNodeId : Option (DocId Node)
  keepsPlacement : Option Bool
  port : Option ℤ
  spec : Option AppSpec
  plan : Option DeployPlan
  stageStartedAt : Option ℤ
  failover : Option FailoverMove
deriving DecidableEq, Repr

/-! ## Node commands -/

/-- An operation with its arguments. -/
structure Operation where
  name : String
  args : Env
deriving DecidableEq, Repr

/-- What a Node may be told to do. -/
inductive NodeCommand
  | operate (operation : Operation)
  | deploy (deploymentId : DocId AppDeployment) (operation : Option LeaseOperation)
  | spec (deploymentId : DocId AppDeployment)
  | build (deploymentId : DocId AppDeployment) (service : String)
  | logs (operation : Operation)
deriving DecidableEq, Repr

inductive CommandOutcome
  | success
  | failure
  | unknown
deriving DecidableEq, Repr

inductive CommandStatus
  | pending
  | running
  | success
  | failure
  | unknown
  | cancelled
deriving DecidableEq, Repr

/-- An outcome as a status. -/
def CommandOutcome.status : CommandOutcome → CommandStatus
  | .success => .success
  | .failure => .failure
  | .unknown => .unknown

/-- A row of `nodeCommands`. -/
structure CommandRow where
  nodeId : DocId Node
  idempotencyKey : String
  command : NodeCommand
  app : Option String
  appEpoch : Option ℤ
  createdAt : ℤ
  status : CommandStatus
  unsettled : Bool
  epoch : ℤ
  owner : Option String
  leaseUntil : Option ℤ
  outcome : Option CommandOutcome
  finishedAt : Option ℤ
  /-- The pipeline run this command is a step of. -/
  deploymentId : Option (DocId AppDeployment)
  specText : Option String

/-! ## Log tails -/

structure ApiToken where
  name : String

inductive LogTarget
  | container (app service container : String)
  | unit (unit : String)
deriving DecidableEq, Repr

inductive LogState
  | pending
  | ready
  | failed
deriving DecidableEq, Repr

/-- The last lines of a container or a unit, for one API token. -/
structure LogTail where
  requesterTokenId : DocId ApiToken
  nodeId : DocId Node
  commandId : Option (DocId CommandRow)
  target : LogTarget
  lines : ℤ
  state : LogState
  text : Option String
  truncated : Option Bool
  createdAt : ℤ
  expiresAt : ℤ

/-! ## The database -/

/-- The tables. -/
structure Db where
  nodes : Table Node
  nodeCredentials : Table NodeCredential
  apps : Table App
  appRoutes : Table AppRoute
  appDataKeys : Table AppDataKey
  appSecrets : Table AppSecret
  appDeployments : Table AppDeployment
  appLeases : Table AppLease
  nodeCommands : Table CommandRow
  logTails : Table LogTail
  storage : Table StoredFile
  /-- The `deployments` counter: rows retained in `appDeployments`. -/
  deployments : ℤ

/-- An identifier as it stands in a key or a message. -/
def idText (id : ℕ) : String := toString id

namespace Db

variable (db : Db)

def patchNode (id : DocId Node) (f : Node → Node) : Db := { db with nodes := db.nodes.patch id f }

def patchDeployment (id : DocId AppDeployment) (f : AppDeployment → AppDeployment) : Db :=
  { db with appDeployments := db.appDeployments.patch id f }

def patchLease (id : DocId AppLease) (f : AppLease → AppLease) : Db :=
  { db with appLeases := db.appLeases.patch id f }

def patchCommand (id : DocId CommandRow) (f : CommandRow → CommandRow) : Db :=
  { db with nodeCommands := db.nodeCommands.patch id f }

def patchTail (id : DocId LogTail) (f : LogTail → LogTail) : Db :=
  { db with logTails := db.logTails.patch id f }

end Db

/-- A mutation that failed has thrown an error with a text. -/
abbrev Result := Except String

/-- The error of a `unique` read that finds several rows. -/
def notUnique : String := "unique() query returned more than one result"

end EraInfra.Infra
