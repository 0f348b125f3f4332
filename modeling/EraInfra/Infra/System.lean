import EraInfra.Core.Run
import EraInfra.Infra.Operator

/-!
# The infrastructure as a system

Everything that changes the tables of deploys, Node commands and log tails, as calls that come in
any order and from anyone.  A call is one transaction: it commits, or it leaves the database as it
was.  It reads one clock; `Forward` says that the clock does not go back from call to call.

A call may come with any environment, so that variables may change and the rest of the code may
answer anything.  A scheduled function is a call like any other: it may come at any time, and more
often than it was scheduled.
-/

namespace EraInfra.Infra

open DocStore

inductive Call
  | heartbeat (args : HeartbeatArgs)
  | check
  | enqueue (user : Option User) (nodeId : DocId Node) (key : String) (command : NodeCommand)
  | cancel (user : Option User) (commandId : DocId CommandRow)
  | claim (credential : String) (commandId : DocId CommandRow) (owner : String)
  | renew (args : ClaimArgs)
  | report (args : ReportArgs)
  | request (caller : ApiCaller) (query : LogQuery) (lines : Option ℤ)
  | consume (caller : ApiCaller) (id : Option (DocId LogTail))
  | expire (id : DocId LogTail)
  | createRun (input : RunInput)
  | tick (id : DocId AppDeployment)
  | kick (app : String)
  | pulse
  | sweepStale
  | afterSweep (id : DocId AppDeployment)
  | removeApp (name : String)
  /-- A Node is enrolled. -/
  | enroll (name : String)
  /-- Credentials, secrets and uploads change. -/
  | outside (nodeCredentials : Table NodeCredential) (appDataKeys : Table AppDataKey)
      (appSecrets : Table AppSecret) (storage : Table StoredFile)

/-- The Node named `name`, created if absent. -/
def ensureNode (name : String) (db : Db) : Result Db := do
  match ← nodeByName db name with
  | some _ => pure db
  | none => pure { db with nodes := db.nodes.insert ⟨name, none, none, none⟩ }

/-- What a call does to the database. -/
def perform (env : Environment) (now : ℤ) (call : Call) (db : Db) : Result Db :=
  match call with
  | .heartbeat args => heartbeat env now args db
  | .check => (check env now db).map Prod.snd
  | .enqueue user nodeId key command => (enqueue env now user nodeId key command db).map Prod.snd
  | .cancel user commandId => cancel now user commandId db
  | .claim credential commandId owner => (claim env now credential commandId owner db).map Prod.snd
  | .renew args => (renew env now args db).map Prod.snd
  | .report args => report env now args db
  | .request caller query lines => (request now caller query lines db).map Prod.snd
  | .consume caller id => (consume now caller id db).map Prod.snd
  | .expire id => pure (expire now id db)
  | .createRun input => (createRun now input db).map Prod.snd
  | .tick id => tick env now id db
  | .kick app => kick env now app db
  | .pulse => pure db
  | .sweepStale => sweepStale now db
  | .afterSweep id => afterSweep env now id db
  | .removeApp name => removeApp now name db
  | .enroll name => ensureNode name db
  | .outside nodeCredentials appDataKeys appSecrets storage =>
    pure { db with nodeCredentials, appDataKeys, appSecrets, storage }

/-- A call, when it is made and what it is answered. -/
structure Event where
  now : ℤ
  env : Environment
  call : Call

/-- The database, and the last clock reading. -/
structure System where
  db : Db
  clock : ℤ

def step (s : System) (e : Event) : System :=
  ⟨DocStore.commit s.db (perform e.env e.now e.call s.db), e.now⟩

/-- The clock does not go back. -/
def Forward (s : System) (e : Event) : Prop := s.clock ≤ e.now

instance (s : System) (e : Event) : Decidable (Forward s e) := by
  unfold Forward
  infer_instance

/-! ## A small installation -/

/-- A database in which nothing is stored yet. -/
def emptyDb : Db where
  nodes := .empty
  nodeCredentials := .empty
  apps := .empty
  appRoutes := .empty
  appDataKeys := .empty
  appSecrets := .empty
  appDeployments := .empty
  appLeases := .empty
  nodeCommands := .empty
  logTails := .empty
  storage := .empty
  deployments := 0

/-- An environment that refuses nothing: credentials are their own hash, texts are their own bytes,
and a plan puts every service on the default Node. -/
def plainEnvironment : Environment where
  engine := asciiEngine
  hashCredential := some
  atob text := some (text.toList.map fun c => UInt8.ofNat c.toNat)
  decodeUtf8 bytes := String.ofList (bytes.map fun b => Char.ofNat b.toNat)
  servicesBytes _ := 0
  payloadBytes _ := 0
  validateDockerArgs _ := none
  parseSpec _ app := .ok ⟨app, []⟩
  planDeploy _ input := .ok
    { nodeId := input.defaultNodeId
      services := input.spec.services.map fun s =>
        ⟨s.name, s.image.getD "image", [], s.port, s.route, none, none⟩
      links := []
      builds := []
      deployNodeIds := []
      urls := [] }
  namespaceRefusal _ _ _ := none
  changedNodes _ _ _ := []
  ensureRegistryLinks _ _ _ := none
  registryRefusal _ := none
  registryAddress := none
  appDomain := none
  failoverEnabled := true
  requireMasterKey := .ok "key"

end EraInfra.Infra
