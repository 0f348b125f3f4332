import EraInfra.Infra.Pipeline

/-!
# The fleet's tables

The rows that the mesh is computed from (`infra/tables.ts`): Nodes with their mesh endpoint, Apps,
route labels, standalone links and host ports, each with the mark of its last writer, and the
tombstones of what Convex removed.

A deployment is here only what others see of it: its App, its stage and its plan.  The App lease is
left out: it keeps runs from planning and committing, and nothing here relies on that.
-/

namespace EraInfra.Fleet

open DocStore

export Infra (AppService AppLink AppSpec SpecService DeployPlan PlannedBuild DeployStage PlanInput
  Env isNodeLive isAppName notUnique)

/-- A Node, by its row in either of the two node tables of this development. -/
abbrev NodeId := DocId Infra.Node

/-! ## Nodes -/

structure MeshAddress where
  id : String
  relayUrls : List String
  directAddrs : List String

inductive PlacementRole
  | gateway
  | compute
  | database
  | relay

/-- A Node, with the endpoint it has proven. -/
structure Node where
  name : String
  lastSeenAt : Option ℤ
  endpointId : Option String
  meshAddress : Option MeshAddress
  endpointProvenAt : Option ℤ
  placementRoles : List PlacementRole

structure NodeCredential where
  nodeId : NodeId
  tokenHash : String
  revokedAt : Option ℤ

/-- What a Node was given to sign. -/
structure EndpointChallenge where
  nodeId : NodeId
  credentialId : DocId NodeCredential
  address : MeshAddress
  message : String
  expiresAt : ℤ

/-! ## Writers -/

inductive Writer
  | hub
  | convex

/-- Who wrote a row last, and when.  A row of the Hub carries a hash of the Hub row. -/
structure Provenance where
  writer : Writer
  hash : Option String
  time : ℤ

/-- The importer's mark. -/
structure HubOrigin where
  hash : Option String

def provenanceFor (now : ℤ) : Option HubOrigin → Provenance
  | none => ⟨.convex, none, now⟩
  | some hub => ⟨.hub, hub.hash, now⟩

def convexWrite (now : ℤ) : Provenance := provenanceFor now none

/-! ## Apps, routes, links and ports -/

structure App where
  name : String
  nodeId : NodeId
  services : List AppService
  links : List AppLink
  /-- The spec the last pipeline run deployed. -/
  spec : Option AppSpec
  provenance : Option Provenance
  updatedAt : ℤ

/-- Where a label leads. -/
structure AppRoute where
  name : String
  nodeId : NodeId
  image : String
  port : ℤ
  app : Option String
  service : Option String
  provenance : Option Provenance
  updatedAt : ℤ

inductive LinkMaker
  | user
  | deploy

/-- A standalone link. -/
structure MeshLink where
  name : String
  providerNodeId : NodeId
  providerPort : ℤ
  consumerNodeId : NodeId
  localPort : ℤ
  createdBy : Option LinkMaker
  provenance : Option Provenance
  updatedAt : ℤ

/-- A port number. -/
structure HostPort where
  val : ℤ
  valid : 1 ≤ val ∧ val ≤ 65535

/-- A port of a Node, held under a key. -/
structure PortAllocation where
  nodeId : NodeId
  key : String
  port : HostPort
  app : Option String
  allocatedAt : ℤ
  provenance : Option Provenance

inductive TombstoneKind
  | app
  | link

structure Tombstone where
  kind : TombstoneKind
  key : String
  time : ℤ

/-! ## Deployments -/

structure Deployment where
  app : String
  stage : DeployStage
  /-- The spec a commit stores with the App. -/
  spec : Option AppSpec
  plan : Option DeployPlan

/-! ## The database -/

/-- The tables. -/
structure Db where
  nodes : Table Node
  nodeCredentials : Table NodeCredential
  nodeEndpointChallenges : Table EndpointChallenge
  apps : Table App
  appRoutes : Table AppRoute
  meshLinks : Table MeshLink
  portAllocations : Table PortAllocation
  tombstones : Table Tombstone
  appDeployments : Table Deployment

def emptyDb : Db := ⟨.empty, .empty, .empty, .empty, .empty, .empty, .empty, .empty, .empty⟩

/-- The rows of a table, in creation order, as `collect` and `take` read them. -/
def rowsOf {α : Type} (table : Table α) : List α := (table.collect fun _ => true).map Prod.snd

lemma mem_rowsOf {α : Type} {table : Table α} {a : α} :
    a ∈ rowsOf table ↔ ∃ id, table.get id = some a := by
  simp [rowsOf, Table.mem_collect]

def nodeByName (db : Db) (name : String) : Except String (Option (DocId Node × Node)) :=
  db.nodes.unique notUnique fun node => node.name = name

def hasLiveCredential (db : Db) (nodeId : NodeId) : Bool :=
  (rowsOf db.nodeCredentials).any fun credential =>
    credential.nodeId = nodeId && credential.revokedAt = none

end EraInfra.Fleet
