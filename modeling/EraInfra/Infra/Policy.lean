import EraInfra.Infra.Schema

/-!
# Rules without a database

`infra/policy.ts` and the checks of `nodeCommandModel.ts`: who may call what, when a Node counts as
live, who gets a lease, and which operations a Node may be asked to run.  A regular expression of
the source is a predicate on texts here.

What the functions of the pipeline ask of the rest of the code (reading a spec file, planning,
checking names, encoding) and of the machine (its variables, its JavaScript engine) comes with an
`Environment`.  Every result holds for any environment, a new one at each call.
-/

namespace EraInfra.Infra

open DocStore

/-! ## Who may call what -/

inductive TokenScope
  | read
  | admin
  | metrics

def TokenScope.text : TokenScope → String
  | .read => "read"
  | .admin => "admin"
  | .metrics => "metrics"

/-- What a token of each scope may do. -/
def scopePermissions : TokenScope → List Permission
  | .read => readOnly
  | .admin => readOnly ++ [.appDeploy, .nodeRun, .nodeAdmin]
  | .metrics => []

structure ApiCaller where
  tokenId : DocId ApiToken
  name : String
  scope : TokenScope

def requireTokenPermission (caller : ApiCaller) (permission : Permission) : Result Unit :=
  refuseIf ((scopePermissions caller.scope).contains permission = false)
    ("A " ++ caller.scope.text ++ " token does not allow " ++ permission.text)

/-- `requirePermission`, given the users row of the caller. -/
def requirePermission (user : Option User) (permission : Permission) : Result Unit :=
  match user with
  | none => throw "Authentication required"
  | some user =>
    refuseIf (can (effectiveRole user.role) permission = false)
      ("The " ++ (effectiveRole user.role).text ++ " role does not allow " ++ permission.text)

/-! ## Liveness -/

def heartbeatIntervalBoundMs : ℤ := 40000
def missedHeartbeats : ℤ := 3
def nodeSilenceMs : ℤ := heartbeatIntervalBoundMs * missedHeartbeats
def failoverGraceMs : ℤ := 20000

/-- A Node that was heard of within the bound. -/
def isNodeLive (lastSeenAt : Option ℤ) (now : ℤ) : Bool :=
  match lastSeenAt with
  | none => false
  | some seen => now - seen ≤ nodeSilenceMs

/-- A Node that was heard of, but not within the bound. -/
def isNodeSilent (lastSeenAt : Option ℤ) (now : ℤ) : Bool :=
  match lastSeenAt with
  | none => false
  | some seen => nodeSilenceMs < now - seen

/-! ## Leases -/

def appLeaseTtlMs : ℤ := 60000

inductive LeaseDecision
  | grant (epoch : ℤ) (renewed : Bool)
  | refuse (heldBy : String) (expiresAt : ℤ)

/-- Who gets a lease: its holder again under the same epoch, another one under a new epoch when it
is free or has lapsed. -/
def decideLease (row : Option AppLease) (holder : String) (now : ℤ) : LeaseDecision :=
  match row with
  | none => .grant 1 false
  | some row =>
    match row.holder with
    | some held =>
      if now < row.expiresAt then
        if held = holder then .grant row.epoch true else .refuse held row.expiresAt
      else .grant (row.epoch + 1) false
    | none => .grant (row.epoch + 1) false

/-- Whether an epoch is that of a live lease. -/
def leaseAdmits (row : Option AppLease) (epoch now : ℤ) : Bool :=
  match row with
  | none => false
  | some row => row.holder ≠ none && row.epoch = epoch && now < row.expiresAt

/-! ## Stages -/

def DeployStage.text : DeployStage → String
  | .queued => "queued"
  | .readingSpec => "reading-spec"
  | .planning => "planning"
  | .building => "building"
  | .deploying => "deploying"
  | .linking => "linking"
  | .done => "done"
  | .failed => "failed"

def isTerminalStage (stage : DeployStage) : Bool := stage = .done || stage = .failed

def activeStages : List DeployStage := [.readingSpec, .planning, .building, .deploying, .linking]

/-- The stages that are not terminal, in the order of `DEPLOY_STAGES`. -/
def openStages : List DeployStage := .queued :: activeStages

def deploymentsKept : ℤ := 1000

/-! ## Texts -/

/-- A text of one character and up to `limit` more. -/
def isWord (first rest : Char → Bool) (limit : ℕ) (text : List Char) : Bool :=
  match text with
  | [] => false
  | c :: cs => first c && cs.all rest && cs.length ≤ limit

def isLowerAlnum (c : Char) : Bool := c.isLower || c.isDigit

/-- `/^[A-Za-z0-9._:-]{1,192}$/`. -/
def isKey (key : String) : Bool :=
  let ok := fun c : Char => c.isAlphanum || ['.', '_', ':', '-'].contains c
  isWord ok ok 191 key.toList

/-- `/^[a-z0-9][a-z0-9-]{0,62}$/`. -/
def isAppName (name : String) : Bool :=
  isWord isLowerAlnum (fun c => isLowerAlnum c || c = '-') 62 name.toList

/-- `/^[A-Za-z0-9][A-Za-z0-9._/:@-]{0,511}$/`. -/
def isImage (image : String) : Bool :=
  isWord Char.isAlphanum (fun c => c.isAlphanum || ['.', '_', '/', ':', '@', '-'].contains c) 511
    image.toList

/-- `/^[A-Za-z_][A-Za-z0-9_]*$/`. -/
def isEnvName (name : String) : Bool :=
  isWord (fun c => c.isAlpha || c = '_') (fun c => c.isAlphanum || c = '_') name.length name.toList

/-- `/^(portless|erainfra)-[a-z0-9-]+(\.service)?$/`. -/
def isPlatformUnit (unit : String) : Bool := ["portless-", "erainfra-"].any fun start =>
    start.toList.isPrefixOf unit.toList &&
      let rest := unit.toList.drop start.length
      let ending := ".service".toList
      let body := if ending.isSuffixOf rest then rest.take (rest.length - ending.length) else rest
      body ≠ [] && body.all fun c => isLowerAlnum c || c = '-'

/-- `/^[a-z0-9][a-z0-9-]{0,62}-net$/`. -/
def isNetworkName (name : String) : Bool :=
  let ending := "-net".toList
  ending.isSuffixOf name.toList && isWord isLowerAlnum (fun c => isLowerAlnum c || c = '-') 62
      (name.toList.take (name.toList.length - ending.length))

/-- `/^[a-z0-9][a-z0-9_.-]{0,126}$/`. -/
def isContainerName (name : String) : Bool :=
  isWord isLowerAlnum (fun c => isLowerAlnum c || ['_', '.', '-'].contains c) 126 name.toList

/-- Whether a text has another one in it, as `includes` finds it. -/
def includes (text part : String) : Bool :=
  text.toList.tails.any fun rest => part.toList.isPrefixOf rest

/-! ## Operations -/

def commandTtlMs : ℤ := 60000

/-- The operations a Node may run, with the names of their arguments. -/
def operationSpecs : List (String × List String) :=
  [("systemctl.restart", ["unit"]), ("systemctl.start", ["unit"]), ("systemctl.stop", ["unit"]),
    ("systemctl.status", ["unit"]), ("service.logs", ["unit", "lines"]), ("disk.usage", []),
    ("system.hostname", []), ("container.logs", ["name", "lines"]), ("container.remove", ["name"]),
    ("container.network.remove", ["name"])]

/-- The characters no argument may hold. -/
def forbiddenCharacters : List Char := [';', '&', '|', '<', '>', '$', Char.ofNat 96, '\n', '\r', '\\']

/-- A line count: decimal digits, from one to the operation's bound. -/
def isLineCount (operation lines : String) : Bool :=
  let bound := if operation = "service.logs" then 10000 else 1000
  let count := lines.toList.foldl (fun n c => 10 * n + (c.toNat - 48)) 0
  lines.toList ≠ [] && lines.toList.all Char.isDigit && 1 ≤ count && count ≤ bound

/-- Refuse an operation that is not allowlisted, or an argument that it does not take. -/
def validateOperation (op : Operation) : Result Unit :=
  match operationSpecs.lookup op.name with
  | none => throw "Operation is not allowlisted"
  | some allowed => do
      op.args.forM fun (key, value) =>
        refuseIf (allowed.contains key = false ∨ value = "" ∨ 128 < jsLength value ∨
          value.toList.any forbiddenCharacters.contains) "Invalid operation argument"
      refuseIf (allowed.contains "unit" ∧ isPlatformUnit ((op.args.lookup "unit").getD "") = false)
        "Unit is not platform-owned"
      refuseIf (allowed.contains "name" ∧
          (if op.name = "container.network.remove" then isNetworkName else isContainerName)
            ((op.args.lookup "name").getD "") = false)
        "Invalid container/network name"
      match op.args.lookup "lines" with
      | none => pure ()
      | some lines => refuseIf (isLineCount op.name lines = false) "Invalid line count"

/-- A command with the arguments of its operation in order, which is how `canonicalJson` writes
it. -/
def NodeCommand.canonical : NodeCommand → NodeCommand
  | .operate op => .operate { op with args := op.args.mergeSort fun a b => a.1 ≤ b.1 }
  | .logs op => .logs { op with args := op.args.mergeSort fun a b => a.1 ≤ b.1 }
  | command => command

/-! ## The environment -/

/-- A service as a Node is given it. -/
structure PayloadService where
  name : String
  image : String
  args : List String
  port : ℤ
  route : String
  env : Env
deriving DecidableEq, Repr

/-- Where a build Node fetches the source of a run. -/
inductive PayloadSource
  | upload (url : String)
  | git (repo ref sha : String)
deriving DecidableEq, Repr

/-- What the claimant of a command is given. -/
inductive Payload
  | operate (operation : Operation)
  | logs (operation : Operation)
  | spec (source : PayloadSource)
  | build (app service : String) (source : PayloadSource) (dir image : String)
  | deploy (app : String) (services : List PayloadService)
deriving DecidableEq, Repr

/-- What planning is given (`planDeploy`). -/
structure PlanInput where
  spec : AppSpec
  defaultNodeId : DocId Node
  /-- The Nodes the spec names, as far as they exist. -/
  nodeIds : List (String × DocId Node)
  placement : Option (List (String × DocId Node))
  images : Option (List (String × String))
  registry : String
  revision : String

/-- What a call is answered by the rest of the code and by the machine. -/
structure Environment where
  engine : Engine
  /-- `hashApiToken`, on a well-formed Node credential. -/
  hashCredential : String → Option String
  /-- `atob`. -/
  atob : String → Option (List UInt8)
  decodeUtf8 : List UInt8 → String
  /-- The length of `JSON.stringify`, in bytes. -/
  servicesBytes : List AppService → ℕ
  payloadBytes : Payload → ℕ
  validateDockerArgs : List String → Option String
  parseSpec : String → String → Except String AppSpec
  planDeploy : Db → PlanInput → Except String DeployPlan
  namespaceRefusal : Db → String → DeployPlan → Option String
  changedNodes : List AppService → DocId Node → List AppService → List (DocId Node)
  ensureRegistryLinks : Db → ℤ → List (DocId Node) → Option String
  registryRefusal : Option String → Option String
  /-- `ERAINFRA_REGISTRY`. -/
  registryAddress : Option String
  /-- `ERAINFRA_APP_DOMAIN`. -/
  appDomain : Option String
  failoverEnabled : Bool
  /-- The identifier of `ERAINFRA_SECRETS_MASTER_KEY`, or why there is none. -/
  requireMasterKey : Except String String

end EraInfra.Infra
