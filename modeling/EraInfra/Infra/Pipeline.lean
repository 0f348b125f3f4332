import EraInfra.Infra.NodeCommands

/-!
# The deploy pipeline

A deploy or failover run as a state machine over its `appDeployments` row (`infra/pipeline.ts`,
`deployments.createDeployment` and `deployments.sweepStale`):

    queued → reading-spec → planning → building → deploying → linking → done

and `failed` from any of them.  A run holds its App's lease from the moment it leaves `queued` until
it is terminal.  A step that needs a Node is a Node command; the run waits until it has ended.

`finish`, `begin` and `runStage` call each other within one transaction, as in the source; a run is
passed along as the row that was read, together with its identifier.

**Left out** — git bindings and audit rows, and the ticks and kicks that are scheduled: any of the
entry points may be called at any time.
-/

namespace EraInfra.Infra

open DocStore

variable (env : Environment) (now : ℤ) (id : DocId AppDeployment) (app : String)
  (run : AppDeployment) (plan : DeployPlan) (nodeId : DocId Node)

/-- How long a step may take. -/
def stepTimeoutMs : NodeCommand → ℤ
  | .build _ _ => 15 * 60000
  | .spec _ => 2 * 60000
  | _ => 5 * 60000

def queueAllowanceMs : ℤ := 5 * 60000
def queuedRunTimeoutMs : ℤ := 60 * 60000

/-- The name under which a run holds its App's lease. -/
def holderOf : String := "deployment:" ++ idText id

/-- One command per run, step and Node. -/
def stepKey (step : String) (nodeId : DocId Node) : String :=
  idText id ++ ":" ++ step ++ ":" ++ idText nodeId

/-- One removal per run, service and lost Node. -/
def retireKey (service : String) (nodeId : DocId Node) : String :=
  idText id ++ ":retire-" ++ service ++ ":" ++ idText nodeId

def containerName (app service : String) : String := app ++ "-" ++ service

/-! ## Creating runs -/

structure RunInput where
  app : String
  operation : LeaseOperation
  trigger : TriggerKind
  source : Option DeploySource
  buildNodeId : Option (DocId Node)
  defaultNodeId : Option (DocId Node)
  port : Option ℤ
  failover : Option FailoverMove

/-- The row of a run that has not started. -/
def queuedRun (input : RunInput) : AppDeployment where
  app := input.app
  stage := .queued
  detail := DeployStage.queued.text
  urls := []
  error := none
  startedAt := now
  finishedAt := none
  targetNodeIds := []
  leaseEpoch := none
  trigger := some input.trigger
  operation := some input.operation
  source := input.source
  sourceDeleted := none
  buildNodeId := input.buildNodeId
  defaultNodeId := input.defaultNodeId
  keepsPlacement := none
  port := input.port
  spec := none
  plan := none
  stageStartedAt := none
  failover := input.failover

/-- The rows beyond the newest that are kept, oldest first. -/
def excessRuns (db : Db) (excess : ℕ) : List (DocId AppDeployment × AppDeployment) :=
  ((db.appDeployments.collect fun _ => true).mergeSort
    fun a b => a.2.startedAt ≤ b.2.startedAt).take excess

/-- Insert a run and trim the history. -/
def createDeployment (row : AppDeployment) (db : Db) : DocId AppDeployment × Db :=
  let id := db.appDeployments.next
  let retained := db.deployments + 1
  let db := { db with appDeployments := db.appDeployments.insert row, deployments := retained }
  if deploymentsKept < retained then
    let excess := excessRuns db (retained - deploymentsKept).toNat
    (id, { db with
      appDeployments := (excess.map Prod.fst).foldl Table.delete db.appDeployments
      deployments := retained - excess.length })
  else (id, db)

/-- Queue a run. -/
def createRun (input : RunInput) (db : Db) : Result (DocId AppDeployment × Db) := do
  refuseIf (isAppName input.app = false) "App names are lowercase alphanumeric + dashes"
  let (id, db) := createDeployment (queuedRun now input) db
  -- the fields of the pipeline are patched in afterwards
  refuseIf (db.appDeployments.get id = none) "Update on nonexistent document"
  pure (id, db)

/-! ## Ending runs -/

/-- The parts of ending a run that do not need its lease. -/
def cleanUp (db : Db) : Db :=
  let steps := (db.nodeCommands.collect fun row => row.deploymentId = some id).take 100
  let db := steps.foldl (cancelOpen now) db
  match run.source with
  | some (.upload storageId) =>
    if run.sourceDeleted = some true then db
    else
      { db with storage := db.storage.delete storageId }.patchDeployment id fun run =>
        { run with sourceDeleted := some true }
  | _ => db

/-- How a run ends. -/
structure RunResult where
  stage : DeployStage
  detail : String
  error : Option String
  urls : Option (List String)

/-- The row of a run that has ended. -/
def finishedRun (result : RunResult) (run : AppDeployment) : AppDeployment := { run with
    stage := result.stage, detail := result.detail, finishedAt := some now
    error := result.error.orElse fun _ => run.error
    urls := result.urls.getD run.urls }

/-- Give up the lease of a run that holds one. -/
def releaseRunLease (db : Db) : Result Db :=
  match run.leaseEpoch with
  | none => pure db
  | some epoch => releaseAppLease run.app epoch db

/-- `cleanUp` of a run as it now stands. -/
def cleanUpStored (db : Db) : Db :=
  match db.appDeployments.get id with
  | none => db
  | some run => cleanUp now id run db

/-- End a run: record the terminal stage, give up its lease, cancel its unsettled steps. -/
def finish (result : RunResult) (db : Db) :
    Result Db := do
  let db := db.patchDeployment id (finishedRun now result)
  let db ← releaseRunLease run db
  pure (cleanUpStored now id db)

/-- A run that cannot go on. -/
def fail (error : String) (db : Db) :
    Result Db :=
  finish now id run ⟨.failed, run.stage.text, some error, none⟩ db

/-! ## Where Apps run -/

/-- The live Nodes, by name. -/
def liveNodes (db : Db) : List (DocId Node × Node) :=
  (((db.nodes.collect fun _ => true).take 500).filter fun node =>
    isNodeLive node.2.lastSeenAt now).mergeSort
      fun a b => env.engine.localeCompare a.2.name b.2.name ≠ .gt

structure Placement where
  nodeId : DocId Node
  services : List (String × DocId Node)

/-- Where an existing App runs now. -/
def currentPlacement (db : Db) : Result (Option Placement) := do
  match ← appByName db app with
  | some (_, row) =>
    pure (some ⟨row.nodeId, row.services.map fun s => (s.name, s.nodeOf row.nodeId)⟩)
  | none =>
    match ← routeByName db app with
    | none => pure none
    | some (_, route) =>
      if isSingleContainerRoute route (loadRouteOwner db route) then
        pure (some ⟨route.nodeId, []⟩)
      else pure none

def notLiveRefusal (app node : String) : String :=
  "App \"" ++ app ++ "\" runs on " ++ node ++ ", which is not connected to Convex (it is down, or " ++
    "still in Hub mode). A deploy that names no Node keeps the App where its volumes are. Bring " ++
    node ++ " back, or name another Node with --node to move the App there with empty volumes; " ++
    "failover is what moves Apps off a lost Node."

/-- The name of a Node, or its identifier when it is gone. -/
def nodeLabel (db : Db) (id : DocId Node) : String := ((db.nodes.get id).map Node.name).getD (idText id)

/-! ## Steps -/

/-- Where a step stands. -/
inductive StepState
  | wait
  | done (command : CommandRow)
  | failed (error : String)

/-- Where a step's command stands. -/
def stepState (node : Option Node) (name step : String) (command : NodeCommand)
    (row : CommandRow) : StepState :=
  match row.status with
  | .success => .done row
  | .failure => .failed (step ++ " failed on " ++ name ++ "; the Infra Agent's log says why")
  | .unknown =>
    .failed (step ++ " on " ++ name ++ " ended with an unknown outcome (the Infra Agent restarted" ++
      " mid-step); inspect the Node before deploying again")
  | .cancelled => .failed (step ++ " on " ++ name ++ " was cancelled")
  | .pending | .running =>
    if isNodeLive (node.bind Node.lastSeenAt) now = false then
      .failed (name ++ " has stopped sending heartbeats")
    else if stepTimeoutMs command + queueAllowanceMs < now - row.createdAt then
      .failed (step ++ " on " ++ name ++ " timed out")
    else .wait

/-- Queue a step's command, under its own key, and report where it stands. -/
def runStep (step : String) (command : NodeCommand) (db : Db) : Result (StepState × Db) := do
  let node := db.nodes.get nodeId
  let (commandId, db) ← insertNodeCommand now
    ⟨nodeId, stepKey id step nodeId, command, some run.app, run.leaseEpoch, some id⟩ db
  match db.nodeCommands.get commandId with
  | none => throw "unreachable"
  | some row => pure (stepState now node (nodeLabel db nodeId) step command row, db)

/-- What comes of a stage: the run goes on, with its row, or it waits. -/
abbrev Stage := Option AppDeployment × Db

/-- The row of a run that goes on to another stage. -/
def movedRun (stage : DeployStage) (detail : String) (extra : AppDeployment → AppDeployment)
    (run : AppDeployment) : AppDeployment :=
  extra { run with stage := stage, detail := detail, stageStartedAt := some now }

/-- Go on to another stage; the answer is the stored row. -/
def moveTo (stage : DeployStage) (detail : String)
    (extra : AppDeployment → AppDeployment) (db : Db) : Stage :=
  let db := db.patchDeployment id (movedRun now stage detail extra)
  (db.appDeployments.get id, db)

/-- A stage that ends the run. -/
def stageFail (error : String) (db : Db) :
    Result Stage := do
  let db ← fail now id run error db
  pure (none, db)

/-! ## Reading the spec -/

/-- `/^[a-z0-9]([a-z0-9-]{0,61}[a-z0-9])?$/`. -/
def isRouteLabel (label : String) : Bool :=
  isWord isLowerAlnum (fun c => isLowerAlnum c || c = '-') 62 label.toList &&
    label.toList.getLast? ≠ some '-'

/-- Why the label that `route: true` gives is not served. -/
def derivedLabelError (service route : String) : String :=
  "service \"" ++ service ++ "\": route: true gives the label \"" ++ route ++ "\" (" ++
    toString (jsLength route) ++ " characters), which is not served: a route label is a DNS label: " ++
    "at most 63 characters, lowercase letters, digits and dashes, starting and ending with a letter " ++
    "or digit. Name the label explicitly (route: <label>)"

/-- The spec of a repository with no spec file. -/
def implicitSpec (port : ℤ) : AppSpec :=
  ⟨app, [⟨"web", some ".", none, some port, some app, [], [], none, []⟩]⟩

/-- The spec a run deploys: the parsed file, or the one its port implies. -/
def readSpec (text : String) : Except String AppSpec := do
  let spec ←
    if trim text ≠ "" then env.parseSpec text run.app
    else
      match run.port with
      | some port =>
        refuseIf (isRouteLabel run.app = false) (derivedLabelError "web" run.app)
        pure (implicitSpec run.app port)
      | none => throw "the source has no erainfra.yaml or portless.yaml; add one, or set a port"
  refuseIf (spec.app ≠ run.app)
    ("the spec names App \"" ++ spec.app ++ "\", but this run deploys \"" ++ run.app ++ "\"")
  pure spec

/-- Have the build Node read the spec file. -/
def readingSpecStage (db : Db) : Result Stage := do
  match run.buildNodeId with
  | none => throw "unreachable"
  | some nodeId =>
    let (state, db) ← runStep now id run nodeId "spec" (.spec id) db
    match state with
    | .wait => pure (none, db)
    | .failed error => stageFail now id run error db
    | .done command =>
      match readSpec env run (command.specText.getD "") with
      | .error error => stageFail now id run error db
      | .ok spec =>
        pure (moveTo now id .planning "planning placement and ports"
          (fun run => { run with spec := some spec }) db)

/-! ## Planning -/

/-- Cancel the queued retirements of the containers a run starts on a Node. -/
def cancelRetirements (containers : List String) (db : Db) : Db :=
  let pending := (commandsWith db nodeId .pending).take 200
  let retired := pending.filter fun entry =>
    match entry.2.command with
    | .operate op =>
      op.name = "container.remove" && containers.contains ((op.args.lookup "name").getD "") &&
        includes entry.2.idempotencyKey ":retire-"
    | _ => false
  retired.foldl (cancelOpen now) db

/-- What planning starts from. -/
structure PlanBase where
  spec : AppSpec
  defaultNodeId : DocId Node
  placement : Option (List (String × DocId Node))
  images : Option (List (String × String))
  /-- The App row of a failover. -/
  before : Option App

/-- How a failover or a deploy is planned, or why the run ends here. -/
inductive PlanStart
  | plan (base : PlanBase) (db : Db)
  | ended (result : RunResult)

/-- A failover keeps every service in its place but those of the lost Node. -/
def failoverBase (move : FailoverMove) (db : Db) : Result PlanStart := do
  let live := liveNodes env now db
  let failed := fun error => PlanStart.ended ⟨.failed, run.stage.text, some error, none⟩
  match ← appByName db run.app with
  | none => pure (failed "the App no longer exists")
  | some (_, before) =>
    match before.spec with
    | none =>
      pure (failed ("the App has no stored spec (it was copied from the Hub); deploy it once " ++
        "through Convex to enable failover"))
    | some spec =>
      let lost := move.lostNodeId
      if before.services.all fun s => s.nodeOf before.nodeId ≠ lost then
        return .ended ⟨.done, "nothing ran on the lost Node", none, some []⟩
      let survivor :=
        if live.any fun node => node.1 = move.toNodeId then some move.toNodeId
        else (live.find? fun node => node.1 ≠ lost).map Prod.fst
      match survivor with
      | none => pure (failed "no surviving Node to move the App to")
      | some survivor =>
        if survivor = lost then
          return failed "no surviving Node to move the App to"
        let db := if survivor ≠ move.toNodeId then
            db.patchDeployment id fun run => { run with failover := some ⟨lost, survivor⟩ }
          else db
        let placed := before.services.map fun s =>
          (s.name, if s.nodeOf before.nodeId = lost then survivor else s.nodeOf before.nodeId)
        pure (.plan
          { spec := spec
            defaultNodeId := if before.nodeId = lost then survivor else before.nodeId
            placement := some placed
            images := some (before.services.map fun s => (s.name, s.image))
            before := some before } db)

/-- The services that stay on the Node they run on: those whose spec names none. -/
def keptPlacement (spec : AppSpec) (current : Option Placement) : Option (List (String × DocId Node)) :=
  let kept := spec.services.filterMap fun s =>
    if s.node = none then
      (current.bind fun placement => placement.services.lookup s.name).map fun node => (s.name, node)
    else none
  if kept = [] then none else some kept

/-- A deploy plans its own spec, and keeps placements if it is to. -/
def deployBase (db : Db) : Result PlanStart := do
  match run.spec, run.defaultNodeId with
  | some spec, some defaultNodeId =>
    let placement ←
      if run.keepsPlacement = some true then do
        let current ← currentPlacement run.app db
        pure (keptPlacement spec current)
      else pure none
    pure (.plan ⟨spec, defaultNodeId, placement, none, none⟩ db)
  | _, _ => throw "unreachable"

def planBase (db : Db) :
    Result PlanStart :=
  match run.operation, run.failover with
  | some .failover, some move => failoverBase env now id run move db
  | some .failover, none => throw "unreachable"
  | _, _ => deployBase run db

/-- The Nodes a spec names, as far as they exist. -/
def namedNodes (spec : AppSpec) (db : Db) : Result (List (String × DocId Node)) :=
  (spec.services.filterMap SpecService.node).eraseDups.foldlM (fun found name => do
    match ← nodeByName db name with
    | none => pure found
    | some (id, _) => pure (found ++ [(name, id)])) []

/-- The plan of a run, or why there is none. -/
def decidePlan (base : PlanBase) (db : Db) : Result (Except String DeployPlan) := do
  let nodeIds ← namedNodes base.spec db
  let revision := match run.source with
    | some (.git _ _ (some sha)) => if sha = "" then idText id else sha
    | _ => idText id
  let builds := base.spec.services.any fun s =>
    s.image = none && ((base.images.getD []).lookup s.name) = none
  let refusal := if builds then env.registryRefusal env.registryAddress else none
  match refusal with
  | some error => pure (.error error)
  | none =>
    match env.planDeploy db ⟨base.spec, base.defaultNodeId, nodeIds, base.placement, base.images,
        env.registryAddress.getD "", revision⟩ with
    | .error error => pure (.error error)
    | .ok plan =>
      match env.namespaceRefusal db run.app plan with
      | some error => pure (.error error)
      | none => pure (.ok plan)

/-- The Nodes a run starts services on. -/
def planNodes (base : PlanBase) (plan : DeployPlan) : List (DocId Node) :=
  match base.before with
  | none => (plan.services.map fun s => s.nodeOf plan.nodeId).eraseDups
  | some before => env.changedNodes before.services before.nodeId plan.services

/-- Whether an image is pulled from a registry. -/
def pullsFrom (image registry : String) : Bool := (registry ++ "/").toList.isPrefixOf image.toList

/-- The Nodes that push to or pull from the registry. -/
def registryNodes (deployNodeIds : List (DocId Node)) : List (DocId Node) :=
  (deployNodeIds.filter fun nodeId => plan.services.any fun s =>
    s.nodeOf plan.nodeId = nodeId && env.registryAddress.any fun registry => pullsFrom s.image registry) ++
  (if plan.builds ≠ [] then run.buildNodeId.toList else [])

def planUrls : List String := plan.services.filterMap fun s =>
    match s.route with
    | none => none
    | some route =>
      if route = "" then none
      else some (match env.appDomain with
        | some domain => "https://" ++ route ++ "." ++ domain
        | none => route)

def deployDetail : String := "deploying on " ++ toString plan.deployNodeIds.length ++ " Node(s)"

/-- The containers a run starts on a Node. -/
def containersOn : List String :=
  (plan.services.filter fun s => s.nodeOf plan.nodeId = nodeId).map fun s => containerName app s.name

/-- The plan stands: make way for what it starts, and go on to building or deploying. -/
def storePlan (db : Db) :
    Stage :=
  let db := plan.deployNodeIds.foldl (fun db nodeId =>
    cancelRetirements now nodeId (containersOn run.app plan nodeId) db) db
  let extra := fun run : AppDeployment =>
    { run with plan := some plan, targetNodeIds := plan.deployNodeIds }
  if plan.builds ≠ [] then
    moveTo now id .building ("building " ++ toString plan.builds.length ++ " service(s)") extra db
  else moveTo now id .deploying (deployDetail plan) extra db

/-- Plan the run, or end it with why it cannot be planned. -/
def planStage (db : Db) :
    Result Stage := do
  let live := liveNodes env now db
  match ← planBase env now id run db with
  | .ended result =>
    let db ← finish now id run result db
    pure (none, db)
  | .plan base db =>
    match ← decidePlan env id run base db with
    | .error error => stageFail now id run error db
    | .ok plan =>
      let deployNodeIds := planNodes env base plan
      match deployNodeIds.find? fun nodeId => live.all fun node => node.1 ≠ nodeId with
      | some nodeId =>
        let name := nodeLabel db nodeId
        let kept := run.keepsPlacement = some true ∧
          (base.placement.getD []).any fun placed => placed.2 = nodeId
        stageFail now id run (if kept then notLiveRefusal run.app name
          else name ++ " is not connected to Convex") db
      | none =>
        match env.ensureRegistryLinks db now (registryNodes env run plan deployNodeIds) with
        | some error => stageFail now id run error db
        | none =>
          pure (storePlan now id run
            { plan with deployNodeIds := deployNodeIds, urls := planUrls env plan } db)

/-! ## Building and deploying -/

/-- The builds that are still to run, one at a time. -/
def buildSteps (now : ℤ) (id : DocId AppDeployment) (run : AppDeployment) (plan : DeployPlan) :
    List (ℕ × PlannedBuild) → Db → Result Stage
  | [], db => pure (moveTo now id .deploying (deployDetail plan) (fun run => run) db)
  | (i, build) :: rest, db => do
      match run.buildNodeId with
      | none => throw "unreachable"
      | some nodeId =>
        let (state, db) ←
          runStep now id run nodeId ("build-" ++ build.service) (.build id build.service) db
        match state with
        | .failed error => stageFail now id run error db
        | .wait =>
          let detail := "building " ++ build.service ++ " (" ++ toString (i + 1) ++ "/" ++
            toString plan.builds.length ++ ")"
          pure (none, if run.detail ≠ detail then
            db.patchDeployment id fun run => { run with detail := detail } else db)
        | .done _ => buildSteps now id run plan rest db

/-- Every Node's group at once. -/
def deploySteps (now : ℤ) (id : DocId AppDeployment) (run : AppDeployment) (plan : DeployPlan) :
    List (DocId Node) → Bool → Db → Result Stage
  | [], waiting, db =>
    if waiting then pure (none, db)
    else pure (moveTo now id .linking
      ("recording " ++ toString plan.links.length ++ " link(s)") (fun run => run) db)
  | nodeId :: rest, waiting, db => do
      let operation := if run.operation = some .failover then some LeaseOperation.failover else none
      let (state, db) ← runStep now id run nodeId "deploy" (.deploy id operation) db
      match state with
      | .failed error => stageFail now id run error db
      | .wait => deploySteps now id run plan rest true db
      | .done _ => deploySteps now id run plan rest waiting db

/-! ## Committing -/

/-- The route row of a service. -/
def serviceRoute (s : AppService) : Option AppRoute :=
  match s.route, s.port with
  | some route, some port =>
    if route = "" then none
    else some ⟨route, s.nodeOf plan.nodeId, s.image, port, none, some s.name, 0⟩
  | _, _ => none

/-- The containers a failover leaves behind on the lost Node. -/
def leftBehind (before : App) (plan : DeployPlan) (lost : DocId Node) : List String :=
  (before.services.filter fun s => s.nodeOf before.nodeId = lost &&
    (plan.services.find? fun p => p.name = s.name).any fun moved => moved.nodeId ≠ some lost).map
      AppService.name

/-- Queue the removal of a container on the lost Node; a refusal is passed over. -/
def retire (lost : DocId Node) (db : Db) (service : String) : Db :=
  DocStore.commit db ((insertNodeCommand now ⟨lost, retireKey id service lost,
      .operate ⟨"container.remove", [("name", containerName app service)]⟩, none, none, none⟩ db).map
    Prod.snd)

/-- Record the App and flip its routes. -/
def writeApp (before : Option App) (db : Db) :
    Result Db := do
  let spec := if run.operation = some .failover then before.bind App.spec else run.spec
  let db ← upsertApp now ⟨run.app, plan.nodeId, plan.services, plan.links, spec, now⟩ db
  (plan.services.filterMap (serviceRoute plan)).foldlM (fun db route =>
    upsertRoute now run.app route db) db

/-- What a failover leaves behind is retired; the failed Node takes it down when it is back. -/
def retireLost (before : Option App) (db : Db) : Db :=
  match run.operation, run.failover, before with
  | some .failover, some move, some before =>
    (leftBehind before plan move.lostNodeId).foldl (retire now id run.app move.lostNodeId) db
  | _, _, _ => db

/-- Every Node is up: record the App, flip its routes, finish. -/
def commit (db : Db) :
    Result Db := do
  match run.plan, run.leaseEpoch with
  | some plan, some epoch =>
    let _ ← assertAppLease now run.app epoch db
    match env.namespaceRefusal db run.app plan with
    | some error => fail now id run error db
    | none =>
      let before ← appByName db run.app
      let before := before.map Prod.snd
      let db ← writeApp now run plan before db
      let db := retireLost now id run plan before db
      finish now id run ⟨.done, if run.operation = some .failover then "failed over" else "deployed",
        none, some plan.urls⟩ db
  | _, _ => throw "unreachable"

/-! ## Advancing -/

/-- One stage. -/
def runStage (db : Db) :
    Result Stage :=
  match run.stage with
  | .readingSpec => readingSpecStage env now id run db
  | .planning => planStage env now id run db
  | .building =>
    match run.plan with
    | none => throw "unreachable"
    | some plan => buildSteps now id run plan ((List.range plan.builds.length).zip plan.builds) db
  | .deploying =>
    match run.plan with
    | none => throw "unreachable"
    | some plan => deploySteps now id run plan plan.deployNodeIds false db
  | .linking => do
      let db ← commit env now id run db
      pure (none, db)
  | _ => pure (none, db)

/-- Move a run as far as it can go now. -/
def advance (env : Environment) (now : ℤ) (id : DocId AppDeployment) :
    ℕ → AppDeployment → Db → Result Db
  | 0, _, db => pure db
  | guard + 1, run, db =>
    if isTerminalStage run.stage then pure db
    else do
      let (next, db) ← runStage env now id run db
      match next with
      | none => pure db
      | some run => advance env now id guard run db

def advanceGuard : ℕ := 8

/-! ## Starting -/

/-- A queued run of the same App that was created before. -/
def earlierQueued (db : Db) : Bool :=
  (db.appDeployments.collect fun row => row.stage = .queued).any fun entry =>
    entry.2.app = run.app && entry.2.operation.isSome && entry.2.startedAt < run.startedAt

/-- How a run leaves `queued`, or why it fails at once. -/
inductive Start
  | goes (start : AppDeployment → AppDeployment)
  | refused (error : String)

def noNodeRefusal : String :=
  "No Node is connected to Convex; start an Infra Agent in connect-convex mode"

/-- The row of a deploy that reads its spec file. -/
def startedDeploy (buildNodeId defaultNodeId : DocId Node) (keepsPlacement : Bool)
    (run : AppDeployment) : AppDeployment :=
  { run with
    buildNodeId := some buildNodeId, defaultNodeId := some defaultNodeId
    keepsPlacement := if keepsPlacement then some true else run.keepsPlacement
    stage := .readingSpec, detail := "reading the spec file" }

/-- The row of a failover that is being planned. -/
def startedFailover : AppDeployment :=
  { run with stage := .planning, detail := "planning the failover" }

/-- Where a deploy is placed and built. -/
def decideStart (db : Db) : Result Start :=
  match run.operation with
  | some .failover => pure (.goes startedFailover)
  | _ =>
    match run.defaultNodeId with
    | some defaultNodeId =>
      pure (.goes (startedDeploy (run.buildNodeId.getD defaultNodeId) defaultNodeId false))
    | none => do
        match ← currentPlacement run.app db with
        | some current =>
          if isNodeLive ((db.nodes.get current.nodeId).bind Node.lastSeenAt) now then
            pure (.goes (startedDeploy (run.buildNodeId.getD current.nodeId) current.nodeId true))
          else pure (.refused (notLiveRefusal run.app (nodeLabel db current.nodeId)))
        | none =>
          match (liveNodes env now db).head? with
          | some (node, _) =>
            pure (.goes (startedDeploy (run.buildNodeId.getD node) node false))
          | none => pure (.refused noNodeRefusal)

/-- The row of a run that has taken its App's lease. -/
def leasedRun (now epoch : ℤ) (run : AppDeployment) : AppDeployment :=
  { run with leaseEpoch := some epoch, stageStartedAt := some now }

/-- Take the App's lease and leave `queued`. -/
def begin (db : Db) :
    Result Db := do
  if earlierQueued run db then return db
  let (decision, db) ← acquireAppLease now ⟨run.app, holderOf id, run.operation.getD .deploy⟩ db
  match decision with
  | .refuse _ _ => pure db
  | .grant epoch _ =>
    match ← decideStart env now run db with
    | .refused error =>
      let db := db.patchDeployment id (leasedRun now epoch)
      finish now id (leasedRun now epoch run)
        ⟨.failed, DeployStage.readingSpec.text, some error, none⟩ db
    | .goes start =>
      let db := db.patchDeployment id fun run => start (leasedRun now epoch run)
      match db.appDeployments.get id with
      | none => throw "unreachable"
      | some run => advance env now id advanceGuard run db

/-- Start the oldest queued run of an App, if its lease is free. -/
def kickApp (db : Db) : Result Db :=
  let queued := db.appDeployments.collect fun row => row.stage = .queued
  match queued.find? fun entry => entry.2.app = app && entry.2.operation.isSome with
  | none => pure db
  | some (id, run) => begin env now id run db

/-! ## Entry points -/

/-- The row of a run that lost its lease. -/
def lostRun : AppDeployment := { run with
    stage := .failed, detail := run.stage.text, error := some "lost its App lease mid-run"
    finishedAt := some now }

/-- Advance one run. -/
def tick (db : Db) : Result Db :=
  match db.appDeployments.get id with
  | none => pure db
  | some run =>
    if run.operation = none ∨ isTerminalStage run.stage then pure db
    else if run.stage = .queued then begin env now id run db
    else do
      let lease ← leaseRow db run.app
      match run.leaseEpoch.filter fun epoch => leaseAdmits (leaseOf lease) epoch now with
      | none => pure (cleanUpStored now id (db.patchDeployment id (lostRun now)))
      | some epoch =>
        let db ← renewAppLease now run.app epoch db
        advance env now id advanceGuard run db

def kick (db : Db) : Result Db := kickApp env now app db

/-- Clean up after a run the stale sweep failed. -/
def afterSweep (db : Db) : Result Db :=
  match db.appDeployments.get id with
  | none => pure db
  | some run =>
    if isTerminalStage run.stage then kickApp env now run.app (cleanUp now id run db)
    else pure db

/-- The runs a pulse schedules a tick for. -/
def pulse (db : Db) : List (DocId AppDeployment) :=
  openStages.flatMap fun stage =>
    (((db.appDeployments.collect fun row => row.stage = stage).take 100).filter fun entry =>
      entry.2.operation.isSome).map Prod.fst

/-- Why a run can no longer finish. -/
def staleReason (db : Db) : Result (Option String) :=
  if run.trigger = some .hubImport then pure none
  else
    match run.leaseEpoch with
    | none =>
      pure (if queuedRunTimeoutMs < now - run.startedAt then
        some "never started: its App stayed busy" else none)
    | some epoch => do
        let lease ← leaseRow db run.app
        pure (if leaseAdmits (leaseOf lease) epoch now then none else some "lost its App lease mid-run")

/-- Fail one run that has gone stale. -/
def sweepRow (db : Db) (entry : DocId AppDeployment × AppDeployment) : Result Db := do
  match ← staleReason now entry.2 db with
  | none => pure db
  | some reason =>
    pure (db.patchDeployment entry.1 fun run =>
      { run with stage := .failed, error := some reason, finishedAt := some now })

/-- Fail every run that can no longer finish. -/
def sweepStale (db : Db) : Result Db :=
  openStages.foldlM (fun db stage =>
    ((db.appDeployments.collect fun row => row.stage = stage).take 200).foldlM (sweepRow now) db) db

end EraInfra.Infra
