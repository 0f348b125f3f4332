import EraInfra.Infra.Logs
import EraInfra.Infra.Pipeline

/-!
# Failover, heartbeats and removing an App

What starts runs and queues removals besides the pipeline itself: the failover check over the
heartbeats (`infra/failover.ts`, `nodeState.heartbeat`) and the removal of an App
(`operator.removeApp`).
-/

namespace EraInfra.Infra

open DocStore

/-! ## Heartbeats -/

variable (now : ℤ) (name : String)

/-- What a Node reports of itself. -/
structure HeartbeatArgs where
  credential : String
  version : String
  commandsBlocked : Option String
  journalKeys : Option ℤ
  journalKeyLimit : Option ℤ

/-- `/^[a-z_]{1,40}$/`. -/
def isReason (text : String) : Bool :=
  let ok := fun c : Char => c.isLower || c = '_'
  isWord ok ok 39 text.toList

def heartbeat (env : Environment) (now : ℤ) (args : HeartbeatArgs) (db : Db) : Result Db := do
  let nodeId ← requireNode env args.credential db
  refuseIf (100 < jsLength args.version) "Version too long"
  refuseIf (∃ reason ∈ args.commandsBlocked, isReason reason = false) "Invalid commandsBlocked reason"
  refuseIf (∃ count ∈ args.journalKeys.toList ++ args.journalKeyLimit.toList,
    count < 0 ∨ 1000000 < count) "Invalid journal count"
  pure (db.patchNode nodeId fun node => { node with lastSeenAt := some now })

/-! ## Failover -/

/-- Every App with at least one service on a Node. -/
def appsOn (nodeId : DocId Node) (db : Db) : List App :=
  (((db.apps.collect fun _ => true).take 500).map Prod.snd).filter fun app =>
    app.services.any fun s => s.nodeOf app.nodeId = nodeId

/-- Queue a failover run for each App of a lost Node, round robin across the survivors. -/
def failOver (lost : DocId Node) (survivors : List (DocId Node)) (db : Db) :
    Result (List (DocId AppDeployment) × Db) :=
  let apps := appsOn lost db
  ((List.range apps.length).zip apps).foldlM (fun (started, db) (i, app) => do
    let target := (survivors[i % max survivors.length 1]?).getD lost
    let (id, db) ← createRun now
      ⟨app.name, .failover, .failover, none, none, none, none, some ⟨lost, target⟩⟩ db
    pure (started ++ [id], db)) ([], db)

/-- What a check does about one Node. -/
def checkNode (survivors : List (DocId Node))
    (state : List (DocId AppDeployment) × Db) (entry : DocId Node × Node) :
    Result (List (DocId AppDeployment) × Db) :=
  let (started, db) := state
  let (id, node) := entry
  if isNodeSilent node.lastSeenAt now = false then
    pure (started, if node.failoverSuspectAt ≠ none then
      db.patchNode id fun node => { node with failoverSuspectAt := none } else db)
  else if node.failoverHandledSeenAt = node.lastSeenAt then pure (started, db)
  else
    match node.failoverSuspectAt with
    | none =>
      pure (started, db.patchNode id fun node => { node with failoverSuspectAt := some now })
    | some suspectAt =>
      if now - suspectAt < failoverGraceMs then pure (started, db)
      else do
        let db := db.patchNode id fun node =>
          { node with failoverSuspectAt := none, failoverHandledSeenAt := node.lastSeenAt }
        let (runs, db) ← failOver now id (survivors.filter (· ≠ id)) db
        pure (started ++ runs, db)

/-- The Nodes a check looks at. -/
def checkedNodes (db : Db) : List (DocId Node × Node) := (db.nodes.collect fun _ => true).take 500

/-- The failover check; the answer is the runs it queued. -/
def check (env : Environment) (now : ℤ) (db : Db) : Result (List (DocId AppDeployment) × Db) :=
  if env.failoverEnabled = false then pure ([], db)
  else
    (checkedNodes db).foldlM (checkNode now ((liveNodes env now db).map Prod.fst)) ([], db)

/-! ## Removing an App -/

/-- A number as `toString(36)` writes it. -/
def base36 (n : ℤ) : String := String.ofList ((Nat.digits 36 n.toNat).reverse.map fun d =>
    if d < 10 then Char.ofNat (48 + d) else Char.ofNat (87 + d))

/-- The containers of an App, by Node, in the order they are first met. -/
def containersByNode (containers : List (DocId Node × String)) : List (DocId Node × List String) :=
  (containers.map Prod.fst).eraseDups.map fun nodeId =>
    (nodeId, (containers.filter fun c => c.1 = nodeId).map Prod.snd)

/-- What an App that is to be removed consists of: its row, or its single-container route. -/
def removalTarget (db : Db) : Result (Option (DocId App × App) × List (DocId Node × String)) := do
  let app ← appByName db name
  let labelled ← routeByName db name
  match app, labelled with
  | some (id, row), _ =>
    pure (some (id, row), row.services.map fun s => (s.nodeOf row.nodeId, name ++ "-" ++ s.name))
  | none, none => throw ("No App named " ++ name)
  | none, some (_, route) =>
    match loadRouteOwner db route with
    | .ambiguous =>
      throw ("No App named " ++ name ++ "; the route " ++ name ++ " is claimed by more than one App")
    | .owned owner service =>
      refuseIf (isSingleContainerRoute route (.owned owner service) = false)
        ("No App named " ++ name ++ "; the route " ++ name ++ " belongs to App \"" ++ owner ++ "\"")
      pure (none, [(route.nodeId, name)])

/-- The checks of one Node before anything is written. -/
def checkRemoval (db : Db) (group : DocId Node × List String) : Result Unit :=
  match db.nodes.get group.1 with
  | none => pure ()
  | some node => do
      refuseIf (node.lastSeenAt = none)
        (name ++ " runs on " ++ node.name ++ ", which has not connected to Convex; remove it on the " ++
          "Hub (portless remove " ++ name ++ ")")
      refuseIf (200 < ((commandsWith db group.1 .pending).take 200).length + group.2.length + 1)
        (node.name ++ "'s command queue is full; retry when it drains")

/-- Queue one removal. -/
def queueRemoval (key : String) (nodeId : DocId Node) (operation : String) (db : Db)
    (name : String) : Result Db := do
  let (_, db) ← insertNodeCommand now
    ⟨nodeId, key, .operate ⟨operation, [("name", name)]⟩, none, none, none⟩ db
  pure db

/-- Queue the removals of an App on one Node. -/
def queueRemovals (hasRow : Bool) (db : Db) (group : DocId Node × List String) : Result Db := do
  let removal := name ++ ":remove-" ++ base36 now
  if db.nodes.get group.1 = none then return db
  let db ← group.2.foldlM (fun db container =>
    queueRemoval now (removal ++ ":" ++ container) group.1 "container.remove" db container) db
  if hasRow then
    queueRemoval now (removal ++ ":net") group.1 "container.network.remove" db (name ++ "-net")
  else pure db

/-- Delete a label, if it is the App's own. -/
def removeLabel (db : Db) (label : String) : Result Db := do
  match ← routeByName db label with
  | none => pure db
  | some (id, row) =>
    match loadRouteOwner db row with
    | .owned owner _ =>
      pure (if owner = name then { db with appRoutes := db.appRoutes.delete id } else db)
    | .ambiguous => pure db

/-- Tear an App down: queue the removal of its containers, and forget its routes and its row. -/
def removeApp (db : Db) : Result Db := do
  refuseIf (isAppName name = false) ("Invalid App name: " ++ name)
  let (app, containers) ← removalTarget name db
  let lease ← leaseRow db name
  refuseIf ((∃ row ∈ leaseOf lease, row.holder ≠ none ∧ now < row.expiresAt) ∨
      (db.appDeployments.collect fun row => row.stage = .queued).any (fun entry =>
        entry.2.app = name && entry.2.operation.isSome) = true)
    ("A deploy or failover of " ++ name ++ " is in progress; remove it when it ends")
  let groups := containersByNode containers
  groups.forM (checkRemoval name db)
  let db ← groups.foldlM (queueRemovals now name app.isSome) db
  let labelled ← routeByName db name
  let labels := ((labelled.map fun row => row.2.name).toList ++
    ((app.map fun row => row.2.services).getD []).filterMap fun s =>
      s.route.filter (· ≠ "")).eraseDups
  let db ← labels.foldlM (removeLabel name) db
  match app with
  | none => pure db
  | some (id, _) => pure { db with apps := db.apps.delete id }

end EraInfra.Infra
