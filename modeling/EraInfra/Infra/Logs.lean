import EraInfra.Infra.NodeCommands

/-!
# Log tails

The last lines of an App's container or a Node's unit, on request of one API token
(`infra/logs.ts`).  A tail is read once, by the token that asked, or deleted when it expires.
-/

namespace EraInfra.Infra

open DocStore

variable (now : ℤ) (caller : ApiCaller)

def maxLogLines : ℤ := 1000
def defaultLogLines : ℤ := 100
def logTtlMs : ℤ := 5 * 60000

/-- What a log tail is asked of: an App's service, or a Node's unit. -/
structure LogQuery where
  app : Option String
  service : Option String
  node : Option String
  unit : Option String

variable (query : LogQuery)

/-- The container of an App's service. -/
def containerTarget (app : App) (service : AppService) : DocId Node × LogTarget :=
  (service.nodeOf app.nodeId, .container app.name service.name (app.name ++ "-" ++ service.name))

/-- The service a query names, or the only one. -/
def resolveService (app : App) (service : Option String) : Result (DocId Node × LogTarget) :=
  match service with
  | none =>
    match app.services with
    | [only] => pure (containerTarget app only)
    | _ => throw (app.name ++ " has several services; name one (" ++
        commaList (app.services.map AppService.name) ++ ")")
  | some name =>
    match app.services.find? fun s => s.name = name with
    | some s => pure (containerTarget app s)
    | none => throw (app.name ++ " has no service " ++ name)

/-- Where the asked-for log is kept. -/
def resolveTarget (db : Db) : Result (DocId Node × LogTarget) :=
  match query.app with
  | some name => do
      refuseIf (query.node ≠ none ∨ query.unit ≠ none)
        "Ask for an App's service or a Node's unit, not both"
      match ← appByName db name with
      | some (_, app) => resolveService app query.service
      | none =>
        match ← routeByName db name with
        | none => throw ("No App named " ++ name)
        | some (_, route) =>
          refuseIf (isSingleContainerRoute route (loadRouteOwner db route) = false)
            ("No App named " ++ name)
          refuseIf (∃ service ∈ query.service, service ≠ route.name)
            (route.name ++ " has no service " ++ query.service.getD "")
          pure (route.nodeId, .container route.name route.name route.name)
  | none =>
    match query.node, query.unit with
    | some node, some unit => do
        refuseIf (query.service ≠ none) "service goes with app, not with unit"
        refuseIf (isPlatformUnit unit = false) "unit must be a platform unit, portless-* or erainfra-*"
        match ← nodeByName db node with
        | none => throw ("No Node named " ++ node)
        | some (id, _) => pure (id, .unit unit)
    | _, _ => throw "Send app (and service), or node and unit"

/-- The operation that reads it. -/
def operationFor (target : LogTarget) (lines : ℤ) : Operation :=
  match target with
  | .container _ _ container =>
    ⟨"container.logs", [("name", container), ("lines", toString lines)]⟩
  | .unit unit => ⟨"service.logs", [("unit", unit), ("lines", toString lines)]⟩

/-- The checks before the first write; what they refuse is answered, not thrown.  (What `unique()`
throws is no refusal.) -/
def resolveRequest (lines : Option ℤ) (db : Db) : Result (DocId Node × LogTarget × ℤ) := do
  let lines := lines.getD defaultLogLines
  refuseIf (lines < 1 ∨ maxLogLines < lines)
    ("lines must be an integer from 1 to " ++ toString maxLogLines)
  let (nodeId, target) ← resolveTarget query db
  match db.nodes.get nodeId with
  | none => throw "The Node this runs on is gone"
  | some node =>
    refuseIf (isNodeLive node.lastSeenAt now = false) (if node.lastSeenAt = none then
        node.name ++ " has not connected to Convex; read its logs through the Hub (portless logs)"
      else node.name ++ " is offline")
    validateOperation (operationFor target lines)
    pure (nodeId, target, lines)

/-- The row of a tail that has been asked for. -/
def requestedTail (nodeId : DocId Node) (target : LogTarget) (lines : ℤ) : LogTail where
  requesterTokenId := caller.tokenId
  nodeId := nodeId
  commandId := none
  target := target
  lines := lines
  state := .pending
  text := none
  truncated := none
  createdAt := now
  expiresAt := now + logTtlMs

/-- Ask a Node for a log tail on behalf of one API token. -/
def request (lines : Option ℤ) (db : Db) : Result (Except String (DocId LogTail) × Db) := do
  requireTokenPermission caller .nodeRun
  match resolveRequest now query lines db with
  | .error message => do
      -- an error that is not the platform's own is thrown again
      refuseIf (message = notUnique) notUnique
      pure (.error message, db)
  | .ok (nodeId, target, lines) =>
    let id := db.logTails.next
    let db := { db with logTails := db.logTails.insert (requestedTail now caller nodeId target lines) }
    let (commandId, db) ← insertNodeCommand now
      ⟨nodeId, "logs:" ++ idText id, .logs (operationFor target lines), none, none, none⟩ db
    pure (.ok id, db.patchTail id fun row => { row with commandId := some commandId })

/-- What a read of a tail is answered. -/
inductive TailAnswer
  | gone
  | pending (expiresAt : ℤ)
  | failed
  | ready (text : String) (truncated : Bool) (lines : ℤ) (target : LogTarget)
deriving DecidableEq, Repr

/-- Delete a tail nobody read, and cancel its command if it has not ended. -/
def discard (id : DocId LogTail) (row : LogTail) (db : Db) : Db :=
  let db := { db with logTails := db.logTails.delete id }
  match row.commandId with
  | none => db
  | some commandId =>
    match db.nodeCommands.get commandId with
    | none => db
    | some command => cancelOpen now db (commandId, command)

/-- Read a tail once.  The identifier is what `normalizeId` makes of the text that was given. -/
def consume (id : Option (DocId LogTail)) (db : Db) : Result (TailAnswer × Db) := do
  requireTokenPermission caller .nodeRun
  match id with
  | none => pure (.gone, db)
  | some id =>
    match db.logTails.get id with
    | none => pure (.gone, db)
    | some row =>
      if row.requesterTokenId ≠ caller.tokenId then return (.gone, db)
      if row.expiresAt ≤ now then return (.gone, discard now id row db)
      let read := { db with logTails := db.logTails.delete id }
      match row.state with
      | .pending => pure (.pending row.expiresAt, db)
      | .failed => pure (.failed, read)
      | .ready =>
        pure (.ready (row.text.getD "") (row.truncated = some true) row.lines row.target, read)

/-- Scheduled at request time. -/
def expire (id : DocId LogTail) (db : Db) : Db :=
  match db.logTails.get id with
  | none => db
  | some row => discard now id row db

end EraInfra.Infra
