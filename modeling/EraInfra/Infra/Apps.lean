import EraInfra.Infra.Policy

/-!
# Apps and their routes

Writing an App row and its route rows (`infra/apps.ts`), and who a route label belongs to: a row
names its owner, or the owner is derived from the App rows that route there.
-/

namespace EraInfra.Infra

open DocStore

def maxApps : ℕ := 500

def appByName (db : Db) (name : String) : Result (Option (DocId App × App)) :=
  db.apps.unique notUnique fun row => row.name = name

def routeByName (db : Db) (name : String) : Result (Option (DocId AppRoute × AppRoute)) :=
  db.appRoutes.unique notUnique fun row => row.name = name

def nodeByName (db : Db) (name : String) : Result (Option (DocId Node × Node)) :=
  db.nodes.unique notUnique fun row => row.name = name

/-- Where a service of an App runs. -/
def AppService.nodeOf (service : AppService) (primary : DocId Node) : DocId Node :=
  service.nodeId.getD primary

/-- An App row is written whole. -/
def upsertApp (now : ℤ) (input : App) (db : Db) : Result Db := do
  let fields := { input with updatedAt := now }
  match ← appByName db input.name with
  | none => pure { db with apps := db.apps.insert fields }
  | some (id, _) => pure { db with apps := db.apps.patch id fun _ => fields }

inductive RouteOwner
  | owned (app : String) (service : Option String)
  | ambiguous
deriving DecidableEq, Repr

/-- The App services that route at a label. -/
def routeClaims (label : String) (apps : List App) : List (String × String) := apps.flatMap fun app =>
    (app.services.filter fun s => s.route = some label).map fun s => (app.name, s.name)

/-- Whose a route is: what its row says, or else the App that routes at its label. -/
def ownerOfRoute (route : AppRoute) (apps : List App) : RouteOwner :=
  match route.app with
  | some app => .owned app route.service
  | none =>
    let claims := routeClaims route.name apps
    if 1 < (claims.map Prod.fst).eraseDups.length then .ambiguous
    else
      match claims with
      | (app, service) :: _ => .owned app (some service)
      | [] => .owned route.name none

def loadRouteOwner (db : Db) (route : AppRoute) : RouteOwner := ownerOfRoute route
    (if route.app = none then ((db.apps.collect fun _ => true).take maxApps).map Prod.snd else [])

/-- Whether a route row is a single-container App: its container is the label. -/
def isSingleContainerRoute (route : AppRoute) (owner : RouteOwner) : Bool :=
  owner = .owned route.name none

/-- Why an App may not write a label, if it may not. -/
def routeRefusal (db : Db) (label app : String) : Result (Option String) := do
  match ← routeByName db label with
  | none => pure none
  | some (_, existing) =>
    match loadRouteOwner db existing with
    | .ambiguous =>
      pure (some ("the route " ++ label ++
        " is claimed by more than one App; remove all but one of them first"))
    | .owned owner _ =>
      if owner = app then pure none
      else pure (some ("App \"" ++ app ++ "\" cannot take the route " ++ label ++
        ": it belongs to App \"" ++ owner ++ "\""))

/-- A route row is written whole, for the App that owns the label. -/
def upsertRoute (now : ℤ) (app : String) (input : AppRoute) (db : Db) : Result Db := do
  let refusal ← routeRefusal db input.name app
  refuseSome refusal id
  let fields := { input with app := some app, updatedAt := now }
  match ← routeByName db input.name with
  | none => pure { db with appRoutes := db.appRoutes.insert fields }
  | some (id, _) => pure { db with appRoutes := db.appRoutes.patch id fun _ => fields }

end EraInfra.Infra
