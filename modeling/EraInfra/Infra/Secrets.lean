import EraInfra.Infra.Apps
import EraInfra.Infra.Leases

/-!
# App secrets

The one path by which plaintext leaves the database (`infra/secrets.ts`, `infra/secretCrypto.ts`).
Encryption is ideal: a row holds its plaintext under its scope, and a data key that was wrapped by
another master key does not open.
-/

namespace EraInfra.Infra

open DocStore

def describeScope (scope : SecretScope) : String :=
  match scope.service with
  | none => "App \"" ++ scope.app ++ "\""
  | some service => "service \"" ++ service ++ "\" of App \"" ++ scope.app ++ "\""

/-- A record with one more entry; an entry under the same name is replaced where it stands. -/
def Env.set (env : Env) (name value : String) : Env :=
  if env.any fun entry => entry.1 = name then
    env.map fun entry => if entry.1 = name then (name, value) else entry
  else env ++ [(name, value)]

/-- `{ ...env, ...more }`. -/
def Env.assign (env more : Env) : Env := more.foldl (fun env entry => Env.set env entry.1 entry.2) env

def secretRows (db : Db) (scope : SecretScope) : List AppSecret :=
  (db.appSecrets.collect fun row => row.scope = scope).map Prod.snd

/-- The values of one scope. -/
def readSecrets (db : Db) (masterKeyId : String) (scope : SecretScope) : Result Env := do
  let rows := secretRows db scope
  if rows.isEmpty then return []
  match ← db.appDataKeys.unique notUnique fun row => row.scope = scope with
  | none => throw ("Secrets for " ++ describeScope scope ++ " have no data key")
  | some (_, key) =>
    refuseIf (key.masterKeyId ≠ masterKeyId)
      ("The data key for " ++ describeScope scope ++ " was wrapped by master key " ++
        key.masterKeyId ++ ", but ERAINFRA_SECRETS_MASTER_KEY is " ++ masterKeyId)
    pure (rows.foldl (fun values row => Env.set values row.name row.value) [])

structure DeploySecrets where
  appWide : Env
  services : List (String × Env)

/-- The placement a deployment goes by: its own plan, or the stored App. -/
def placementOf (deployment : AppDeployment) (stored : Option (DocId App × App)) :
    Option (DocId Node × List AppService) :=
  match deployment.plan with
  | some plan => some (plan.nodeId, plan.services)
  | none => stored.map fun app => (app.2.nodeId, app.2.services)

/-- The services of a placement that run on a Node. -/
def servicesOn (nodeId : DocId Node) (placement : DocId Node × List AppService) :
    List AppService :=
  placement.2.filter fun s => s.nodeOf placement.1 = nodeId

/-- The plaintext a Node needs to start one deployment's containers. -/
def secretsForNodeDeploy (env : Environment) (now : ℤ) (nodeId : DocId Node)
    (deploymentId : DocId AppDeployment) (db : Db) : Result DeploySecrets := do
  match db.appDeployments.get deploymentId with
  | none => throw "No such deployment"
  | some deployment =>
    refuseIf (deployment.targetNodeIds.contains nodeId = false)
      "This deployment does not target this Node"
    refuseIf (isTerminalStage deployment.stage) "This deployment has finished"
    let lease ← leaseRow db deployment.app
    refuseIf (¬ ∃ epoch ∈ deployment.leaseEpoch, leaseAdmits (leaseOf lease) epoch now)
      "This deployment no longer holds its App's lease"
    let stored ← match deployment.plan with
      | some _ => pure none
      | none => appByName db deployment.app
    let placement := placementOf deployment stored
    let services := (placement.map (servicesOn nodeId)).getD []
    refuseIf (placement ≠ none ∧ services = []) "No services of this App are placed on this Node"
    let master ← env.requireMasterKey
    let appWide ← readSecrets db master ⟨deployment.app, none⟩
    let perService ← services.mapM fun service => do
      let values ← readSecrets db master ⟨deployment.app, some service.name⟩
      pure (service.name, values)
    pure ⟨appWide, perService⟩

end EraInfra.Infra
