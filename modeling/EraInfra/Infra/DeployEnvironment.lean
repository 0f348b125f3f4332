import EraInfra.Infra.Moves

/-!
# What a deploying Node is given

`payload` against the secrets of the database (`infra/nodeCommands.ts`, `infra/secrets.ts`).  Two
databases that differ in the values of one scope (`AgreeBut`) give a claimant the same answer or the
same refusal, unless it is deploying what the scope belongs to (`Entitled`).  What it is given
then is, name by name, what the App has stored (`expectedValue`).
-/

namespace EraInfra.Infra

open DocStore List Option

variable {db db' : Db} {env : Environment} {now : ℤ}

/-! ## Environments, name by name -/

lemma lookup_cons_eq (e : Env) (name value key : String) :
    lookup key ((name, value) :: e) = if key = name then some value else e.lookup key := by
  rw [lookup_cons]
  by_cases h : key = name
  · simp [h]
  · simp [h, beq_eq_false_iff_ne.mpr h]

lemma lookup_map_set (e : Env) (name value key : String) :
    lookup key (e.map fun entry => if entry.1 = name then (name, value) else entry)
      = if key = name then (e.lookup key).map (fun _ => value) else e.lookup key := by
  induction e with
  | nil => simp
  | cons entry e ih =>
    rcases entry with ⟨k, v⟩
    by_cases hk : k = name
    · rw [map_cons, if_pos hk, lookup_cons_eq, ih, hk, lookup_cons_eq]
      split_ifs <;> rfl
    · simp only [map_cons, if_neg hk, lookup_cons_eq]
      split_ifs <;> simp_all

lemma lookup_isSome (e : Env) (name : String) :
    (e.lookup name).isSome = e.any fun entry => entry.1 = name := by
  induction e with
  | nil => rfl
  | cons entry e ih =>
    rcases entry with ⟨k, v⟩
    rw [lookup_cons_eq, any_cons, ← ih]
    by_cases hk : name = k
    · simp [hk]
    · simp [hk, Ne.symm hk]

/-- Setting a name, for the first entry of each name and for the last. -/
lemma lookup_set (e : Env) (name value key : String) :
    (Env.set e name value).lookup key = if key = name then some value else e.lookup key := by
  simp only [Env.set]
  split_ifs with hany hkey hkey
  · have hsome : (e.lookup name).isSome = true := by
      rw [lookup_isSome]
      exact hany
    rcases isSome_iff_exists.mp hsome with ⟨old, hold⟩
    rw [lookup_map_set, if_pos hkey, hkey, hold, map_some]
  · rw [lookup_map_set, if_neg hkey]
  · have hnone : e.lookup name = none := by
      rw [← not_isSome_iff_eq_none, lookup_isSome]
      exact hany
    rw [lookup_append, hkey, hnone]
    simp
  · rw [lookup_append, lookup_cons_eq, if_neg hkey]
    simp

lemma lookup_reverse_set (e : Env) (name value key : String) : (Env.set e name value).reverse.lookup key
      = if key = name then some value else e.reverse.lookup key := by
  simp only [Env.set]
  split_ifs with hany hkey hkey
  · have hsome : (e.reverse.lookup name).isSome = true := by
      rw [lookup_isSome, any_reverse]
      exact hany
    rcases isSome_iff_exists.mp hsome with ⟨old, hold⟩
    rw [← map_reverse, lookup_map_set, if_pos hkey, hkey, hold, map_some]
  · rw [← map_reverse, lookup_map_set, if_neg hkey]
  · rw [reverse_append, reverse_singleton, singleton_append, lookup_cons_eq, if_pos hkey]
  · rw [reverse_append, reverse_singleton, singleton_append, lookup_cons_eq, if_neg hkey]

lemma lookup_reverse_cons (entry : String × String) (e : Env) (key : String) :
    (entry :: e).reverse.lookup key
      = (e.reverse.lookup key).or (if key = entry.1 then some entry.2 else none) := by
  rw [reverse_cons, lookup_append, lookup_cons_eq, lookup_nil]

/-- In `{ ...e, ...more }` the last entry of `more` counts. -/
lemma read_assign (read : Env → Option String) {key : String} (hset : ∀ e name value,
      read (Env.set e name value) = if key = name then some value else read e) (e more : Env) :
    read (e.assign more) = (more.reverse.lookup key).or (read e) := by
  induction more generalizing e with
  | nil => rfl
  | cons entry more ih =>
    have hcons : e.assign (entry :: more) = (Env.set e entry.1 entry.2).assign more := rfl
    rw [hcons, ih, hset, lookup_reverse_cons]
    split_ifs <;> simp

/-! ## The values of a scope -/

/-- The value a scope holds under a name; of two rows, the one that was stored last. -/
def secretValue (db : Db) (scope : SecretScope) (name : String) : Option String :=
  List.lookup name ((secretRows db scope).map fun row => (row.name, row.value)).reverse

variable {master app : String} {scope : SecretScope} {s : AppService}

lemma readSecrets_ok {values : Env} (h : readSecrets db master scope = .ok values) (name : String) :
    lookup name values.reverse = secretValue db scope name := by
  simp only [readSecrets] at h
  split_ifs at h with hempty
  · rw [pure_ok] at h
    simp [secretValue, ← h, isEmpty_iff.mp hempty]
  rcases bind_ok.mp h with ⟨found, -, h⟩
  rcases found with _ | key
  · cases h
  rw [refuseIf_bind_ok, pure_ok] at h
  have hassign : (secretRows db scope).foldl (fun values row => Env.set values row.name row.value) []
      = Env.assign [] ((secretRows db scope).map fun row => (row.name, row.value)) := by
    simp only [Env.assign, foldl_map]
  rw [← h.2, hassign, read_assign (fun e => lookup name e.reverse) (lookup_reverse_set · · · name)]
  simp [secretValue]

/-- Two databases that differ at most in the values, not the names, of the secrets of a scope. -/
structure AgreeBut (scope : SecretScope) (db db' : Db) : Prop where
  tables : ∃ secrets, db' = { db with appSecrets := secrets }
  secrets : List.Forall₂ (fun r r' : DocId AppSecret × AppSecret => r'.1 = r.1 ∧
    r'.2.scope = r.2.scope ∧ r'.2.name = r.2.name ∧ (r.2.scope ≠ scope → r'.2.value = r.2.value))
      db.appSecrets.rows db'.appSecrets.rows

variable {other : SecretScope} {args : ClaimArgs}

/-- The rows of any other scope are the same. -/
lemma AgreeBut.secretRows_eq (h : AgreeBut scope db db')
    (hne : other ≠ scope) : secretRows db' other = secretRows db other := by
  have hrows : ∀ l l' : List (DocId AppSecret × AppSecret), List.Forall₂ (fun r r' => r'.1 = r.1 ∧
      r'.2.scope = r.2.scope ∧ r'.2.name = r.2.name ∧ (r.2.scope ≠ scope → r'.2.value = r.2.value)) l l' →
      (l'.filter fun r => r.2.scope = other).map Prod.snd
        = (l.filter fun r => r.2.scope = other).map Prod.snd := by
    intro l l' hl
    induction hl with
    | nil => rfl
    | @cons r r' l l' hr _ ih =>
      rcases hr with ⟨-, hscope, hname, hvalue⟩
      by_cases hother : r.2.scope = other
      · have hrow : r'.2 = r.2 := by
          have hval := hvalue (hother ▸ hne)
          rcases r' with ⟨i', ⟨s', n', v'⟩⟩
          simp only at hscope hname hval
          simp only [hscope, hname, hval]
        simp only [filter_cons, hrow, hother, decide_true, if_true, map_cons, ih]
      · simp only [filter_cons, hscope, hother, decide_false, Bool.false_eq_true, if_false, ih]
  exact hrows _ _ h.secrets

lemma AgreeBut.readSecrets_eq (h : AgreeBut scope db db')
    (hne : other ≠ scope) : readSecrets db' master other = readSecrets db master other := by
  have hrows := h.secretRows_eq hne
  rcases h.tables with ⟨secrets, rfl⟩
  simp only [readSecrets, hrows]

/-! ## Who may read a scope -/

/-- A claimant whose Node runs a deploy command of a live deployment, and the services the deployment
places there. -/
structure Deploying (env : Environment) (now : ℤ) (args : ClaimArgs) (db : Db) (row : CommandRow)
    (deploymentId : DocId AppDeployment) (operation : Option LeaseOperation) (dep : AppDeployment)
    (services : List AppService) : Prop where
  stored : db.nodeCommands.get args.commandId = some row
  node : requireNode env args.credential db = .ok row.nodeId
  leased : row.isLeased now = true
  owner : row.owner = some args.owner
  epoch : row.epoch = args.epoch
  command : row.command = .deploy deploymentId operation
  deployment : db.appDeployments.get deploymentId = some dep
  target : row.nodeId ∈ dep.targetNodeIds
  active : dep.stage ≠ .done ∧ dep.stage ≠ .failed
  lease : ∃ epoch lease, dep.leaseEpoch = some epoch ∧ db.lease dep.app = some lease ∧
    leaseAdmits (some lease) epoch now = true ∧ lease.operation = some (operation.getD .deploy)
  placed : ∃ app placement, appByName db dep.app = .ok app ∧ placementOf dep app = some placement ∧
    services = servicesOn row.nodeId placement

/-- Whether some of the services are started with the values of a scope. -/
def Needs (scope : SecretScope) (services : List AppService) : Prop :=
  match scope.service with
  | none => services ≠ []
  | some name => ∃ s ∈ services, s.name = name

/-- A claimant that is deploying, on its own Node, what a scope belongs to. -/
def Entitled (env : Environment) (now : ℤ) (args : ClaimArgs) (scope : SecretScope) (db : Db) : Prop :=
  ∃ row deploymentId operation dep services,
    Deploying env now args db row deploymentId operation dep services ∧ dep.app = scope.app ∧
      Needs scope services

/-- The services a deploy command is given are those of a live deployment. -/
lemma deploying_of_deploymentSpec {row : CommandRow}
    {deploymentId : DocId AppDeployment} {operation : Option LeaseOperation} {spec : DeploymentSpec}
    (hclaimed : claimed env now args db = .ok row) (hcommand : row.command = .deploy deploymentId operation)
    (h : deploymentSpec env now deploymentId row.nodeId operation db = .ok spec) :
    Deploying env now args db row deploymentId operation spec.dep spec.services ∧
      spec.app = spec.dep.app ∧ spec.services ≠ [] := by
  rcases claimed_ok hclaimed with ⟨hrow, hnode, hleased, howner, hepoch, -⟩
  rcases deploymentSpec_ok h with ⟨hactive, happ, app, placement, hstored, hplacement, hservices, hsome⟩
  rcases activeDeployment_ok hactive with
    ⟨hdep, hadmits, hopen, epoch, leaseId, lease, hleaseEpoch, hassert, hoperation⟩
  rcases assertAppLease_ok hassert with ⟨hlease, hlive⟩
  have hlease := lease_of_leaseRow hlease
  refine ⟨⟨hrow, hnode, hleased, howner, hepoch, hcommand, hdep, ?_, ?_, ?_,
    app, placement, hstored, hplacement, hservices⟩, happ, hsome⟩
  · simpa [DeployRole.admits] using hadmits
  · simpa [isTerminalStage] using hopen
  · refine ⟨epoch, lease, hleaseEpoch, hlease, ?_, hoperation⟩
    rw [hlease] at hlive
    exact hlive

/-! ## Two databases -/

/-- The scopes of an App and of some of its services. -/
def readScopes (env : Environment) (app : String) (services : List AppService) (db : Db) :
    Result DeploySecrets := do
  let master ← env.requireMasterKey
  let appWide ← readSecrets db master ⟨app, none⟩
  let perService ← services.mapM fun service => do
    let values ← readSecrets db master ⟨app, some service.name⟩
    pure (service.name, values)
  pure ⟨appWide, perService⟩

section Scopes

variable {nodeId : DocId Node} {deploymentId : DocId AppDeployment} {dep : AppDeployment}
  {app : Option (DocId App × App)} {placement : DocId Node × List AppService}
  (hdep : db.appDeployments.get deploymentId = some dep) (happ : appByName db dep.app = .ok app)
  (hplacement : placementOf dep app = some placement)

include hdep happ hplacement

/-- What a deployment with a placement reads of the secrets are the scopes of its App and of the
services that are placed on the Node. -/
lemma secretsForNodeDeploy_eq : secretsForNodeDeploy env now nodeId deploymentId db = (do
      refuseIf (dep.targetNodeIds.contains nodeId = false) "This deployment does not target this Node"
      refuseIf (isTerminalStage dep.stage) "This deployment has finished"
      let lease ← leaseRow db dep.app
      refuseIf (¬ ∃ epoch ∈ dep.leaseEpoch, leaseAdmits (leaseOf lease) epoch now)
        "This deployment no longer holds its App's lease"
      refuseIf (servicesOn nodeId placement = []) "No services of this App are placed on this Node"
      readScopes env dep.app (servicesOn nodeId placement) db) := by
  simp only [secretsForNodeDeploy, hdep]
  -- the stored App is read only when the deployment has no plan of its own
  cases hplan : dep.plan with
  | some plan =>
    have hown : placementOf dep none = some placement := by
      simp only [placementOf, hplan] at hplacement ⊢
      exact hplacement
    simp only [pure_bind, hown, ne_eq, reduceCtorEq, not_false_eq_true, true_and]
    rfl
  | none =>
    simp only [happ, ok_bind, hplacement, ne_eq, reduceCtorEq, not_false_eq_true, true_and]
    rfl

lemma secretsForNodeDeploy_congr (htables : ∃ secrets, db' = { db with appSecrets := secrets })
    (hread : ∀ master service, (service = none ∨ ∃ s ∈ servicesOn nodeId placement, service = some s.name) →
      readSecrets db' master ⟨dep.app, service⟩ = readSecrets db master ⟨dep.app, service⟩) :
    secretsForNodeDeploy env now nodeId deploymentId db'
      = secretsForNodeDeploy env now nodeId deploymentId db := by
  have hscopes : readScopes env dep.app (servicesOn nodeId placement) db'
      = readScopes env dep.app (servicesOn nodeId placement) db := by
    refine bind_congr fun master => ?_
    rw [hread master none (.inl rfl)]
    rw [mapM_congr fun s hs => by rw [hread master (some s.name) (.inr ⟨s, hs, rfl⟩)]]
  rcases htables with ⟨secrets, rfl⟩
  have hdep' : { db with appSecrets := secrets }.appDeployments.get deploymentId = some dep := hdep
  have happ' : appByName { db with appSecrets := secrets } dep.app = .ok app := happ
  rw [secretsForNodeDeploy_eq hdep' happ' hplacement, secretsForNodeDeploy_eq hdep happ hplacement,
    hscopes]
  rfl

lemma secretsForNodeDeploy_ok {scopes : DeploySecrets}
    (h : secretsForNodeDeploy env now nodeId deploymentId db = .ok scopes) :
    ∃ master, readSecrets db master ⟨dep.app, none⟩ = .ok scopes.appWide ∧
      List.Forall₂ (fun s entry => entry.1 = s.name ∧
        readSecrets db master ⟨dep.app, some s.name⟩ = .ok entry.2)
          (servicesOn nodeId placement) scopes.services := by
  rw [secretsForNodeDeploy_eq hdep happ hplacement, refuseIf_bind_ok, refuseIf_bind_ok, bind_ok] at h
  rcases h with ⟨-, -, lease, -, h⟩
  rw [refuseIf_bind_ok, refuseIf_bind_ok, readScopes, bind_ok] at h
  rcases h with ⟨-, -, master, -, h⟩
  rcases bind_ok.mp h with ⟨appWide, happWide, h⟩
  rcases bind_ok.mp h with ⟨services, hservices, h⟩
  cases h
  refine ⟨master, happWide, (mapM_ok.mp hservices).imp fun s entry hentry => ?_⟩
  rcases bind_ok.mp hentry with ⟨values, hvalues, hentry⟩
  cases hentry
  exact ⟨rfl, hvalues⟩

end Scopes

/-- A claimant that is not entitled to a scope is answered the same whatever its values are. -/
lemma payload_congr (h : AgreeBut scope db db') (hnot : ¬ Entitled env now args scope db) :
    payload env now args db' = payload env now args db := by
  have hclaimed : claimed env now args db' = claimed env now args db := by
    rcases h.tables with ⟨secrets, rfl⟩
    rfl
  simp only [payload, hclaimed]
  rcases hrow : claimed env now args db with message | row
  · rfl
  simp only [ok_bind]
  cases hcommand : row.command with
  | operate operation => rfl
  | logs operation => rfl
  | spec deploymentId | build deploymentId service =>
    rcases h.tables with ⟨secrets, rfl⟩
    rfl
  | deploy deploymentId operation =>
    have hspec : deploymentSpec env now deploymentId row.nodeId operation db'
        = deploymentSpec env now deploymentId row.nodeId operation db := by
      rcases h.tables with ⟨secrets, rfl⟩
      rfl
    simp only [deployPayload, hspec]
    rcases hok : deploymentSpec env now deploymentId row.nodeId operation db with message | spec
    · rfl
    rcases deploying_of_deploymentSpec hrow hcommand hok with ⟨hdeploying, -, hsome⟩
    rcases hdeploying.placed with ⟨app, placement, happ, hplacement, hservices⟩
    have hread : ∀ master service,
        (service = none ∨ ∃ s ∈ servicesOn row.nodeId placement, service = some s.name) →
        readSecrets db' master ⟨spec.dep.app, service⟩
          = readSecrets db master ⟨spec.dep.app, service⟩ := by
      intro master service hservice
      refine h.readSecrets_eq fun hscope => hnot ?_
      refine ⟨row, deploymentId, operation, spec.dep, spec.services, hdeploying,
        congrArg SecretScope.app hscope, ?_⟩
      rw [← hscope]
      rcases hservice with rfl | ⟨s, hs, rfl⟩
      · exact hsome
      · exact ⟨s, hservices ▸ hs, rfl⟩
    simp only [secretsForNodeDeploy_congr hdeploying.deployment happ hplacement h.tables hread]

/-! ## What is answered -/

/-- The value a service of an App is to be started with: its own port, else what is stored for the
service, else for the App, else what the service says itself. -/
def expectedValue (db : Db) (app : String) (s : AppService) (name : String) : Option String :=
  match (s.env.getD []).lookup "PORT" with
  | some port =>
    if name = "PORT" ∧ port ≠ "" then some port
    else (secretValue db ⟨app, some s.name⟩ name).or
      ((secretValue db ⟨app, none⟩ name).or ((s.env.getD []).lookup name))
  | none => (secretValue db ⟨app, some s.name⟩ name).or
      ((secretValue db ⟨app, none⟩ name).or ((s.env.getD []).lookup name))

/-- The scope of a service among those that were read. -/
lemma lookup_scopes {services : List AppService} {read : List (String × Env)}
    (h : List.Forall₂ (fun s entry => entry.1 = s.name ∧
      readSecrets db master ⟨app, some s.name⟩ = .ok entry.2) services read) (hs : s ∈ services) :
    readSecrets db master ⟨app, some s.name⟩ = .ok ((read.lookup s.name).getD []) := by
  induction h with
  | nil => simp at hs
  | @cons s' entry services read hentry _ ih =>
    rcases entry with ⟨name, values⟩
    rcases hentry with ⟨rfl, hvalues⟩
    by_cases hname : s.name = s'.name
    · rw [hname, lookup_cons_self]
      exact hvalues
    · rw [lookup_cons, beq_eq_false_iff_ne.mpr hname]
      rcases mem_cons.mp hs with rfl | hs
      · exact absurd rfl hname
      · exact ih hs

section Stored

variable {scopes : DeploySecrets} (happWide : readSecrets db master ⟨app, none⟩ = .ok scopes.appWide)
  (hown : readSecrets db master ⟨app, some s.name⟩ = .ok ((scopes.services.lookup s.name).getD []))

include happWide hown

/-- A service is started with what is stored for it. -/
lemma lookup_serviceEnv (name : String) : (serviceEnv scopes s).lookup name = expectedValue db app s name := by
  have hread := read_assign (lookup name) (lookup_set · · · name)
  have hbase : lookup name (((s.env.getD []).assign scopes.appWide).assign
      ((scopes.services.lookup s.name).getD [])) = (secretValue db ⟨app, some s.name⟩ name).or
          ((secretValue db ⟨app, none⟩ name).or ((s.env.getD []).lookup name)) := by
    rw [hread, hread, readSecrets_ok hown, readSecrets_ok happWide]
  simp only [serviceEnv, expectedValue]
  rcases hport : (s.env.getD []).lookup "PORT" with _ | port
  · exact hbase
  simp only
  split_ifs with hempty hname hname
  · exact absurd hempty hname.2
  · exact hbase
  · rw [lookup_set, if_pos hname.1]
  · have hne : name ≠ "PORT" := fun heq => hname ⟨heq, hempty⟩
    rw [lookup_set, if_neg hne]
    exact hbase

/-- An entry of the answer is a service as it is stored, with the environment it is to have. -/
structure AsStored (db : Db) (app : String) (s : AppService) (entry : PayloadService) : Prop where
  name : entry.name = s.name
  image : entry.image = s.image
  args : entry.args = s.args
  port : entry.port = s.port.getD 0
  route : entry.route = s.route.getD ""
  env : ∀ name, List.lookup name entry.env = expectedValue db app s name
  lines : ∀ pair ∈ entry.env, isMultiline pair.2 = false

lemma payloadService_ok {entry : PayloadService} (h : payloadService scopes s = .ok entry) :
    AsStored db app s entry := by
  simp only [payloadService] at h
  rcases refuseIf_bind_ok.mp h with ⟨hlines, ⟨⟩⟩
  refine ⟨rfl, rfl, rfl, rfl, rfl, fun name => lookup_serviceEnv happWide hown name, ?_⟩
  simpa using hlines

end Stored

/-- **A Node learns secrets only while it deploys.**  For any claim that is presented: two databases that
differ in the values of one scope give the same payload or the same refusal, unless the claim is
the live claim of a deploy command of a live deployment of the scope's App, and the deployment
places a service with that scope on the Node.  When such a deploy command is answered, the
answer lists the services that are placed on the Node, in their order, each with exactly the
environment it is to have, without line breaks, and is at most 200 KiB long. -/
theorem secrets_only_while_deploying (env : Environment) (now : ℤ) (args : ClaimArgs) (db : Db) :
    (∀ scope db', AgreeBut scope db db' → ¬ Entitled env now args scope db →
      payload env now args db' = payload env now args db) ∧
    ∀ row deploymentId operation answer, db.nodeCommands.get args.commandId = some row →
      row.command = .deploy deploymentId operation → payload env now args db = .ok answer →
      ∃ dep services entries, Deploying env now args db row deploymentId operation dep services ∧
        services ≠ [] ∧ answer = .deploy dep.app entries ∧
        List.Forall₂ (AsStored db dep.app) services entries ∧ env.payloadBytes answer ≤ 200 * 1024 := by
  refine ⟨fun scope db' hagree hnot => payload_congr hagree hnot, ?_⟩
  intro row deploymentId operation answer hrow hcommand hpayload
  rcases bind_ok.mp hpayload with ⟨row', hclaimed, hpayload⟩
  cases (claimed_ok hclaimed).1.symm.trans hrow
  simp only [hcommand] at hpayload
  rcases bind_ok.mp hpayload with ⟨spec, hspec, hpayload⟩
  rcases bind_ok.mp hpayload with ⟨scopes, hscopes, hpayload⟩
  rcases bind_ok.mp hpayload with ⟨entries, hentries, hpayload⟩
  rcases refuseIf_bind_ok.mp hpayload with ⟨hsize, ⟨⟩⟩
  rcases deploying_of_deploymentSpec hclaimed hcommand hspec with ⟨hdeploying, happ, hsome⟩
  rcases hdeploying.placed with ⟨app, placement, hstored, hplacement, hservices⟩
  rcases secretsForNodeDeploy_ok hdeploying.deployment hstored hplacement hscopes with
    ⟨master, happWide, hread⟩
  rw [← hservices] at hread
  refine ⟨spec.dep, spec.services, entries, hdeploying, hsome, by rw [happ], ?_, not_lt.mp hsize⟩
  have hmem : List.Forall₂ (fun s entry => s ∈ spec.services ∧ payloadService scopes s = .ok entry)
      spec.services entries :=
    (forall₂_and_left _ _).mpr ⟨fun s hs => hs, mapM_ok.mp hentries⟩
  exact hmem.imp fun s entry hentry =>
    payloadService_ok happWide (lookup_scopes hread hentry.1) hentry.2

/-- A Node that is deploying an App of one service, while another App has a secret. -/
def deployingNode (other : String) : Db := { emptyDb with
    nodeCredentials := .insert .empty ⟨0, "credential", none⟩
    appDataKeys := ⟨2, [(0, ⟨⟨"web", none⟩, "key"⟩), (1, ⟨⟨"web", some "site"⟩, "key"⟩)],
      by decide, by decide⟩
    appSecrets := ⟨3, [(0, ⟨⟨"web", none⟩, "MODE", "app"⟩), (1, ⟨⟨"web", some "site"⟩, "PORT", "1"⟩),
      (2, ⟨⟨"other", none⟩, "MODE", other⟩)], by simp, by simp⟩
    appDeployments := ⟨1, [(0,
      { app := "web", stage := .deploying, detail := "", urls := [], error := none, startedAt := 0
        finishedAt := none, targetNodeIds := [0], leaseEpoch := some 1, trigger := none
        operation := some .deploy, source := none, sourceDeleted := none, buildNodeId := none
        defaultNodeId := none, keepsPlacement := none, port := none, spec := none
        plan := some ⟨0, [⟨"site", "image", [], some 80, none, none, some [("PORT", "80"), ("MODE", "plain")]⟩],
          [], [], [0], []⟩
        stageStartedAt := none, failover := none })], by decide, by decide⟩
    appLeases := .insert .empty ⟨"web", some "run", some .deploy, 1, 100, 0⟩
    nodeCommands := .insert .empty
      { nodeId := 0, idempotencyKey := "deploy", command := .deploy 0 none, app := some "web"
        appEpoch := some 1, createdAt := 0, status := .running, unsettled := true, epoch := 1
        owner := some "agent", leaseUntil := some 100, outcome := none, finishedAt := none
        deploymentId := none, specText := none } }

theorem secrets_only_while_deploying_of_deployingNode :
    (payload plainEnvironment 5 ⟨"credential", 0, "agent", 1⟩ (deployingNode "secret")).toOption
        = some (.deploy "web" [⟨"site", "image", [], 80, "", [("PORT", "80"), ("MODE", "app")]⟩]) ∧
      payload plainEnvironment 5 ⟨"credential", 0, "agent", 1⟩ (deployingNode "other")
        = payload plainEnvironment 5 ⟨"credential", 0, "agent", 1⟩ (deployingNode "secret") := by
  refine ⟨by decide, ?_⟩
  refine (secrets_only_while_deploying plainEnvironment 5 ⟨"credential", 0, "agent", 1⟩
    (deployingNode "secret")).1 ⟨"other", none⟩ (deployingNode "other") ⟨⟨_, rfl⟩, ?_⟩ ?_
  · simp [deployingNode]
  rintro ⟨row, deploymentId, operation, dep, services, hdeploying, happ, -⟩
  -- the only deployment is of another App
  have hdep := Table.get_eq_some_iff.mp hdeploying.deployment
  simp only [deployingNode, mem_singleton, Prod.mk.injEq] at hdep
  rw [hdep.2] at happ
  simp at happ

end EraInfra.Infra
