import EraInfra.Backend.Reconcile

/-!
# Webhook intake

Which repositories may put work on the fleet (`policy.ts`), and the life of a delivery that arrived
(`webhooks.ts`).  A delivery is recorded once per `X-GitHub-Delivery` id and left to a processor;
the processor is one transaction, so an error leaves the row pending for
`retryStalledDeliveries` (`Reconcile`) to find.

`processDelivery` also returns the event it applied.  The source returns nothing; the value is for
an observer who counts applications.
-/

namespace EraInfra

open DocStore

/-! ## Which repositories may use the fleet -/

/-- The environment variables intake reads. -/
structure IntakeEnv where
  allowedRepos : Option String
  allowPublicRepos : Option String

structure RepositoryPolicy where
  allowedRepos : List String
  allowPublicRepos : Bool

inductive RepositoryDecision
  | allowed
  | refused (reason : String)

def wildcard : String := "*"

def splitList : Option String → List String
  | none => []
  | some value => ((splitText ',' value).map trim).filter fun entry => entry ≠ ""

section Policy

variable (js : Engine)

def isTruthyFlag : Option String → Bool
  | none => false
  | some value =>
    let normalized := js.toLowerCase (trim value)
    normalized = "1" || normalized = "true" || normalized = "yes"

/-- The policy as the environment sets it. -/
def parseRepositoryPolicy (env : IntakeEnv) : RepositoryPolicy where
  allowedRepos := (splitList env.allowedRepos).map js.toLowerCase
  allowPublicRepos := isTruthyFlag js env.allowPublicRepos

/-- `owner/*` allows every repository of one owner, `*` every repository. -/
def matchesPattern (repo pattern : String) : Bool :=
  if pattern = wildcard then true
  else if pattern = repo then true
  else if !"/*".toList.isSuffixOf pattern.toList then false
  else
    let owner := pattern.toList.take (pattern.length - 2)
    !owner.isEmpty && (owner ++ ['/']).isPrefixOf repo.toList

/-- Whether a repository may use the fleet, and otherwise why not. -/
def decideRepository (repo : String) (repoIsPublic : Bool) (policy : RepositoryPolicy) :
    RepositoryDecision :=
  let normalized := js.toLowerCase (trim repo)
  if normalized = "" then .refused "Webhook payload carried no repository name"
  else if policy.allowedRepos.isEmpty then
    .refused ("ALLOWED_REPOS is not configured, so no repository may use this fleet. " ++
      "Set it to a comma-separated list of owner/name entries (owner/* and * are supported).")
  else if !policy.allowedRepos.any (matchesPattern normalized) then
    .refused s!"Repository {repo} is not in ALLOWED_REPOS"
  else if repoIsPublic && !policy.allowPublicRepos then
    .refused (s!"Repository {repo} is public and ALLOW_PUBLIC_REPOS is not enabled. " ++
      "Forks of a public repository can run untrusted code on your runner hosts.")
  else .allowed

end Policy

/-! ## Deliveries that arrived -/

structure RecordDeliveryArgs where
  deliveryId : String
  event : String
  workflowJob : Option WorkflowJobEvent

/-- The row of a delivery that has just arrived. -/
def recordedDelivery (now : ℤ) (args : RecordDeliveryArgs) : WebhookDelivery where
  deliveryId := args.deliveryId
  event := args.event
  receivedAt := now
  status := .pending
  workflowJob := args.workflowJob
  attempts := 0
  lastError := none
  settledAt := none

/-- Record a verified delivery, once per delivery id.  Returns whether it was a duplicate. -/
def recordDelivery (now : ℤ) (args : RecordDeliveryArgs) (db : Db) : Result (Bool × Db) := do
  match ← db.webhookDeliveries.unique (.notUnique "webhookDeliveries")
      fun delivery => delivery.deliveryId = args.deliveryId with
  | some _ => pure (true, db)
  | none =>
    pure (false,
      { db with webhookDeliveries := db.webhookDeliveries.insert (recordedDelivery now args) })

/-- The row of a delivery intake refused. -/
def rejectedDelivery (now : ℤ) (reason : String) (stored : WebhookDelivery) : WebhookDelivery :=
  { stored with status := .rejected, lastError := some reason, settledAt := some now }

/-- The row of a delivery whose event was applied; `attempts` is what the processor read. -/
def processedDelivery (now : ℤ) (attempts : ℕ) (stored : WebhookDelivery) : WebhookDelivery :=
  { stored with status := .processed, attempts := attempts + 1, settledAt := some now }

def Db.patchDelivery (db : Db) (i : DocId WebhookDelivery)
    (f : WebhookDelivery → WebhookDelivery) : Db :=
  { db with webhookDeliveries := db.webhookDeliveries.patch i f }

/-- Apply one recorded delivery.  A delivery that is not pending is left alone. -/
def processDelivery (js : Engine) (env : IntakeEnv) (now : ℤ) (deliveryId : DocId WebhookDelivery)
    (db : Db) : Result (Option WorkflowJobEvent × Db) :=
  match db.webhookDeliveries.get deliveryId with
  | none => pure (none, db)
  | some delivery =>
    if delivery.status ≠ .pending then pure (none, db)
    else
      match delivery.workflowJob with
      | none =>
        pure (none, db.patchDelivery deliveryId
          (rejectedDelivery now "Delivery carried no workflow_job payload"))
      | some event =>
        -- the allowlist is enforced before any job row can exist
        match decideRepository js event.repo event.repoIsPublic (parseRepositoryPolicy js env) with
        | .refused reason =>
          pure (none, db.patchDelivery deliveryId (rejectedDelivery now reason))
        | .allowed => do
            let db ← applyWorkflowJob now event db
            pure (some event, db.patchDelivery deliveryId (processedDelivery now delivery.attempts))

/-! ## What applying an event leaves alone -/

section Frame

variable {db db' : Db} {now : ℤ}

variable {job : Option Job} {commands : List (DocId Command × Command)} {j : DocId Job}
  {event : WorkflowJobEvent}

@[simp] lemma webhookDeliveries_discardCommands :
    (discardCommands now commands job db).webhookDeliveries = db.webhookDeliveries :=
  view_discardCommands Db.webhookDeliveries fun _ _ _ => rfl

@[simp] lemma webhookDeliveries_releaseJobSlot {machineId : Option (DocId Machine)} :
    (releaseJobSlot machineId db).webhookDeliveries = db.webhookDeliveries := by
  unfold releaseJobSlot
  split
  · rfl
  · split <;> rfl

@[simp] lemma webhookDeliveries_patchJob {f : Job → Job} :
    (db.patchJob j f).webhookDeliveries = db.webhookDeliveries := rfl

@[simp] lemma webhookDeliveries_patchCommand {k : DocId Command} {f : Command → Command} :
    (db.patchCommand k f).webhookDeliveries = db.webhookDeliveries := rfl

@[simp] lemma webhookDeliveries_displace {commandId : DocId Command}
    {provisionedId actualId : DocId Job} {actual : Job} :
    (displace now commandId provisionedId actualId actual db).webhookDeliveries
      = db.webhookDeliveries := by
  unfold displace
  dsimp only
  split
  · split
    · simp
    · simp
  · split_ifs <;> simp

@[simp] lemma webhookDeliveries_cancelCommands {neverStarted : Bool} {job : Job} :
    (cancelCommands now neverStarted job commands db).webhookDeliveries = db.webhookDeliveries := by
  refine foldl_frame Db.webhookDeliveries (fun db r => ?_) commands db
  split_ifs <;> simp [view_enqueueRunnerDeletion Db.webhookDeliveries fun _ _ => rfl]

@[simp] lemma webhookDeliveries_knownJob {existing : Option (DocId Job × Job)} :
    (knownJob now event existing db).2.webhookDeliveries = db.webhookDeliveries := by
  unfold knownJob
  split <;> rfl

lemma webhookDeliveries_adoptRunnerAssignment {actual job : Job} {runnerName : Option String}
    (h : adoptRunnerAssignment now j actual runnerName db = .ok (job, db')) :
    db'.webhookDeliveries = db.webhookDeliveries := by
  unfold adoptRunnerAssignment at h
  split at h
  · cases h
    rfl
  split at h
  · cases h
    rfl
  obtain ⟨found, -, h⟩ := bind_ok.mp h
  split at h
  · cases h
    rfl
  split at h
  · cases h
    rfl
  split at h
  · cases h
    rfl
  split at h
  · cases h
    rfl
  split at h
  · cases h
    rfl
  cases h
  split_ifs <;> simp

/-- **Applying an event touches no delivery.** -/
theorem webhookDeliveries_applyWorkflowJob (h : applyWorkflowJob now event db = .ok db') :
    db'.webhookDeliveries = db.webhookDeliveries := by
  unfold applyWorkflowJob at h
  dsimp only at h
  split at h
  · rw [← pure_ok.mp h]
  split at h
  · split at h
    · split at h
      · rw [← pure_ok.mp h, webhookDeliveries_patchJob]
      · rw [← pure_ok.mp h]
    · rw [← pure_ok.mp h]
  · obtain ⟨⟨job, db₁⟩, hadopted, h⟩ := bind_ok.mp h
    have hframe := webhookDeliveries_adoptRunnerAssignment hadopted
    rw [webhookDeliveries_knownJob] at hframe
    split at h
    · rw [← pure_ok.mp h, webhookDeliveries_patchJob, hframe]
    · rw [← pure_ok.mp h, hframe]
  · split at h
    · rw [← pure_ok.mp h]
    obtain ⟨⟨job, db₁⟩, hadopted, h⟩ := bind_ok.mp h
    have hframe := webhookDeliveries_adoptRunnerAssignment hadopted
    rw [webhookDeliveries_knownJob] at hframe
    split at h
    · rw [← pure_ok.mp h, hframe]
    · rw [← pure_ok.mp h, settleCompleted]
      simp [hframe]

end Frame

end EraInfra
