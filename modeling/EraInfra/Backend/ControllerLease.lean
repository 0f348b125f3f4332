import EraInfra.Backend.Policy
import EraInfra.Core.Transaction

/-!
# The controller lease

`controllerLease.ts`: which controller may serve a Profile, and the check that fences every other
one off it.  A Profile has at most one lease row; its `epoch` goes up whenever the holder changes
and whenever the lease is given up, and a write is accepted only under the epoch of the grant it
was made with.

**What a call can do.**  `acquire_cases`, `renew_cases` and `release_cases` list what each
operation does to the lease row and under which conditions, and
`authorizeController_spec` what an accepted check has read.  Proofs about leases
start from these four and do not open the definitions again.
-/

namespace EraInfra

open DocStore Option

/-! ## Constants -/

section

variable (now : ℤ) (profile : String)

/-- How often the holder renews. -/
def leaseRenewIntervalMs : ℤ := 10000

/-- How long a grant or renewal lasts without another renewal. -/
def leaseTtlMs : ℤ := 30000

/-- A fresh network score below this makes a Worker a poor candidate. -/
def poorNetworkScoreBelow : ℕ := 40

/-- How long a free lease is reserved for better-connected candidates. -/
def poorNetworkHeadStartMs : ℤ := 15000

/-- The soonest a refused candidate is told to ask again. -/
def leaseMinRetryMs : ℤ := 1000

/-! ## Callers -/

/-- Which of the two rotating controller tokens a request carried. -/
inductive RotationSlot
  | current
  | next

/-- Who is calling a controller route; `epoch` is the lease epoch the request carries. -/
inductive ControllerCaller
  | controllerToken (slot : RotationSlot) (epoch : Option ℤ)
  | machine (token : String) (epoch : Option ℤ)

variable (caller : ControllerCaller)

def ControllerCaller.epoch : ControllerCaller → Option ℤ
  | .controllerToken _ epoch => epoch
  | .machine _ epoch => epoch

/-- A resolved credential: the shared controller token, or one Worker's. -/
inductive Identity
  | controllerToken
  | machine (machineId : DocId Machine)

def Identity.credential : Identity → Credential
  | .controllerToken => .controllerToken
  | .machine _ => .machine

def Identity.machineId : Identity → Option (DocId Machine)
  | .controllerToken => none
  | .machine machineId => some machineId

/-- The lease of a Profile. -/
def leaseFor (db : Db) (profile : String) : Result (Option (DocId ControllerLease × ControllerLease)) :=
  db.controllerLeases.unique (.notUnique "controllerLeases") fun lease => lease.profile = profile

/-- The Worker with a token; the empty token names none. -/
def machineFor (db : Db) (token : String) : Result (Option (DocId Machine × Machine)) :=
  if token = "" then pure none
  else db.machines.unique (.notUnique "machines") fun machine => machine.token = token

def profileFor (db : Db) (name : String) : Result (Option (DocId Profile × Profile)) :=
  db.profiles.unique (.notUnique "profiles") fun profile => profile.name = name

def readinessFor (db : Db) (machineId : DocId Machine) (profile : String) :
    Result (Option (DocId WorkerReadiness × WorkerReadiness)) :=
  db.workerReadiness.unique (.notUnique "workerReadiness") fun readiness =>
    readiness.machineId = machineId && readiness.profile = profile

/-- The Worker a machine token names; a request with an unknown one is refused. -/
def requireMachine (db : Db) (token : String) : Result (DocId Machine × Machine) := do
  match ← machineFor db token with
  | none => throw (.refused .unauthorized "Unknown machine token")
  | some machine => pure machine

/-- Resolve the caller's credential. -/
def identityOf (db : Db) (caller : ControllerCaller) : Result Identity :=
  match caller with
  | .controllerToken _ _ => pure .controllerToken
  | .machine token _ => do
      let (machineId, _) ← requireMachine db token
      pure (.machine machineId)

/-- Whether a lease is held by the caller: under the shared token, or by the same Worker. -/
def holderMatches (holder : LeaseHolder) (caller : Identity) : Bool :=
  if holder.credential ≠ caller.credential then false
  else caller.credential = .controllerToken || holder.machineId = caller.machineId

/-! ## The write check -/

/-- The check every controller route makes before it reads or writes a Profile's state. -/
def authorizeController (db : Db) :
    Result Identity :=
  match caller with
  | .machine token epoch => do
      let (machineId, _) ← requireMachine db token
      let lease ← leaseFor db profile
      let refusal : Err := .refused .lease "This Worker does not hold the Profile's controller lease"
      match epoch, lease with
      | some epoch, some (_, lease) =>
        match lease.holder with
        | none => throw refusal
        | some holder =>
          if !holderMatches holder (.machine machineId) || lease.epoch ≠ epoch ||
              lease.expiresAt ≤ now then throw refusal
          else pure (.machine machineId)
      | _, _ => throw refusal
  | .controllerToken _ epoch => do
      match epoch with
      | none =>
        throw (.refused .lease "Controllers must hold the Profile's lease and send its epoch")
      | some epoch =>
        let lease ← leaseFor db profile
        let refusal : Err :=
          .refused .lease "The lease epoch is stale: another controller holds this Profile"
        match lease with
        | none => throw refusal
        | some (_, lease) =>
          match lease.holder with
          | none => throw refusal
          | some holder =>
            if holder.credential ≠ .controllerToken || lease.epoch ≠ epoch ||
                lease.expiresAt ≤ now then throw refusal
            else pure .controllerToken

/-- Refuse a machine-token caller on a route that never accepts one. -/
def requireControllerToken : Result Unit :=
  match caller with
  | .machine _ _ =>
    throw (.refused .forbidden
      "A Worker's controller cannot change a Profile; use the controller token")
  | .controllerToken _ _ => pure ()

/-- Whether a standby may report a heartbeat for this Profile. -/
def authorizeStandbyReport (db : Db) :
    Result Unit :=
  match caller with
  | .controllerToken _ _ => pure ()
  | .machine token _ => do
      let (machineId, _) ← requireMachine db token
      match ← readinessFor db machineId profile with
      | none => throw (.refused .forbidden "This Worker does not serve the Profile")
      | some _ => pure ()

/-! ## Acquire -/

/-- Whether the Worker's fresh benchmark rates its network to GitHub as poor. -/
def networkIsPoor (machine : Machine) (now : ℤ) : Bool :=
  let network := benchmarkScore machine.benchmark .network now
  network.source = .fresh && network.score < poorNetworkScoreBelow

/-- What a standby needs to know to serve a Profile. -/
structure ProfileSettings where
  name : String
  scaleSetName : String
  executor : Executor
  imageRelease : String
  vcpus : ℕ
  memoryMiB : ℕ
  warmPool : ℕ
  fitPolicy : FitPolicy
  minRunners : ℕ
  maxRunners : ℕ
  githubConfigUrl : String
  githubCacheFacts : Option Bool
  egress : Option ProfileEgress
  runnerGroup : Option String
  labels : Option (List String)
  workerLabels : Option (List String)

/-- A Profile as a controller reads it, once it has an address at GitHub. -/
def profileSettings (profile : Profile) : Option ProfileSettings :=
  profile.githubConfigUrl.map fun githubConfigUrl =>
    { name := profile.name
      scaleSetName := profile.scaleSetName
      executor := profile.executor
      imageRelease := profile.imageRelease
      vcpus := profile.vcpus
      memoryMiB := profile.memoryMiB
      warmPool := profile.warmPool.getD 0
      fitPolicy := profile.fitPolicy.getD .balanced
      minRunners := profile.minRunners
      maxRunners := profile.maxRunners
      githubConfigUrl := githubConfigUrl
      githubCacheFacts := profile.githubCacheFacts
      egress := profile.egress
      runnerGroup := profile.runnerGroup
      labels := profile.labels
      workerLabels := profile.workerLabels }

inductive AcquireRefusal
  | held
  | headStart
  | profileUnknown
  | profilePaused
  | profileIncomplete
  | notReady
  | incapable

inductive AcquireResult
  | granted (epoch ttlMs renewIntervalMs : ℤ) (networkPoor : Bool) (profile : Option ProfileSettings)
  | refused (reason : AcquireRefusal) (holder : Option String) (retryAfterMs : ℤ) (networkPoor : Bool)

structure AcquireArgs where
  profile : String
  hostname : String
  instanceId : String
  activate : Option Bool
  canPublishCacheFacts : Option Bool
  caller : ControllerCaller

variable (args : AcquireArgs) (identity : Identity)

/-- The outcome of the checks before the lease is looked at. -/
inductive Candidacy
  | refused (reason : AcquireRefusal) (networkPoor : Bool)
  | candidate (identity : Identity) (networkPoor : Bool)

/-- Whether the caller may ask for the lease at all.  A Worker may ask only for a Profile that is
active, fully described and that it is ready to serve; the controller token publishes the
Profile itself and only has to name a paused one explicitly. -/
def candidacy (profile : Option Profile) (db : Db) :
    Result Candidacy :=
  match args.caller with
  | .machine token _ => do
      let (machineId, machine) ← requireMachine db token
      let networkPoor := networkIsPoor machine now
      match profile with
      | none => pure (.refused .profileUnknown networkPoor)
      | some profile =>
        if profile.state ≠ .active then return .refused .profilePaused networkPoor
        if profile.githubConfigUrl = none then return .refused .profileIncomplete networkPoor
        match ← readinessFor db machineId args.profile with
        | none => pure (.refused .notReady networkPoor)
        | some (_, readiness) =>
          if readiness.state ≠ .ready ∨ now - machine.lastSeen ≥ workerOfflineAfterMs ∨
              readiness.executor ≠ profile.executor ∨
              readiness.imageRelease ≠ profile.imageRelease ∨
              readiness.vcpus ≠ some profile.vcpus ∨
              readiness.memoryMiB ≠ some profile.memoryMiB then
            return .refused .notReady networkPoor
          if profile.githubCacheFacts = some true ∧ args.canPublishCacheFacts ≠ some true then
            return .refused .incapable networkPoor
          pure (.candidate (.machine machineId) networkPoor)
  | .controllerToken _ _ =>
    if profile.map Profile.state = some .paused ∧ args.activate ≠ some true then
      pure (.refused .profilePaused false)
    else pure (.candidate .controllerToken false)

/-- This same process already holds the unexpired lease. -/
def ownLease (lease : Option ControllerLease) (instanceId : String) (identity : Identity)
    (now : ℤ) : Bool :=
  match lease with
  | none => false
  | some lease =>
    match lease.holder with
    | none => false
    | some holder =>
      holder.instanceId = instanceId && holderMatches holder identity && lease.expiresAt > now

/-- The holder a grant records. -/
def Identity.holder (hostname instanceId : String) : LeaseHolder where
  credential := identity.credential
  machineId := identity.machineId
  hostname := hostname
  instanceId := instanceId

/-- The lease row a grant writes over `lease`. -/
def ControllerLease.grant (lease : ControllerLease) (epoch : ℤ) (holder : LeaseHolder)
    (acquiredAt now : ℤ) : ControllerLease :=
  { lease with
    epoch := epoch
    holder := some holder
    acquiredAt := some acquiredAt
    renewedAt := some now
    expiresAt := now + leaseTtlMs }

/-- A row no one has held yet; it starts the clock of the head start. -/
def placeholderLease (now : ℤ) : ControllerLease where
  profile := profile
  epoch := 0
  holder := none
  acquiredAt := none
  renewedAt := none
  expiresAt := now

/-- Someone holds the unexpired lease. -/
def isHeld (lease : Option ControllerLease) (now : ℤ) : Bool :=
  match lease with
  | none => false
  | some lease => lease.holder.isSome && lease.expiresAt > now

def Db.withLeases (db : Db) (leases : Table ControllerLease) : Db :=
  { db with controllerLeases := leases }

/-- Write a grant over the current row, or insert the first one. -/
def writeGrant (own : Bool)
    (current : Option (DocId ControllerLease × ControllerLease)) (db : Db) : ℤ × Db :=
  let holder := identity.holder args.hostname args.instanceId
  match current with
  | none =>
    (1, db.withLeases (db.controllerLeases.insert
      ((placeholderLease args.profile now).grant 1 holder now now)))
  | some (leaseId, lease) =>
    let epoch := if own then lease.epoch else lease.epoch + 1
    let acquiredAt := if own then lease.acquiredAt.getD now else now
    (epoch, db.withLeases (db.controllerLeases.patch leaseId fun stored =>
      stored.grant epoch holder acquiredAt now))

/-- The second half of `acquire`, for a caller that may ask. -/
def acquireAs (networkPoor : Bool)
    (settings : Option ProfileSettings) (db : Db) : Result (AcquireResult × Db) := do
  let lease ← leaseFor db args.profile
  let own := ownLease (lease.map Prod.snd) args.instanceId identity now
  let expiresAt := (lease.map fun row => row.2.expiresAt).getD now
  if !own && isHeld (lease.map Prod.snd) now then
    let holder := lease.bind fun row => row.2.holder.map LeaseHolder.hostname
    let headStart := if networkPoor then poorNetworkHeadStartMs else 0
    return (.refused .held holder (max leaseMinRetryMs (expiresAt - now + headStart)) networkPoor, db)
  let freeSince := min expiresAt now
  -- the head start counts from when the lease became free; one nobody has held starts its clock
  let opened :=
    if !own && networkPoor && lease.isNone then
      db.withLeases (db.controllerLeases.insert (placeholderLease args.profile now))
    else db
  if !own && networkPoor && now - freeSince < poorNetworkHeadStartMs then
    let retryAfterMs := max leaseMinRetryMs (freeSince + poorNetworkHeadStartMs - now)
    return (.refused .headStart none retryAfterMs networkPoor, opened)
  let current ← match lease with
    | some row => pure (some row)
    | none => leaseFor opened args.profile
  let (epoch, granted) := writeGrant now args identity own current opened
  pure (.granted epoch leaseTtlMs leaseRenewIntervalMs networkPoor settings, granted)

/-- Ask for a Profile's lease: granted when it is free or expired, or already held by this same
process, which then keeps its epoch. -/
def acquire (db : Db) : Result (AcquireResult × Db) := do
  let profile := (← profileFor db args.profile).map Prod.snd
  match ← candidacy now args profile db with
  | .refused reason networkPoor => pure (.refused reason none leaseTtlMs networkPoor, db)
  | .candidate identity networkPoor =>
    acquireAs now args identity networkPoor (profile.bind profileSettings) db

/-! ## Renew and release -/

structure LeaseArgs where
  profile : String
  instanceId : String
  caller : ControllerCaller

structure RenewResult where
  epoch : ℤ
  ttlMs : ℤ
  renewIntervalMs : ℤ

/-- Extend the holder's grant; refused unless the same process holds the unexpired lease under the
epoch it names. -/
def renew (args : LeaseArgs) (db : Db) : Result (RenewResult × Db) := do
  let identity ← identityOf db args.caller
  let lease ← leaseFor db args.profile
  let refusal : Err := .refused .lease "The lease is held by another controller"
  match lease with
  | none => throw refusal
  | some (leaseId, lease) =>
    match lease.holder with
    | none => throw refusal
    | some holder =>
      if holder.instanceId ≠ args.instanceId || lease.expiresAt ≤ now ||
          !holderMatches holder identity || some lease.epoch ≠ args.caller.epoch then
        throw refusal
      else
        let leases := db.controllerLeases.patch leaseId fun lease =>
          { lease with renewedAt := some now, expiresAt := now + leaseTtlMs }
        pure (⟨lease.epoch, leaseTtlMs, leaseRenewIntervalMs⟩, db.withLeases leases)

/-- Who a releasing caller is, or nobody: an unknown machine token is not an error here. -/
def releaseIdentity (db : Db) (caller : ControllerCaller) : Result (Option Identity) :=
  match caller with
  | .machine token _ => do
      let machine ← machineFor db token
      pure (machine.map fun row => .machine row.1)
  | .controllerToken _ _ => pure (some .controllerToken)

/-- Give the lease up at once.  Releasing a lease this process no longer holds does nothing. -/
def release (args : LeaseArgs) (db : Db) : Result Db := do
  let lease ← leaseFor db args.profile
  match lease with
  | none => pure db
  | some (leaseId, lease) =>
    match lease.holder with
    | none => pure db
    | some holder =>
      if holder.instanceId ≠ args.instanceId || some lease.epoch ≠ args.caller.epoch then
        return db
      match ← releaseIdentity db args.caller with
      | none => pure db
      | some identity =>
        if !holderMatches holder identity then return db
        let leases := db.controllerLeases.patch leaseId fun stored =>
          { stored with
            epoch := lease.epoch + 1
            holder := none
            acquiredAt := none
            renewedAt := none
            expiresAt := min lease.expiresAt now }
        pure (db.withLeases leases)

/-! ## What a call can do -/

/-- The epoch an acquire was granted, if it was. -/
def AcquireResult.grantedEpoch : AcquireResult → Option ℤ
  | .granted epoch _ _ _ _ => some epoch
  | .refused _ _ _ _ => none

end

variable {now : ℤ} {db db' : Db}

@[simp] lemma controllerLeases_withLeases (leases : Table ControllerLease) :
    (db.withLeases leases).controllerLeases = leases := rfl

@[simp] lemma profile_placeholderLease (profile : String) :
    (placeholderLease profile now).profile = profile := rfl

@[simp] lemma profile_grant (lease : ControllerLease) (epoch : ℤ) (holder : LeaseHolder)
    (acquiredAt : ℤ) : (lease.grant epoch holder acquiredAt now).profile = lease.profile := rfl

variable {args : AcquireArgs} {who : Identity} {networkPoor : Bool} {r : AcquireResult}

lemma candidacy_identity {profile : Option Profile}
    (h : candidacy now args profile db = .ok (.candidate who networkPoor)) :
    identityOf db args.caller = .ok who := by
  unfold candidacy at h
  split at h
  · rename_i token epoch hcaller
    obtain ⟨⟨machineId, machine⟩, hmachine, h⟩ := bind_ok.mp h
    have hwho : who = .machine machineId := by
      rcases profile with _ | profile
      · simp [pure_ok] at h
      dsimp only at h
      split at h
      · simp [pure_ok] at h
      split at h
      · simp [pure_ok] at h
      obtain ⟨readiness, -, h⟩ := bind_ok.mp h
      split at h
      · simp [pure_ok] at h
      split at h
      · simp [pure_ok] at h
      split at h
      · simp [pure_ok] at h
      · rw [pure_ok, Candidacy.candidate.injEq] at h
        exact h.1.symm
    rw [hcaller, identityOf, hmachine, hwho]
    rfl
  · rename_i slot epoch hcaller
    split_ifs at h
    · simp [pure_ok] at h
    · rw [pure_ok, Candidacy.candidate.injEq] at h
      rw [hcaller, ← h.1]
      rfl

variable {settings : Option ProfileSettings} {caller : ControllerCaller}

/-- What the second half of `acquire` does when there is no lease: a poorly connected Worker starts
the clock, any other candidate gets the lease. -/
lemma acquireAs_of_none (hlease : leaseFor db args.profile = .ok none)
    (h : acquireAs now args who networkPoor settings db = .ok (r, db')) :
    (r.grantedEpoch = none ∧
      db' = db.withLeases (db.controllerLeases.insert (placeholderLease args.profile now))) ∨
    (r.grantedEpoch = some (writeGrant now args who false none db).1 ∧
      db' = (writeGrant now args who false none db).2) := by
  obtain ⟨lease, hlease', h⟩ := bind_ok.mp h
  obtain rfl : lease = none := Except.ok.inj (hlease'.symm.trans hlease)
  have hsoon : now - min now now < poorNetworkHeadStartMs := by simp [poorNetworkHeadStartMs]
  cases networkPoor with
  | true =>
    simp only [isHeld, map_none, getD_none, decide_eq_true hsoon, if_true] at h
    cases h
    exact .inl ⟨rfl, rfl⟩
  | false =>
    obtain ⟨current, hcurrent, h⟩ := bind_ok.mp h
    obtain rfl : current = none := Except.ok.inj (hcurrent.symm.trans hlease)
    cases h
    exact .inr ⟨rfl, rfl⟩

/-- What the second half of `acquire` does over an existing lease. -/
lemma acquireAs_of_some {leaseId : DocId ControllerLease}
    {lease : ControllerLease} (hlease : leaseFor db args.profile = .ok (some (leaseId, lease)))
    (h : acquireAs now args who networkPoor settings db = .ok (r, db')) :
    (r.grantedEpoch = none ∧ db' = db) ∨
    ((ownLease (some lease) args.instanceId who now = true ∨ isHeld (some lease) now = false) ∧
      r.grantedEpoch = some (writeGrant now args who
        (ownLease (some lease) args.instanceId who now) (some (leaseId, lease)) db).1 ∧
      db' = (writeGrant now args who
        (ownLease (some lease) args.instanceId who now) (some (leaseId, lease)) db).2) := by
  obtain ⟨row, hlease', h⟩ := bind_ok.mp h
  obtain rfl : row = some (leaseId, lease) := Except.ok.inj (hlease'.symm.trans hlease)
  simp only [isNone_some, Bool.and_false] at h
  split at h
  · cases h
    exact .inl ⟨rfl, rfl⟩
  rename_i hfree
  split at h
  · cases h
    exact .inl ⟨rfl, rfl⟩
  obtain ⟨current, hcurrent, h⟩ := bind_ok.mp h
  cases hcurrent
  cases h
  refine .inr ⟨?_, rfl, rfl⟩
  cases hown : ownLease (some lease) args.instanceId who now with
  | true => exact .inl rfl
  | false => exact .inr (by simpa [hown] using hfree)

/-- **What `acquire` does.**  It changes nothing, or starts the clock of a lease no one has held,
or grants: under epoch 1 when there was no lease, and otherwise to the process that holds it,
or when no one does. -/
theorem acquire_cases (h : acquire now args db = .ok (r, db')) :
    (r.grantedEpoch = none ∧ db' = db) ∨ (leaseFor db args.profile = .ok none ∧ r.grantedEpoch = none ∧
      db' = db.withLeases (db.controllerLeases.insert (placeholderLease args.profile now))) ∨
    ∃ who own lease, identityOf db args.caller = .ok who ∧ leaseFor db args.profile = .ok lease ∧
      own = ownLease (lease.map Prod.snd) args.instanceId who now ∧
      (own = true ∨ isHeld (lease.map Prod.snd) now = false) ∧
      r.grantedEpoch = some (writeGrant now args who own lease db).1 ∧
      db' = (writeGrant now args who own lease db).2 := by
  obtain ⟨profile, -, h⟩ := bind_ok.mp h
  obtain ⟨outcome, houtcome, h⟩ := bind_ok.mp h
  cases outcome with
  | refused reason networkPoor =>
    cases h
    exact .inl ⟨rfl, rfl⟩
  | candidate who networkPoor =>
    have hwho := candidacy_identity houtcome
    obtain ⟨lease, hlease, -⟩ := bind_ok.mp h
    cases lease with
    | none =>
      rcases acquireAs_of_none hlease h with ⟨hr, hdb⟩ | ⟨hr, hdb⟩
      · exact .inr (.inl ⟨hlease, hr, hdb⟩)
      · exact .inr (.inr ⟨who, false, none, hwho, hlease, rfl, .inr rfl, hr, hdb⟩)
    | some row =>
      rcases acquireAs_of_some hlease h with ⟨hr, hdb⟩ | ⟨hfree, hr, hdb⟩
      · exact .inl ⟨hr, hdb⟩
      · exact .inr (.inr ⟨who, _, some row, hwho, hlease, rfl, hfree, hr, hdb⟩)

/-- **What `renew` does.**  It extends the lease of the process that holds it, unexpired, under the
epoch it names. -/
theorem renew_cases {args : LeaseArgs} {r : RenewResult} (h : renew now args db = .ok (r, db')) :
    ∃ who leaseId lease holder, identityOf db args.caller = .ok who ∧
      leaseFor db args.profile = .ok (some (leaseId, lease)) ∧ lease.holder = some holder ∧
      holder.instanceId = args.instanceId ∧ now < lease.expiresAt ∧
      holderMatches holder who = true ∧ args.caller.epoch = some lease.epoch ∧
      db' = db.withLeases (db.controllerLeases.patch leaseId fun lease =>
        { lease with renewedAt := some now, expiresAt := now + leaseTtlMs }) := by
  obtain ⟨who, hwho, h⟩ := bind_ok.mp h
  obtain ⟨row, hrow, h⟩ := bind_ok.mp h
  split at h
  · cases h
  rename_i leaseId lease
  split at h
  · cases h
  rename_i holder hholder
  split at h
  · cases h
  rename_i hguard
  cases h
  simp only [Bool.or_eq_true, Bool.not_eq_eq_eq_not, Bool.not_true,
    decide_eq_true_eq, not_or, not_not, Bool.not_eq_false] at hguard
  obtain ⟨⟨⟨hinst, hexp⟩, hmatch⟩, hepoch⟩ := hguard
  exact ⟨who, leaseId, lease, holder, hwho, hrow, hholder, hinst, not_le.mp hexp, hmatch,
    hepoch.symm, rfl⟩

lemma releaseIdentity_eq_some :
    releaseIdentity db caller = .ok (some who) ↔ identityOf db caller = .ok who := by
  cases caller with
  | controllerToken slot epoch => simp [releaseIdentity, identityOf, pure_ok]
  | machine token epoch =>
    simp only [releaseIdentity, identityOf, requireMachine]
    cases machineFor db token with
    | error e => simp [Bind.bind, Except.bind]
    | ok machine =>
      cases machine with
      | none => simp [Bind.bind, Except.bind, pure_ok]
      | some row => simp [Pure.pure, Except.pure]

/-- The caller holds this lease under the epoch it carries. -/
def Releases (db : Db) (args : LeaseArgs) (lease : ControllerLease) : Prop :=
  ∃ holder who, lease.holder = some holder ∧ holder.instanceId = args.instanceId ∧
    args.caller.epoch = some lease.epoch ∧ identityOf db args.caller = .ok who ∧
    holderMatches holder who = true

/-- **What `release` does.**  It clears the lease of the process that holds it under the epoch it
names and burns that epoch; any other release changes nothing. -/
theorem release_cases {args : LeaseArgs} (h : release now args db = .ok db') :
    (db' = db ∧ ∀ leaseId lease, leaseFor db args.profile = .ok (some (leaseId, lease)) →
      ¬ Releases db args lease) ∨
    ∃ leaseId lease, leaseFor db args.profile = .ok (some (leaseId, lease)) ∧ Releases db args lease ∧
      db' = db.withLeases (db.controllerLeases.patch leaseId fun stored =>
        { stored with
          epoch := lease.epoch + 1
          holder := none
          acquiredAt := none
          renewedAt := none
          expiresAt := min lease.expiresAt now }) := by
  obtain ⟨row, hrow, h⟩ := bind_ok.mp h
  rw [hrow]
  split at h
  · cases h
    exact .inl ⟨rfl, by simp⟩
  rename_i leaseId lease
  -- a release that is not one by the holder leaves the row alone
  have missed : db' = db → ¬ Releases db args lease → (db' = db ∧ ∀ leaseId' lease',
      (Except.ok (some (leaseId, lease)) : Result _) = .ok (some (leaseId', lease')) →
        ¬ Releases db args lease') := by
    intro hdb hno
    refine ⟨hdb, ?_⟩
    intro leaseId' lease' heq
    simp only [Except.ok.injEq, some.injEq, Prod.mk.injEq] at heq
    exact heq.2 ▸ hno
  split at h
  · rename_i hnone
    refine .inl (missed (pure_ok.mp h).symm ?_)
    rintro ⟨holder, who, hholder, -⟩
    simp [hnone] at hholder
  rename_i holder hholder
  split at h
  · rename_i hguard
    refine .inl (missed (pure_ok.mp h).symm ?_)
    rintro ⟨holder', who, hholder', hinst, hepoch, -⟩
    cases hholder.symm.trans hholder'
    simp [hinst, hepoch] at hguard
  rename_i hguard
  simp only [decide_not, Bool.or_eq_true, Bool.not_eq_eq_eq_not, Bool.not_true,
    decide_eq_false_iff_not, not_or, not_not] at hguard
  obtain ⟨who, hwho, h⟩ := bind_ok.mp h
  split at h
  · refine .inl (missed (pure_ok.mp h).symm ?_)
    rintro ⟨holder', who, -, -, -, hidentity, -⟩
    rw [releaseIdentity_eq_some.mpr hidentity] at hwho
    simp at hwho
  rename_i who
  have hidentity := releaseIdentity_eq_some.mp hwho
  split at h
  · rename_i hmatch
    refine .inl (missed (pure_ok.mp h).symm ?_)
    rintro ⟨holder', who', hholder', -, -, hidentity', hmatch'⟩
    cases hholder.symm.trans hholder'
    cases hidentity.symm.trans hidentity'
    simp [hmatch'] at hmatch
  rename_i hmatch
  refine .inr ⟨leaseId, lease, rfl, ⟨holder, who, hholder, hguard.1, hguard.2.symm, hidentity, ?_⟩,
    (pure_ok.mp h).symm⟩
  simpa using hmatch

/-- **What an accepted write check has read**: an unexpired lease, held by the caller, under the
epoch the caller carries. -/
theorem authorizeController_spec {profile : String}
    (h : authorizeController now profile caller db = .ok who) :
    ∃ leaseId lease holder, leaseFor db profile = .ok (some (leaseId, lease)) ∧
      lease.holder = some holder ∧ holderMatches holder who = true ∧
      identityOf db caller = .ok who ∧ caller.epoch = some lease.epoch ∧
      now < lease.expiresAt := by
  cases caller with
  | machine token epoch =>
    obtain ⟨⟨machineId, machine⟩, hmachine, h⟩ := bind_ok.mp h
    obtain ⟨row, hrow, h⟩ := bind_ok.mp h
    rcases epoch with _ | epoch
    · cases h
    rcases row with _ | ⟨leaseId, lease⟩
    · cases h
    dsimp only at h
    split at h
    · cases h
    rename_i holder hholder
    split at h
    · cases h
    rename_i hguard
    simp only [Bool.or_eq_true, Bool.not_eq_eq_eq_not, Bool.not_true,
      decide_eq_true_eq, not_or, not_not, Bool.not_eq_false,
      not_le] at hguard
    obtain ⟨⟨hmatch, hepoch⟩, hexp⟩ := hguard
    cases h
    refine ⟨leaseId, lease, holder, hrow, hholder, hmatch, ?_, ?_, hexp⟩
    · rw [identityOf, hmachine]
      rfl
    · rw [hepoch]
      rfl
  | controllerToken slot epoch =>
    rcases epoch with _ | epoch
    · cases h
    obtain ⟨row, hrow, h⟩ := bind_ok.mp h
    split at h
    · cases h
    rename_i leaseId lease
    split at h
    · cases h
    rename_i holder hholder
    split at h
    · cases h
    rename_i hguard
    simp only [ne_eq, Bool.or_eq_true,
      decide_eq_true_eq, not_or, not_not, not_le] at hguard
    obtain ⟨⟨hcred, hepoch⟩, hexp⟩ := hguard
    cases h
    refine ⟨leaseId, lease, holder, hrow, hholder, ?_, rfl, ?_, hexp⟩
    · simp [holderMatches, hcred, Identity.credential]
    · rw [hepoch]
      rfl

end EraInfra
