import EraInfra.Backend.ControllerLease
import EraInfra.Core.Fencing
import EraInfra.Core.Run

/-!
# Fencing: the controller lease over whole runs

A run is any list of `acquire`, `renew`, `release` and `authorizeController` calls, for any
Profiles, by any callers, each with its own clock reading.  Only the lease table is carried from
call to call; Workers, Profiles and readiness are whatever they are when a call is made
(`LeaseCall.world`), so nothing here depends on how the rest of the deployment behaves.

**The lease of one Profile is a fenced lease.**  `leaseOf` reads the abstract lease of
`Core.Fencing` out of the table, `leaseEvents` what a call shows of it, and `leaseStep_sim` says
that every call is a step of the abstract design.  What the design guarantees then holds of every
run (`fenced_run`), and `lease_fencing` reads it back in the words of the source.
-/

namespace EraInfra

open DocStore Fencing List Option Table ControllerLease

/-! ## Calls and runs -/

section

variable (profile : String) (leases : Table ControllerLease)

inductive LeaseOp
  | acquire (args : AcquireArgs)
  | renew (args : LeaseArgs)
  | release (args : LeaseArgs)
  | authorizeController (profile : String) (caller : ControllerCaller)

/-- One call: when, over which Workers, Profiles and readiness rows, and what. -/
structure LeaseCall where
  now : ℤ
  /-- The database at the time of the call; its lease table is not looked at. -/
  world : Db
  op : LeaseOp

/-- The database a call finds. -/
def LeaseCall.db (c : LeaseCall) (leases : Table ControllerLease) : Db := c.world.withLeases leases

/-- The lease table after a call. -/
def leaseStep (c : LeaseCall) : Table ControllerLease :=
  match c.op with
  | .acquire args =>
    commit leases ((acquire c.now args (c.db leases)).map fun r => r.2.controllerLeases)
  | .renew args =>
    commit leases ((renew c.now args (c.db leases)).map fun r => r.2.controllerLeases)
  | .release args =>
    commit leases ((release c.now args (c.db leases)).map fun db => db.controllerLeases)
  | .authorizeController _ _ => leases

/-- The lease table after a run that starts with no lease row. -/
def leaseRun (calls : List LeaseCall) : Table ControllerLease := run leaseStep .empty calls

/-- A controller process: its credential and its instance id. -/
abbrev Tenant := Identity × String

/-- What a call shows of one Profile's lease: an acquire that is granted, a renewal that succeeds,
and every release, by the process that makes it and the epoch it carries. -/
def leaseEvents (c : LeaseCall) : List (Event Tenant) :=
  match c.op with
  | .acquire args =>
    if args.profile = profile then
      match acquire c.now args (c.db leases), identityOf (c.db leases) args.caller with
      | .ok (result, _), .ok who =>
        (result.grantedEpoch.map fun e => .granted (who, args.instanceId) e c.now).toList
      | _, _ => []
    else []
  | .renew args =>
    if args.profile = profile then
      match renew c.now args (c.db leases) with
      | .ok _ => [.renewed c.now]
      | .error _ => []
    else []
  | .release args =>
    if args.profile = profile then
      match identityOf (c.db leases) args.caller, args.caller.epoch with
      | .ok who, some epoch => [.released (who, args.instanceId) epoch]
      | _, _ => []
    else []
  | .authorizeController _ _ => []

/-- Everything a run shows of one Profile's lease, in order. -/
def leaseHistory (calls : List LeaseCall) : List (Event Tenant) :=
  trace leaseStep (leaseEvents profile) .empty calls

/-! ## The abstract lease of a row -/

/-- Whom a stored holder stands for. -/
def LeaseHolder.tenant (holder : LeaseHolder) : Option Tenant :=
  match holder.credential with
  | .controllerToken => some (.controllerToken, holder.instanceId)
  | .machine => holder.machineId.map fun machineId => (.machine machineId, holder.instanceId)

def ControllerLease.abstract (lease : ControllerLease) : Lease Tenant where
  epoch := lease.epoch
  holder := lease.holder.bind LeaseHolder.tenant
  expiresAt := lease.expiresAt

/-- One Profile's lease. -/
def leaseOf : Option (Lease Tenant) :=
  (leases.collect fun lease => lease.profile = profile).head?.map fun row => row.2.abstract

/-- At most one row per Profile. -/
def OneLeaseEach : Prop :=
  ∀ i j a b, leases.get i = some a → leases.get j = some b → a.profile = b.profile → i = j

end

variable {profile p : String} {leases : Table ControllerLease} {db : Db} {now : ℤ}

lemma leaseOf_of_leaseFor_none (h : leaseFor db p = .ok none) :
    leaseOf p db.controllerLeases = none := by
  rw [leaseOf, unique_none h]
  rfl

variable {i : DocId ControllerLease} {lease : ControllerLease} {who : Identity}

lemma leaseOf_of_get (hone : OneLeaseEach leases) (h : leases.get i = some lease) :
    leaseOf lease.profile leases = some lease.abstract := by
  rw [leaseOf, collect_eq_singleton h (by simp)]
  · rfl
  · intro k b hk hb
    exact hone k i b lease hk h (by simpa using hb)

lemma leaseOf_eq_none (h : ∀ i lease, leases.get i = some lease → lease.profile ≠ p) :
    leaseOf p leases = none := by
  rw [leaseOf, collect_eq_nil fun i a hi => by simpa using h i a hi]
  rfl

variable {leases' : Table ControllerLease} {holder : LeaseHolder} {instanceId : String}
  {args : AcquireArgs}

/-- Two tables whose rows for a Profile look alike hold the same lease for it. -/
lemma leaseOf_congr (hone : OneLeaseEach leases) (hone' : OneLeaseEach leases')
    (h : ∀ i lease, lease.profile = p → (leases'.get i = some lease ↔ leases.get i = some lease)) :
    leaseOf p leases' = leaseOf p leases := by
  by_cases hex : ∃ i lease, leases.get i = some lease ∧ lease.profile = p
  · obtain ⟨i, lease, hi, rfl⟩ := hex
    rw [leaseOf_of_get hone hi, leaseOf_of_get hone' ((h i lease rfl).mpr hi)]
  · rw [leaseOf_eq_none fun i lease hi hp => hex ⟨i, lease, hi, hp⟩,
      leaseOf_eq_none fun i lease hi hp => hex ⟨i, lease, (h i lease hp).mp hi, hp⟩]

/-! ## What the writes do to the abstract lease -/

/-- A write to `profile`'s lease: it becomes `l`, and no other Profile's lease moves. -/
structure Writes (profile : String) (l : Lease Tenant) (leases leases' : Table ControllerLease) :
    Prop where
  one : OneLeaseEach leases'
  own : leaseOf profile leases' = some l
  others : ∀ p, p ≠ profile → leaseOf p leases' = leaseOf p leases

lemma writes_insert (lease : ControllerLease) (hone : OneLeaseEach leases)
    (hnone : ∀ i a, leases.get i = some a → a.profile ≠ lease.profile) :
    Writes lease.profile lease.abstract leases (leases.insert lease) := by
  have hone' : OneLeaseEach (leases.insert lease) := by
    intro i j a b hi hj hab
    rw [get_insert] at hi hj
    split_ifs at hi hj with hi' hj'
    · rw [hi', hj']
    · cases hi
      exact absurd hab.symm (hnone j b hj)
    · cases hj
      exact absurd hab (hnone i a hi)
    · exact hone i j a b hi hj hab
  refine ⟨hone', leaseOf_of_get (i := leases.next) hone' (by simp [get_insert]), ?_⟩
  intro p hp
  refine leaseOf_congr hone hone' fun i a ha => ?_
  rw [get_insert]
  split_ifs with hi
  · subst hi
    rw [get_next]
    refine ⟨fun h => ?_, nofun⟩
    cases h
    exact absurd ha.symm hp
  · rfl

lemma writes_patch {f : ControllerLease → ControllerLease} (hone : OneLeaseEach leases)
    (hi : leases.get i = some lease) (hf : ∀ a, (f a).profile = a.profile) :
    Writes lease.profile (f lease).abstract leases (leases.patch i f) := by
  have hget : ∀ k a, (leases.patch i f).get k = some a →
      ∃ b, leases.get k = some b ∧ b.profile = a.profile := by
    intro k a hk
    rw [get_patch] at hk
    split_ifs at hk with hki
    · obtain ⟨b, hb, rfl⟩ := map_eq_some_iff.mp hk
      exact ⟨b, hb, (hf b).symm⟩
    · exact ⟨a, hk, rfl⟩
  have hone' : OneLeaseEach (leases.patch i f) := by
    intro j k a b hj hk hab
    obtain ⟨a', hj', ha'⟩ := hget j a hj
    obtain ⟨b', hk', hb'⟩ := hget k b hk
    exact hone j k a' b' hj' hk' (by rw [ha', hb', hab])
  refine ⟨hone', ?_, ?_⟩
  · have := leaseOf_of_get (i := i) hone' (by rw [get_patch_self, hi, map_some])
    rwa [hf] at this
  intro p hp
  refine leaseOf_congr hone hone' fun k a ha => ?_
  rw [get_patch]
  split_ifs with hk
  · subst hk
    rw [hi]
    constructor
    · intro h
      cases h
      exact absurd (ha.symm.trans (hf lease)) hp
    · intro h
      cases h
      exact absurd ha.symm hp
  · rfl

lemma get_of_leaseFor (h : leaseFor db p = .ok (some (i, lease))) :
    db.controllerLeases.get i = some lease ∧ lease.profile = p := by
  obtain ⟨hget, hp, -⟩ := unique_some h
  exact ⟨hget, by simpa using hp⟩

lemma leaseFor_isOk (hone : OneLeaseEach db.controllerLeases) : ∃ r, leaseFor db p = .ok r := by
  refine unique_isOk fun i j a b hi hj ha hb => hone i j a b hi hj ?_
  simp only [decide_eq_true_eq] at ha hb
  rw [ha, hb]

lemma holderMatches_iff :
    holderMatches holder who = true ↔ holder.tenant = some (who, holder.instanceId) := by
  obtain ⟨credential, machineId, hostname, instanceId⟩ := holder
  cases credential <;> cases who <;>
    simp [holderMatches, LeaseHolder.tenant, Identity.credential, Identity.machineId]
  exact decide_eq_true_iff

lemma instanceId_of_tenant
    (h : holder.tenant = some (who, instanceId)) : holder.instanceId = instanceId := by
  rw [LeaseHolder.tenant] at h
  split at h
  · exact (Prod.mk.inj (some.inj h)).2
  · obtain ⟨machineId, -, hm⟩ := map_eq_some_iff.mp h
    exact (Prod.mk.inj hm).2

@[simp] lemma tenant_holder (who : Identity) (hostname instanceId : String) :
    (who.holder hostname instanceId).tenant = some (who, instanceId) := by
  cases who <;> simp [Identity.holder, LeaseHolder.tenant, Identity.credential, Identity.machineId]

lemma abstract_grant (lease : ControllerLease) (epoch : ℤ) (who : Identity)
    (hostname instanceId : String) (acquiredAt : ℤ) :
    (lease.grant epoch (who.holder hostname instanceId) acquiredAt now).abstract
      = ⟨epoch, some (who, instanceId), now + leaseTtlMs⟩ := by
  simp [abstract, grant]

lemma holder_of_ownLease (h : ownLease (some lease) instanceId who now = true) :
    lease.abstract.holder = some (who, instanceId) := by
  rw [ownLease] at h
  split at h
  · simp at h
  · rename_i holder hholder
    simp only [Bool.and_eq_true, decide_eq_true_eq] at h
    obtain ⟨⟨hinst, hmatch⟩, -⟩ := h
    rw [abstract, hholder, bind_some, holderMatches_iff.mp hmatch, hinst]

lemma free_of_not_isHeld (h : isHeld (some lease) now = false) :
    lease.abstract.holder = none ∨ lease.abstract.expiresAt ≤ now := by
  rw [isHeld, Bool.and_eq_false_iff] at h
  rcases h with h | h
  · left
    have hnone : lease.holder = none := by simpa using h
    rw [abstract, hnone]
    rfl
  · right
    simpa [abstract] using h

/-! ## Every call is a step of the design -/

/-- What one call does, for every Profile at once. -/
def Simulates (leases : Table ControllerLease) (c : LeaseCall) : Prop :=
  OneLeaseEach (leaseStep leases c) ∧ ∀ p, Step leaseTtlMs (leaseOf p leases) (leaseEvents p leases c)
      (leaseOf p (leaseStep leases c))

lemma simulates_of_unseen {c : LeaseCall} (hone : OneLeaseEach leases)
    (hleases : leaseStep leases c = leases) (hseen : ∀ p, leaseEvents p leases c = []) :
    Simulates leases c := by
  refine ⟨by rwa [hleases], fun p => ?_⟩
  rw [hleases, hseen]
  exact Step.keep _

/-- A write to one Profile's lease that is a step there is a step for every Profile. -/
lemma simulates_of_writes {c : LeaseCall} {l : Lease Tenant} {seen : List (Event Tenant)}
    (hw : Writes profile l leases leases')
    (hstep : Step leaseTtlMs (leaseOf profile leases) seen (some l))
    (hleases : leaseStep leases c = leases')
    (hseen : ∀ p, leaseEvents p leases c = if profile = p then seen else []) : Simulates leases c := by
  rw [Simulates, hleases]
  refine ⟨hw.one, fun p => ?_⟩
  rw [hseen]
  split_ifs with hp
  · subst hp
    rwa [hw.own]
  · rw [hw.others p (Ne.symm hp)]
    exact Step.keep _

lemma writes_writeGrant (now : ℤ) (who : Identity) (own : Bool)
    {lease : Option (DocId ControllerLease × ControllerLease)}
    (hone : OneLeaseEach db.controllerLeases) (hlease : leaseFor db args.profile = .ok lease) :
    Writes args.profile
      ⟨(writeGrant now args who own lease db).1, some (who, args.instanceId), now + leaseTtlMs⟩
      db.controllerLeases (writeGrant now args who own lease db).2.controllerLeases := by
  cases lease with
  | none =>
    have := writes_insert ((placeholderLease args.profile now).grant 1
      (who.holder args.hostname args.instanceId) now now) hone fun i a hi => by
        simpa using not_of_unique_none hlease hi
    rw [abstract_grant] at this
    exact this
  | some row =>
    obtain ⟨leaseId, lease⟩ := row
    obtain ⟨hget, hprofile⟩ := get_of_leaseFor hlease
    have := writes_patch (f := fun stored => stored.grant (if own then lease.epoch else lease.epoch + 1)
      (who.holder args.hostname args.instanceId)
      (if own then lease.acquiredAt.getD now else now) now) hone hget fun _ => rfl
    rw [hprofile, abstract_grant] at this
    exact this

/-- A grant is a first grant, a takeover of a free lease, or the holder asking again. -/
lemma step_writeGrant {own : Bool} {lease : Option (DocId ControllerLease × ControllerLease)}
    (hone : OneLeaseEach db.controllerLeases)
    (hlease : leaseFor db args.profile = .ok lease)
    (hown : own = ownLease (lease.map Prod.snd) args.instanceId who now)
    (hfree : own = true ∨ isHeld (lease.map Prod.snd) now = false) :
    Step leaseTtlMs (leaseOf args.profile db.controllerLeases)
      [.granted (who, args.instanceId) (writeGrant now args who own lease db).1 now]
      (some ⟨(writeGrant now args who own lease db).1, some (who, args.instanceId),
        now + leaseTtlMs⟩) := by
  rcases lease with _ | row
  · rw [leaseOf_of_leaseFor_none hlease]
    exact Step.first _ _
  obtain ⟨leaseId, lease⟩ := row
  obtain ⟨hget, hprofile⟩ := get_of_leaseFor hlease
  rw [← hprofile, leaseOf_of_get hone hget]
  cases own with
  | true => exact Step.again lease.abstract _ _ (holder_of_ownLease hown.symm)
  | false =>
    refine Step.takeover lease.abstract _ _ (free_of_not_isHeld ?_)
    simpa using hfree

lemma simulates_acquire (hone : OneLeaseEach leases) (now : ℤ) (world : Db) (args : AcquireArgs) :
    Simulates leases ⟨now, world, .acquire args⟩ := by
  have hone' : OneLeaseEach (world.withLeases leases).controllerLeases := hone
  rcases h : acquire now args (world.withLeases leases) with e | out
  · refine simulates_of_unseen hone ?_ fun p => ?_
    · simp [leaseStep, LeaseCall.db, h, commit, Except.map]
    · simp [leaseEvents, LeaseCall.db, h]
  obtain ⟨r, db'⟩ := out
  have hafter : leaseStep leases ⟨now, world, .acquire args⟩ = db'.controllerLeases := by
    simp [leaseStep, LeaseCall.db, h, commit, Except.map]
  -- an acquire that is not granted shows nothing
  have hunseen : r.grantedEpoch = none → ∀ p,
      leaseEvents p leases ⟨now, world, .acquire args⟩ = [] := by
    intro hr p
    simp only [leaseEvents, LeaseCall.db]
    split_ifs
    · split <;> simp_all
    · rfl
  rcases acquire_cases h with ⟨hr, rfl⟩ | ⟨hnone, hr, rfl⟩ |
    ⟨who, own, lease, hwho, hlease, hown, hfree, hr, rfl⟩
  · exact simulates_of_unseen hone hafter (hunseen hr)
  · have hw := writes_insert (placeholderLease args.profile now) hone' fun i a hi => by
      simpa using not_of_unique_none hnone hi
    have hopen : Step leaseTtlMs (leaseOf args.profile leases) []
        (some (placeholderLease args.profile now).abstract) := by
      have hbefore : leaseOf args.profile leases = none := leaseOf_of_leaseFor_none hnone
      rw [hbefore]
      exact Step.opened now
    exact simulates_of_writes hw hopen hafter fun p => by rw [hunseen hr, ite_self]
  · exact simulates_of_writes (writes_writeGrant now who own hone' hlease)
      (step_writeGrant hone' hlease hown hfree) hafter
      fun p => by simp [leaseEvents, LeaseCall.db, h, hwho, hr]

lemma simulates_renew (hone : OneLeaseEach leases) (now : ℤ) (world : Db) (args : LeaseArgs) :
    Simulates leases ⟨now, world, .renew args⟩ := by
  rcases h : renew now args (world.withLeases leases) with e | out
  · refine simulates_of_unseen hone ?_ fun p => ?_
    · simp [leaseStep, LeaseCall.db, h, commit, Except.map]
    · simp [leaseEvents, LeaseCall.db, h]
  obtain ⟨r, db'⟩ := out
  obtain ⟨who, leaseId, lease, holder, hwho, hlease, hholder, hinst, -, hmatch, -, rfl⟩ := renew_cases h
  obtain ⟨hget, hprofile⟩ := get_of_leaseFor hlease
  have hown : lease.abstract.holder = some (who, args.instanceId) := by
    rw [abstract, hholder, bind_some, holderMatches_iff.mp hmatch, hinst]
  have hw := writes_patch (f := fun lease =>
    { lease with renewedAt := some now, expiresAt := now + leaseTtlMs }) hone hget fun _ => rfl
  have hstep : Step leaseTtlMs (leaseOf lease.profile leases) [.renewed now]
      (some ⟨lease.epoch, some (who, args.instanceId), now + leaseTtlMs⟩) := by
    rw [leaseOf_of_get hone hget]
    exact Step.renewed lease.abstract _ _ hown
  rw [← hown] at hstep
  have hafter : leaseStep leases ⟨now, world, .renew args⟩ = leases.patch leaseId fun lease =>
      { lease with renewedAt := some now, expiresAt := now + leaseTtlMs } := by
    simp [leaseStep, LeaseCall.db, h, commit, Except.map]
  exact simulates_of_writes hw hstep hafter fun p => by simp [leaseEvents, LeaseCall.db, h, hprofile]

/-- With one lease per Profile, a release by a caller that can be identified does not throw. -/
lemma release_isOk (now : ℤ) {args : LeaseArgs} (hone : OneLeaseEach db.controllerLeases)
    (hwho : identityOf db args.caller = .ok who) : ∃ db', release now args db = .ok db' := by
  obtain ⟨row, hrow⟩ := leaseFor_isOk (p := args.profile) hone
  rw [release, hrow, ok_bind]
  rcases row with _ | ⟨leaseId, lease⟩
  · exact ⟨_, rfl⟩
  dsimp only
  rcases lease.holder with _ | holder
  · exact ⟨_, rfl⟩
  dsimp only
  split
  · exact ⟨_, rfl⟩
  rw [releaseIdentity_eq_some.mpr hwho, ok_bind]
  dsimp only
  split
  · exact ⟨_, rfl⟩
  · exact ⟨_, rfl⟩

lemma simulates_release (hone : OneLeaseEach leases) (now : ℤ) (world : Db) (args : LeaseArgs) :
    Simulates leases ⟨now, world, .release args⟩ := by
  have hone' : OneLeaseEach (world.withLeases leases).controllerLeases := hone
  cases h : release now args (world.withLeases leases) with
  | error e =>
    refine simulates_of_unseen hone ?_ fun p => ?_
    · simp [leaseStep, LeaseCall.db, h, commit, Except.map]
    cases hwho : identityOf (world.withLeases leases) args.caller with
    | error e => simp [leaseEvents, LeaseCall.db, hwho]
    | ok who =>
      obtain ⟨db', hok⟩ := release_isOk now hone' hwho
      rw [hok] at h
      simp at h
  | ok db' =>
    have hafter : leaseStep leases ⟨now, world, .release args⟩ = db'.controllerLeases := by
      simp [leaseStep, LeaseCall.db, h, commit, Except.map]
    rcases release_cases h with ⟨rfl, hmissed⟩ | ⟨leaseId, lease, hlease, hrel, rfl⟩
    · refine ⟨hafter ▸ hone, fun p => ?_⟩
      rw [hafter]
      simp only [leaseEvents]
      split_ifs with hp
      · subst hp
        split
        · rename_i who epoch hwho hepoch
          refine Step.missed _ _ _ fun l hl hholder hcur => ?_
          -- the row would be held by the caller, so the release would not have been missed
          obtain ⟨row, hrow⟩ := leaseFor_isOk (p := args.profile) hone'
          rcases row with _ | ⟨leaseId, lease⟩
          · have hnone : leaseOf args.profile leases = none := leaseOf_of_leaseFor_none hrow
            simp [hnone] at hl
          obtain ⟨hget, hprofile⟩ := get_of_leaseFor hrow
          rw [← hprofile, leaseOf_of_get hone hget] at hl
          cases hl
          obtain ⟨holder, hh, htenant⟩ := bind_eq_some_iff.mp hholder
          refine hmissed leaseId lease hrow ⟨holder, who, hh, ?_, ?_, hwho, ?_⟩
          · exact instanceId_of_tenant htenant
          · rw [hepoch, ← hcur]
            rfl
          · rw [holderMatches_iff, htenant, instanceId_of_tenant htenant]
        · exact Step.keep _
      · exact Step.keep _
    · obtain ⟨holder, who, hholder, hinst, hepoch, hwho, hmatch⟩ := hrel
      obtain ⟨hget, hprofile⟩ := get_of_leaseFor hlease
      have hown : lease.abstract.holder = some (who, args.instanceId) := by
        rw [abstract, hholder, bind_some, holderMatches_iff.mp hmatch, hinst]
      have hw := writes_patch (f := fun stored =>
        { stored with
          epoch := lease.epoch + 1
          holder := none
          acquiredAt := none
          renewedAt := none
          expiresAt := min lease.expiresAt now }) hone hget fun _ => rfl
      have hstep : Step leaseTtlMs (leaseOf lease.profile leases)
          [.released (who, args.instanceId) lease.epoch]
          (some ⟨lease.epoch + 1, none, min lease.expiresAt now⟩) := by
        rw [leaseOf_of_get hone hget]
        exact Step.released lease.abstract _ _ hown
      exact simulates_of_writes hw hstep hafter
        fun p => by simp [leaseEvents, LeaseCall.db, hwho, hepoch, hprofile]

/-- **The faithful lease refines the design**: every call is one abstract step for every
Profile. -/
theorem leaseStep_sim (hone : OneLeaseEach leases) (c : LeaseCall) : Simulates leases c := by
  obtain ⟨now, world, op⟩ := c
  cases op with
  | acquire args => exact simulates_acquire hone now world args
  | renew args => exact simulates_renew hone now world args
  | release args => exact simulates_release hone now world args
  | authorizeController profile caller => exact simulates_of_unseen hone rfl fun p => rfl

/-! ## Whole runs -/

lemma oneLeaseEach_run (calls : List LeaseCall) : OneLeaseEach (leaseRun calls) :=
  run_invariant (fun _ leases => OneLeaseEach leases)
    (fun i j a b hi => by simp at hi) (fun _ c hone => (leaseStep_sim hone c).1) calls

/-- The history of a run accounts for the lease it led to. -/
lemma fenced_run (profile : String) (calls : List LeaseCall) :
    Fenced leaseTtlMs (leaseHistory profile calls) (leaseOf profile (leaseRun calls)) := by
  refine run_invariant (fun calls leases => Fenced leaseTtlMs (leaseHistory profile calls)
    (leaseOf profile leases)) Fenced.init ?_ calls
  intro calls c hf
  rw [leaseHistory, trace_snoc]
  exact hf.step ((leaseStep_sim (oneLeaseEach_run calls) c).2 profile)

/-- The epoch on record for a Profile. -/
def storedEpoch (profile : String) (leases : Table ControllerLease) : Option ℤ :=
  (leaseOf profile leases).map Lease.epoch

lemma storedEpoch_mono (before after : List LeaseCall) {e : ℤ}
    (h : storedEpoch profile (leaseRun before) = some e) :
    ∃ e', storedEpoch profile (leaseRun (before ++ after)) = some e' ∧ e ≤ e' := by
  induction after using reverseRecOn with
  | nil => exact ⟨e, by simpa using h, le_rfl⟩
  | append_singleton after c ih =>
    obtain ⟨e₁, he₁, hle₁⟩ := ih
    obtain ⟨l, hl, rfl⟩ := map_eq_some_iff.mp he₁
    have hstep := (leaseStep_sim (oneLeaseEach_run (before ++ after)) c).2 profile
    obtain ⟨l', hl', hle⟩ := hstep.epoch_mono hl
    refine ⟨l'.epoch, ?_, le_trans hle₁ hle⟩
    rw [← append_assoc, leaseRun, run_snoc]
    exact congrArg (Option.map Lease.epoch) hl'

lemma leaseHistory_append (profile : String) (before after : List LeaseCall) :
    ∃ later, leaseHistory profile (before ++ after) = leaseHistory profile before ++ later := by
  induction after using reverseRecOn with
  | nil => exact ⟨[], by simp⟩
  | append_singleton after c ih =>
    obtain ⟨later, hlater⟩ := ih
    refine ⟨later ++ leaseEvents profile (leaseRun (before ++ after)) c, ?_⟩
    rw [← append_assoc, leaseHistory, trace_snoc, ← leaseHistory, hlater, append_assoc]
    rfl

/-- An accepted check has read the abstract lease: held by the caller, under its epoch. -/
lemma leaseOf_of_authorized {caller : ControllerCaller} (hone : OneLeaseEach db.controllerLeases)
    (h : authorizeController now p caller db = .ok who) :
    ∃ l instanceId, leaseOf p db.controllerLeases = some l ∧ l.holder = some (who, instanceId) ∧
      caller.epoch = some l.epoch ∧ now < l.expiresAt ∧ identityOf db caller = .ok who := by
  obtain ⟨leaseId, lease, holder, hlease, hholder, hmatch, hwho, hepoch, hexp⟩ :=
    authorizeController_spec h
  obtain ⟨hget, rfl⟩ := get_of_leaseFor hlease
  refine ⟨lease.abstract, holder.instanceId, leaseOf_of_get hone hget, ?_, hepoch, hexp, hwho⟩
  rw [abstract, hholder, bind_some, holderMatches_iff.mp hmatch]

/-- **Fencing of the controller lease.**  Over every run: the stored epoch never decreases; two
grants of one epoch went to one process; an accepted write check is made by the process (up to
its instance) of the most recent grant, under that grant's epoch, which has not been released
and has not expired; and an epoch whose holder lost the lease is never accepted again. -/
theorem lease_fencing (profile : String) (calls : List LeaseCall) :
    (∀ before after e, calls = before ++ after →
      storedEpoch profile (leaseRun before) = some e →
      ∃ e', storedEpoch profile (leaseRun calls) = some e' ∧ e ≤ e') ∧
    (∀ who instanceId who' instanceId' e time time',
      Event.granted (who, instanceId) e time ∈ leaseHistory profile calls →
      Event.granted (who', instanceId') e time' ∈ leaseHistory profile calls →
      who = who' ∧ instanceId = instanceId') ∧
    (∀ (world : Db) now caller who,
      authorizeController now profile caller (world.withLeases (leaseRun calls)) = .ok who →
      identityOf (world.withLeases (leaseRun calls)) caller = .ok who ∧
      ∃ e instanceId before time after, caller.epoch = some e ∧
        leaseHistory profile calls = before ++ .granted (who, instanceId) e time :: after ∧
        Undisturbed (who, instanceId) e after ∧ now < lastExtension time after + leaseTtlMs) ∧
    (∀ before after tenant e, calls = before ++ after → Lost tenant e (leaseHistory profile before) →
      ∀ (world : Db) now caller who, caller.epoch = some e →
        authorizeController now profile caller (world.withLeases (leaseRun calls)) ≠ .ok who) := by
  have hf := fenced_run profile calls
  refine ⟨?_, ?_, ?_, ?_⟩
  · intro before after e hcalls he
    subst hcalls
    exact storedEpoch_mono before after he
  · intro who instanceId who' instanceId' e time time' hg hg'
    exact Prod.mk.inj (hf.agree _ _ e time time' hg hg')
  · intro world now caller who h
    obtain ⟨l, instanceId, hl, hholder, hepoch, hexp, hwho⟩ :=
      leaseOf_of_authorized (oneLeaseEach_run calls) h
    obtain ⟨before, time, after, heq, hund, hexpires⟩ := hf.held l _ hl hholder
    exact ⟨hwho, l.epoch, instanceId, before, time, after, hepoch, heq, hund, hexpires ▸ hexp⟩
  · intro before after tenant e hcalls hlost world now caller who hcaller h
    subst hcalls
    obtain ⟨later, hlater⟩ := leaseHistory_append profile before after
    obtain ⟨l, hl, hlt⟩ := hf.lost tenant e (hlater ▸ hlost.append later)
    obtain ⟨l', instanceId, hl', -, hepoch, -⟩ :=
      leaseOf_of_authorized (oneLeaseEach_run (before ++ after)) h
    cases hl.symm.trans hl'
    exact absurd (some.inj (hepoch.symm.trans hcaller)) (ne_of_gt hlt)

/-- Two controllers with the shared token: `b` takes the lease over after `a`'s grant ran out. -/
def takeoverCalls : List LeaseCall :=
  [⟨0, .empty, .acquire ⟨"build", "host-a", "a", none, none, .controllerToken .current none⟩⟩,
    ⟨40000, .empty, .acquire ⟨"build", "host-b", "b", none, none, .controllerToken .next none⟩⟩]

/-- On that run `b` passes the check under epoch 2, and `a` never again under epoch 1. -/
theorem lease_fencing_takeover :
    (∃ e instanceId before time after, some 2 = some e ∧
      leaseHistory "build" takeoverCalls
        = before ++ .granted (.controllerToken, instanceId) e time :: after ∧
      Undisturbed (.controllerToken, instanceId) e after ∧
      50000 < lastExtension time after + leaseTtlMs) ∧
    ∀ (world : Db) now slot who, authorizeController now "build" (.controllerToken slot (some 1))
      (world.withLeases (leaseRun takeoverCalls)) ≠ .ok who := by
  obtain ⟨-, -, haccepted, hrefused⟩ := lease_fencing "build" takeoverCalls
  refine ⟨(haccepted .empty 50000 (.controllerToken .current (some 2)) .controllerToken rfl).2, ?_⟩
  intro world now slot who
  refine hrefused takeoverCalls [] (.controllerToken, "a") 1 rfl ?_ world now _ who rfl
  exact ⟨[], 0, [.granted (.controllerToken, "b") 2 40000], rfl,
    .inr ⟨(.controllerToken, "b"), 2, 40000, by simp, by simp⟩⟩

end EraInfra
