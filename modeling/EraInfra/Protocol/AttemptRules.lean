import EraInfra.Protocol.AttemptProtocol

/-!
# What a call can do to an Attempt

Every call of the protocol moves an Attempt by one of the rules listed here, or leaves it alone.
`Rule` is the whole life cycle in one place: which call, under which conditions on the row, rewrites
it how, whether the rewrite gives a slot back, and whether it drops the JIT config.  Later proofs
about Attempts go through this list and never open an operation again.

The rules speak of one row.  `Edits` says what an edit of one row does to the database around it,
and `Change` what the protocol sees of one Attempt — its row and its secrets — before and after a
call.
-/

namespace EraInfra

open DocStore Table Db

/-! ## One Attempt -/

/-- The JIT configs stored for an Attempt. -/
def secretsOf (i : DocId Attempt) (secrets : Table AttemptSecret) : List String :=
  (secrets.collect fun secret => secret.attemptId = i).map fun r => r.2.jitConfig

/-- What the protocol sees of one Attempt. -/
structure AttemptView where
  row : Option Attempt
  secrets : List String
  /-- The identifier has been handed out, so that no other Attempt will ever have it. -/
  born : Bool

def Db.viewAttempt (db : Db) (i : DocId Attempt) : AttemptView :=
  ⟨db.attempts.get i, secretsOf i db.attemptSecrets, i < db.attempts.next⟩

/-! ## The life cycle -/

/-- The calls that take idle work off a Worker it no longer qualifies for. -/
def Op.changesPins : Op → Prop
  | .setLabels _ _ | .registerProfile _ => True
  | _ => False

/-- The calls that may retire an Attempt that has no job. -/
def Op.retiresIdle : Op → Prop
  | .cancelAttempt _ => True
  | op => op.changesPins

/-- The controller's cleanup acknowledgement names this Attempt. -/
def CleanupArgs.names (args : CleanupArgs) (a : Attempt) : Prop :=
  a.runnerName = args.runnerName ∧ a.profile = args.profile ∧ a.runnerId = args.runnerId

/-- A machine token is the one of the Worker an Attempt is placed on. -/
def PlacedOn (token : String) (a : Attempt) (db : Db) : Prop :=
  ∃ machineId machine, machineForToken token db = .ok (machineId, machine) ∧
    a.machineId = some machineId

/-- **The life cycle of an Attempt.**  `Rule c db i a f released dropped`: the call `c`, made in
`db`, may rewrite the row `a` of Attempt `i` by `f`; `released` says that it gives the slot of
the row back, `dropped` that it drops the JIT config. -/
inductive Rule (c : Call) (db : Db) (i : DocId Attempt) (a : Attempt) :
    (Attempt → Attempt) → Bool → Bool → Prop
  | assigned (assignment : Assignment) : c.op = .tryAssign → a.state = .pending →
      a.machineId = none → Rule c db i a (assignedAttempt assignment) false false
  | requeued : c.op.changesPins → a.state = .pending → a.machineId.isSome →
      Rule c db i a requeuedAttempt true false
  | unplaced : c.op = .reconcile → a.state = .pending → a.machineId.isSome →
      Rule c db i a unplacedAttempt false false
  | claimed (token : String) : c.op = .claimAttempt token i → PlacedOn token a db →
      a.state = .pending → Rule c db i a (claimedAttempt c.now) false true
  | readied (token : String) : c.op = .markReady token i → PlacedOn token a db →
      a.state = .preparing → Rule c db i a (readyAttempt c.now) false false
  | started (args : JobStartedArgs) : c.op = .markJobStarted args →
      a.runnerName = args.runnerName → a.profile = args.profile → a.state.isTerminal = false →
      Rule c db i a (startedAttempt c.now args a) false false
  | branched (args : JobStartedArgs) : c.op = .markJobStarted args → a.state.isTerminal = true →
      Rule c db i a (branchedAttempt args.headBranch) false false
  | completed (args : JobCompletedArgs) : c.op = .markJobCompleted args →
      a.runnerName = args.runnerName → a.profile = args.profile →
      Rule c db i a (completedAttempt args) (!a.state.isTerminal) true
  | cancelled (args : CancelAttemptArgs) : c.op = .cancelAttempt args → a.state = .pending →
      Rule c db i a (cancelledAttempt c.now args.reason) true true
  | retired (reason : String) : c.op.retiresIdle → a.state = .preparing ∨ a.state = .ready →
      a.retirement = none → Rule c db i a (retiringAttempt c.now .cancelled reason) false true
  | abandoned (reason : String) : c.op = .reconcile → runnerMayBeOnline a.state = true →
      a.retirement = none → a.machineId.isSome →
      Rule c db i a (retiringAttempt c.now .failed reason) false true
  | kept : (c.op = .reconcile ∨ ∃ token, c.op = .heartbeat token) → a.state = .running →
      a.retirement.isSome → Rule c db i a keptAttempt false false
  | confirmed (args : CleanupArgs) (retirement : Retirement) :
      c.op = .completeRunnerCleanup args → args.names a → a.runnerCleanupPending = some true →
      a.retirement = some retirement → runnerMayBeOnline a.state = true →
      Rule c db i a (retiredAttempt c.now retirement false) true true
  | unconfirmed (retirement : Retirement) (machineId : DocId Machine) : c.op = .reconcile →
      a.state.isTerminal = false → a.retirement = some retirement →
      a.machineId = some machineId →
      retirementBackstopDue a (db.machines.get machineId) c.now db = true →
      Rule c db i a (retiredAttempt c.now retirement true) true true
  | acknowledged (args : CleanupArgs) : c.op = .completeRunnerCleanup args → args.names a →
      a.runnerCleanupPending = some true → isRetiring a = false →
      Rule c db i a acknowledgedAttempt false false
  | expired : c.op = .reconcile → a.state.isTerminal = false → a.machineId = none →
      queueExpiredMs < c.now - a.createdAt → Rule c db i a (expiredAttempt c.now) false true
  | reportedAgain (args : ReportAttemptArgs) : c.op = .reportAttempt args → args.attemptId = i →
      PlacedOn args.token a db → a.state.isTerminal = true →
      Rule c db i a (reportedAgain c.now args.exitCode) false true
  | exitedRetiring (args : ReportAttemptArgs) (retirement : Retirement) :
      c.op = .reportAttempt args → args.attemptId = i → PlacedOn args.token a db →
      a.state.isTerminal = false → a.state ≠ .running → a.retirement = some retirement →
      Rule c db i a (exitedRetiring c.now args.exitCode retirement) true true
  | exited (args : ReportAttemptArgs) : c.op = .reportAttempt args → args.attemptId = i →
      PlacedOn args.token a db → a.state.isTerminal = false →
      a.retirement = none ∨ a.state = .running →
      Rule c db i a (exitedAttempt c.now args.exitCode args.runnerExit a) true true

/-- What a call does to one Attempt, as the protocol sees it. -/
inductive Change (c : Call) (db : Db) (i : DocId Attempt) : AttemptView → AttemptView → Prop
  | same (v : AttemptView) : Change c db i v v
  | created (args : CreateAttemptArgs) (secrets : List String) : c.op = .createAttempt args →
      i = db.attempts.next →
      (∀ j b, db.attempts.get j = some b → b.runnerName ≠ args.runnerName) →
      Change c db i ⟨none, secrets, false⟩
        ⟨some (newAttempt c.now args), secrets ++ [args.encodedJITConfig], true⟩
  | edited {a : Attempt} {f : Attempt → Attempt} {released dropped : Bool}
      (secrets : List String) : Rule c db i a f released dropped →
      Change c db i ⟨some a, secrets, true⟩ ⟨some (f a), if dropped then [] else secrets, true⟩
  | deleted (a : Attempt) (secrets : List String) : c.op = .reconcile →
      a.state.isTerminal = true → a.runnerCleanupPending = none →
      Change c db i ⟨some a, secrets, true⟩ ⟨none, [], true⟩

/-! ## Edits of one row -/

/-- `db'` is `db` with the row `a` of Attempt `i` rewritten by `f`, its slot given back when
`released`, and its JIT config dropped when `dropped`. -/
structure Edits (i : DocId Attempt) (a : Attempt) (f : Attempt → Attempt) (released dropped : Bool)
    (db db' : Db) : Prop where
  found : db.attempts.get i = some a
  attempts : db'.attempts = db.attempts.patch i f
  secrets : ∀ j, secretsOf j db'.attemptSecrets =
    if dropped = true ∧ j = i then [] else secretsOf j db.attemptSecrets
  machines : db'.machines = if released then (releaseAttemptSlot a db).machines else db.machines
  slotReleases : db'.slotReleases =
    if released then (releaseAttemptSlot a db).slotReleases else db.slotReleases
  experiments : db'.experiments = db.experiments
  jobs : db'.jobs = db.jobs
  commands : db'.commands = db.commands
  profiles : db'.profiles = db.profiles
  controllerHeartbeats : db'.controllerHeartbeats = db.controllerHeartbeats

/-- `db'` is `db` as far as placed work is concerned. -/
structure Untouched (db db' : Db) : Prop where
  attempts : db'.attempts = db.attempts
  attemptSecrets : db'.attemptSecrets = db.attemptSecrets
  machines : db'.machines = db.machines
  slotReleases : db'.slotReleases = db.slotReleases
  experiments : db'.experiments = db.experiments
  jobs : db'.jobs = db.jobs
  commands : db'.commands = db.commands

/-- A call on at most one Attempt: nothing happens to placed work, or one row is edited by a
rule. -/
def EditsOne (c : Call) (db db' : Db) : Prop := Untouched db db' ∨
    ∃ i a f released dropped, Edits i a f released dropped db db' ∧ Rule c db i a f released dropped

variable {c : Call} {db db' db₁ : Db} {i j : DocId Attempt} {a : Attempt} {f : Attempt → Attempt}
  {released dropped : Bool}

lemma Untouched.refl (db : Db) : Untouched db db := ⟨rfl, rfl, rfl, rfl, rfl, rfl, rfl⟩

lemma Untouched.view (h : Untouched db db') : db'.viewAttempt j = db.viewAttempt j := by
  rw [viewAttempt, h.attempts, h.attemptSecrets, viewAttempt]

section

variable (h : Edits i a f released dropped db db')

include h

lemma Edits.view_self : db'.viewAttempt i
      = ⟨some (f a), if dropped then [] else secretsOf i db.attemptSecrets, true⟩ := by
  simp [viewAttempt, h.attempts, h.secrets, h.found, get_lt h.found]

lemma Edits.view_ne (hj : j ≠ i) : db'.viewAttempt j = db.viewAttempt j := by
  simp [viewAttempt, h.attempts, h.secrets, get_patch_ne hj, hj]

lemma Edits.view_eq : db.viewAttempt i = ⟨some a, secretsOf i db.attemptSecrets, true⟩ := by
  simp [viewAttempt, h.found, get_lt h.found]

end

lemma Change.of_view_eq (h : db'.viewAttempt j = db₁.viewAttempt j) :
    Change c db j (db₁.viewAttempt j) (db'.viewAttempt j) := by
  rw [h]
  exact .same _

lemma Edits.change (he : Edits i a f released dropped db db₁)
    (hr : Rule c db' i a f released dropped) (j : DocId Attempt) :
    Change c db' j (db.viewAttempt j) (db₁.viewAttempt j) := by
  by_cases hj : j = i
  · subst hj
    rw [he.view_self, he.view_eq]
    exact .edited _ hr
  · rw [he.view_ne hj]
    exact .same _

lemma EditsOne.change (h : EditsOne c db db') (j : DocId Attempt) :
    Change c db j (db.viewAttempt j) (db'.viewAttempt j) := by
  rcases h with h | ⟨i, a, f, released, dropped, he, hr⟩
  · exact .of_view_eq h.view
  · exact he.change hr j

/-! ### The parts of an edit -/

lemma secretsOf_delete {secrets : Table AttemptSecret} {k : DocId AttemptSecret}
    {secret : AttemptSecret} (hk : secrets.get k = some secret) (hi : secret.attemptId = i)
    (hone : ∀ k' s, secrets.get k' = some s → s.attemptId = i → k' = k) (j : DocId Attempt) :
    secretsOf j (secrets.delete k) = if j = i then [] else secretsOf j secrets := by
  split
  · rename_i hj
    subst hj
    rw [secretsOf, collect_eq_nil, List.map_nil]
    intro k' s hs
    rw [get_delete] at hs
    split at hs
    · simp at hs
    · rename_i hne
      simpa using fun hsi => hne (hone k' s hs hsi)
  · rename_i hj
    rw [secretsOf, collect_delete_of_not, secretsOf]
    intro s hs
    cases hk.symm.trans hs
    simpa [hi] using fun h => hj h.symm

/-- `deleteAttemptSecret` drops the secrets of one Attempt and does nothing else. -/
lemma deleteAttemptSecret_spec (h : deleteAttemptSecret i db = .ok db') :
    ∃ secrets, db' = { db with attemptSecrets := secrets } ∧
      ∀ j, secretsOf j secrets = if j = i then [] else secretsOf j db.attemptSecrets := by
  obtain ⟨row, hrow, h⟩ := bind_ok.mp h
  rcases row with _ | ⟨k, secret⟩
  · cases h
    refine ⟨db.attemptSecrets, rfl, fun j => ?_⟩
    split
    · rename_i hj
      rw [secretsOf, hj, unique_none hrow, List.map_nil]
    · rfl
  · cases h
    obtain ⟨hk, hi, hone⟩ := unique_some hrow
    exact ⟨_, rfl, secretsOf_delete hk (by simpa using hi)
      fun k' s hs hsi => hone k' s hs (by simpa using hsi)⟩

/-- `releaseMachineSlot` touches a Worker's row and the log of releases only. -/
lemma releaseMachineSlot_eq (machineId : Option (DocId Machine)) (db : Db) :
    releaseMachineSlot machineId db = { db with
      machines := (releaseMachineSlot machineId db).machines
      slotReleases := (releaseMachineSlot machineId db).slotReleases } := by
  unfold releaseMachineSlot
  split
  · rfl
  split
  · rfl
  · rfl

section

variable (hfound : db.attempts.get i = some a)

include hfound

lemma edits_patch : Edits i a f false false db (db.patchAttempt i f) :=
  ⟨hfound, rfl, fun _ => by simp [patchAttempt], rfl, rfl, rfl, rfl, rfl, rfl, rfl⟩

lemma edits_drop (h : deleteAttemptSecret i db = .ok db₁) :
    Edits i a f false true db (db₁.patchAttempt i f) := by
  obtain ⟨secrets, rfl, hsecrets⟩ := deleteAttemptSecret_spec h
  exact ⟨hfound, rfl, fun j => by simpa [patchAttempt] using hsecrets j, rfl, rfl, rfl, rfl, rfl,
    rfl, rfl⟩

lemma edits_release : Edits i a f true false db ((releaseAttemptSlot a db).patchAttempt i f) := by
  unfold releaseAttemptSlot
  rw [releaseMachineSlot_eq]
  exact ⟨hfound, rfl, fun _ => by simp [patchAttempt], rfl, rfl, rfl, rfl, rfl, rfl, rfl⟩

lemma edits_release_drop (h : deleteAttemptSecret i (releaseAttemptSlot a db) = .ok db₁) :
    Edits i a f true true db (db₁.patchAttempt i f) := by
  obtain ⟨secrets, rfl, hsecrets⟩ := deleteAttemptSecret_spec h
  unfold releaseAttemptSlot at hsecrets ⊢
  rw [releaseMachineSlot_eq] at hsecrets ⊢
  exact ⟨hfound, rfl, fun j => by simpa [patchAttempt] using hsecrets j, rfl, rfl, rfl, rfl, rfl,
    rfl, rfl⟩

end

end EraInfra
