import EraInfra.Protocol.AttemptLifecycle

/-!
# A running Attempt is somebody's job

Retirement never abandons a user's job.  `running_ends` lists what can take an Attempt out of
`running`: GitHub's JobCompleted, the report of its own Worker, a confirmed delete of its Runner, and
two decisions of the reconciler.  A scale-down, a label change or a pin change is not among them, and
a job that reaches a retiring Attempt first calls the retirement off.

**The bounded read.**  The reconciler ends a retirement nobody settled when it sees no live
controller, but it looks at fifty reports only, the first by host name.  Where one of these is live if
any is (`SeesLive`), no controller of the Profile is live when it ends the Attempt.
`unseen_controller` is a run in which the fifty-first is live and the Attempt ends all the same.
-/

namespace EraInfra

open DocStore AttemptState

variable {js : Engine} {c : Call} {db db' : Db} {i j : DocId Attempt} {a b : Attempt}
  {f : Attempt → Attempt} {released dropped : Bool}

/-! ## What ends a running Attempt -/

/-- Why an Attempt is no longer running. -/
inductive RunningEnd
  | completed
  | exited
  | confirmed
  | unconfirmed
  | expired

/-- The controller reports of a Profile, all of them. -/
def profileReports (profile : String) (db : Db) : List ControllerHeartbeat :=
  (db.controllerHeartbeats.collect fun row => row.report.profile = profile).map Prod.snd

/-- A live report of the Profile, if there is one, is among those the reconciler reads. -/
def SeesLive (now : ℤ) (profile : String) (db : Db) : Prop :=
  (∃ row ∈ profileReports profile db, isLive row now = true) →
    ∃ row ∈ controllerReports profile db, isLive row now = true

/-- When a call may take a running Attempt, with this row, out of `running` for this cause, by these
reports of its Profile's controllers. -/
def RunningEnd.Justifies (reports : List ControllerHeartbeat) (c : Call) (db : Db) (i : DocId Attempt)
    (a : Attempt) : RunningEnd → Prop
  | .completed => ∃ args, c.op = .markJobCompleted args ∧ a.runnerName = args.runnerName ∧
      a.profile = args.profile
  | .exited => ∃ args, c.op = .reportAttempt args ∧ args.attemptId = i ∧ PlacedOn args.token a db
  | .confirmed => ∃ args, c.op = .completeRunnerCleanup args ∧ args.names a ∧ isRetiring a = true
  | .unconfirmed => c.op = .reconcile ∧ ∃ retirement m, a.retirement = some retirement ∧
      retirementUnconfirmedMs < c.now - retirement.requestedAt ∧ a.machineId = some m ∧
      (∀ machine, db.machines.get m = some machine → workerReports machine c.now = false) ∧
      ∀ row ∈ reports, isLive row c.now = false
  | .expired => c.op = .reconcile ∧ a.machineId = none ∧ queueExpiredMs < c.now - a.createdAt

/-- The cause that a call can have. -/
def RunningEnd.of (c : Call) (a : Attempt) : Option RunningEnd :=
  match c.op with
  | .markJobCompleted _ => some .completed
  | .reportAttempt _ => some .exited
  | .completeRunnerCleanup _ => some .confirmed
  | .reconcile => if a.machineId = none then some .expired else some .unconfirmed
  | _ => none

variable {now : ℤ} {args : JobStartedArgs} {reports : List ControllerHeartbeat} {cause : RunningEnd}

/-- The causes exclude each other. -/
lemma RunningEnd.Justifies.of_eq (h : cause.Justifies reports c db i a) :
    RunningEnd.of c a = some cause := by
  cases cause with
  | completed =>
    obtain ⟨args, hop, -⟩ := h
    simp [RunningEnd.of, hop]
  | exited =>
    obtain ⟨args, hop, -⟩ := h
    simp [RunningEnd.of, hop]
  | confirmed =>
    obtain ⟨args, hop, -⟩ := h
    simp [RunningEnd.of, hop]
  | unconfirmed =>
    obtain ⟨hop, retirement, m, -, -, hm, -⟩ := h
    simp [RunningEnd.of, hop, hm]
  | expired =>
    obtain ⟨hop, hnone, -⟩ := h
    simp [RunningEnd.of, hop, hnone]

lemma RunningEnd.existsUnique (h : cause.Justifies reports c db i a) :
    ∃! cause : RunningEnd, cause.Justifies reports c db i a :=
  ⟨cause, h, fun _ hother => Option.some.inj (hother.of_eq.symm.trans h.of_eq)⟩

/-- What the reports that were read say, all of them say, if a live one is seen. -/
lemma RunningEnd.Justifies.seen (h : cause.Justifies (controllerReports a.profile db) c db i a)
    (hsees : c.op = .reconcile → SeesLive c.now a.profile db) :
    cause.Justifies (profileReports a.profile db) c db i a := by
  cases cause with
  | unconfirmed =>
    obtain ⟨hop, retirement, m, hretirement, hold, hm, hsilent, hlive⟩ := h
    refine ⟨hop, retirement, m, hretirement, hold, hm, hsilent, fun row hrow => ?_⟩
    by_contra hne
    obtain ⟨seen, hseen, hlive'⟩ := hsees hop ⟨row, hrow, by simpa using hne⟩
    simp [hlive seen hseen] at hlive'
  | completed => exact h
  | exited => exact h
  | confirmed => exact h
  | expired => exact h

/-- What the backstop has checked when it ends a running Attempt. -/
lemma retirementBackstopDue_running {machine : Option Machine}
    (hrunning : a.state = .running) (h : retirementBackstopDue a machine now db = true) :
    ∃ retirement, a.retirement = some retirement ∧
      retirementUnconfirmedMs < now - retirement.requestedAt ∧
      (∀ m, machine = some m → workerReports m now = false) ∧
      ∀ row ∈ controllerReports a.profile db, isLive row now = false := by
  unfold retirementBackstopDue at h
  split at h
  · simp at h
  rename_i retirement hretirement
  split at h
  · simp at h
  rename_i hold
  split at h
  · simp at h
  rename_i hsilent
  refine ⟨retirement, hretirement, not_le.mp hold, fun m hm => ?_, fun row hrow => ?_⟩
  · simpa [hrunning, hm] using hsilent
  · simp only [liveControllers, decide_eq_true_eq, List.length_eq_zero_iff, List.filter_eq_nil_iff] at h
    simpa using h row hrow

/-- **One rule out of `running`.** -/
lemma Rule.ends_running (h : Rule c db i a f released dropped) (hrunning : a.state = .running)
    (hends : (f a).state ≠ .running) :
    ∃ cause : RunningEnd, cause.Justifies (controllerReports a.profile db) c db i a := by
  cases h with
  | assigned assignment _ hpending _ | requeued _ hpending _ | unplaced _ hpending _
  | claimed token _ _ hpending | cancelled args _ hpending =>
    rw [hrunning] at hpending
    simp at hpending
  | readied token _ _ hpreparing =>
    rw [hrunning] at hpreparing
    simp at hpreparing
  | started args => exact absurd (startedAttempt_cases c.now args a).1 hends
  | branched args _ hterminal | reportedAgain args _ _ _ hterminal =>
    simp [hrunning, isTerminal] at hterminal
  | completed args hop hname hprofile => exact ⟨.completed, args, hop, hname, hprofile⟩
  | retired reason _ _ _ | abandoned reason _ _ _ _ | kept _ _ _ =>
    exact absurd hrunning hends
  | confirmed args retirement hop hnames _ hretirement honline =>
    exact ⟨.confirmed, args, hop, hnames, by simp [isRetiring, hretirement, honline]⟩
  | unconfirmed retirement m hop _ _ hm hdue =>
    obtain ⟨retirement', hretirement, hold, hsilent, hlive⟩ :=
      retirementBackstopDue_running hrunning hdue
    exact ⟨.unconfirmed, hop, retirement', m, hretirement, hold, hm, hsilent, hlive⟩
  | acknowledged args _ _ _ _ => exact absurd hrunning hends
  | expired hop _ hnone hold => exact ⟨.expired, hop, hnone, hold⟩
  | exitedRetiring args retirement _ _ _ _ hnot _ => exact absurd hrunning hnot
  | exited args hop hi hplaced _ _ => exact ⟨.exited, args, hop, hi, hplaced⟩

/-- A step out of `running` has a cause. -/
lemma step_ends_running (ha : db.attempts.get i = some a) (hrunning : a.state = .running)
    (hends : ∀ b, (step js db c).attempts.get i = some b → b.state ≠ .running) :
    ∃ cause : RunningEnd, cause.Justifies (controllerReports a.profile db) c db i a := by
  rcases step_row_cases js c ha with
    hsame | ⟨f, released, dropped, hrule, hrow⟩ | ⟨-, hterminal, -⟩
  · exact absurd hrunning (hends a hsame)
  · exact hrule.ends_running hrunning (hends _ hrow)
  · simp [hrunning, isTerminal] at hterminal

/-! ## What leaves a running Attempt alone -/

/-- The rules of a scale-down, a label change and a pin change are for idle Attempts. -/
lemma Rule.not_running (h : Rule c db i a f released dropped) (hop : c.op.retiresIdle) :
    a.state ≠ .running := by
  intro hrunning
  cases h with
  | requeued _ hpending _ | cancelled _ _ hpending =>
    rw [hrunning] at hpending
    simp at hpending
  | retired _ _ hidle _ => simp [hrunning] at hidle
  | kept hcause _ _ =>
    rcases hcause with hop' | ⟨token, hop'⟩ <;>
      simp [hop', Op.retiresIdle, Op.changesPins] at hop
  | _ => simp_all [Op.retiresIdle, Op.changesPins]

lemma step_job_wins (hok : AttemptsOk db)
    (ha : db.attempts.get i = some a) (hidle : a.state = .preparing ∨ a.state = .ready)
    (hretiring : a.retirement.isSome = true) (hname : a.runnerName = args.runnerName)
    (hprofile : a.profile = args.profile)
    (hauth : authorize now args.profile args.caller db = .ok ()) :
    ∃ b, (step js db ⟨now, .markJobStarted args⟩).attempts.get i = some b ∧
      b.state = .running ∧ b.retirement = none ∧ b.runnerCleanupPending = none := by
  have hactive : a.state.isTerminal = false := by
    rcases hidle with h | h <;> rw [h] <;> rfl
  have hfound : attemptByRunnerName args.runnerName db = .ok (some (i, a)) :=
    Table.unique_eq_some ha (by simpa using hname) fun k b hb hbname =>
      hok.names k i b a hb ha ((by simpa using hbname : b.runnerName = _).trans hname.symm)
  have happly : markJobStarted now args db = .ok (db.patchAttempt i (startedAttempt now args a)) := by
    unfold markJobStarted
    rw [hauth, ok_bind, hfound, ok_bind]
    simp only [hprofile, hactive, ne_eq]
    rfl
  have hstep : step js db ⟨now, .markJobStarted args⟩
      = db.patchAttempt i (startedAttempt now args a) := by
    show commit db (markJobStarted now args db) = _
    rw [happly, commit]
  obtain ⟨hstate, -, -, hcases⟩ := startedAttempt_cases now args a
  refine ⟨startedAttempt now args a a, ?_, hstate, ?_⟩
  · rw [hstep]
    simp [Db.patchAttempt, ha]
  rcases hcases with ⟨hrunning | hnone, -⟩ | ⟨-, hretirement, hcleanup⟩
  · rcases hidle with h | h <;> simp [h] at hrunning
  · simp [hnone] at hretiring
  · exact ⟨hretirement, hcleanup⟩

/-- **A user's job is never abandoned by retirement.**  In every state a run reaches: a call that
takes an Attempt out of `running` does so for exactly one of five causes, judged by the reports the
reconciler reads, and by all reports of the Profile if it sees a live one where there is one; a
scale-down, a label change or a pin change leaves a running Attempt's row as it is; and a JobStarted
that reaches a `preparing` or `ready` Attempt while it is retiring leaves it running and not
retiring. -/
theorem running_ends (js : Engine) (calls : List Call) :
    (∀ c i a, (after js calls).attempts.get i = some a → a.state = .running →
      (∀ b, (step js (after js calls) c).attempts.get i = some b → b.state ≠ .running) →
      (∃! cause : RunningEnd, cause.Justifies (controllerReports a.profile (after js calls)) c
        (after js calls) i a) ∧
      ((c.op = .reconcile → SeesLive c.now a.profile (after js calls)) →
        ∃! cause : RunningEnd, cause.Justifies (profileReports a.profile (after js calls)) c
          (after js calls) i a)) ∧
    (∀ c i a, c.op.retiresIdle → (after js calls).attempts.get i = some a → a.state = .running →
      (step js (after js calls) c).attempts.get i = some a) ∧
    ∀ now args i a, (after js calls).attempts.get i = some a →
      (a.state = .preparing ∨ a.state = .ready) → a.retirement.isSome = true →
      a.runnerName = args.runnerName → a.profile = args.profile →
      authorize now args.profile args.caller (after js calls) = .ok () →
      ∃ b, (step js (after js calls) ⟨now, .markJobStarted args⟩).attempts.get i = some b ∧
        b.state = .running ∧ b.retirement = none ∧ b.runnerCleanupPending = none := by
  refine ⟨fun c i a ha hrunning hends => ?_, fun c i a hop ha hrunning => ?_,
    fun _ _ _ _ ha hidle hretiring hname hprofile hauth =>
      step_job_wins (attemptsOk_after js calls) ha hidle hretiring hname hprofile hauth⟩
  · obtain ⟨cause, hcause⟩ := step_ends_running ha hrunning hends
    exact ⟨RunningEnd.existsUnique hcause, fun hsees => RunningEnd.existsUnique (hcause.seen hsees)⟩
  rcases step_row_cases js c ha with hsame | ⟨f, released, dropped, hrule, -⟩ | ⟨-, hterminal, -⟩
  · exact hsame
  · exact absurd hrunning (hrule.not_running hop)
  · simp [hrunning, isTerminal] at hterminal

/-! ## The fifty-first controller -/

/-- A controller of the Profile `ci` reports. -/
def ciReport (hostname : String) : HeartbeatReport where
  profile := "ci"
  hostname := hostname
  version := "1"
  scaleSetId := none
  sessionState := .listening
  leaseRole := none
  leaseEpoch := none
  lastMessageAt := none
  startedAt := none
  assignedJobs := 0
  runningJobs := 0
  lastError := none
  tokenSlot := .current

/-- The Profile `ci`: a Docker image for one virtual CPU. -/
def ciProfile : RegisterProfileArgs where
  name := "ci"
  scaleSetName := "ci"
  executor := .docker
  imageRelease := "2026-01"
  vcpus := 1
  memoryMiB := 1024
  warmPool := none
  fitPolicy := none
  minRunners := 0
  maxRunners := 1
  egress := none
  githubConfigUrl := none
  githubCacheFacts := none
  runnerGroup := none
  labels := none
  workerLabels := none
  caller := none

/-- The first Worker is ready for `ci`. -/
def ciReadiness : Table WorkerReadiness := Table.empty.insert
    { machineId := 0
      profile := "ci"
      executor := .docker
      imageRelease := "2026-01"
      vcpus := none
      memoryMiB := none
      state := .ready
      checkedAt := 0
      warmPool := none
      facts := ⟨none, none, none, none, none, none, none, none⟩ }

def ciAttempt : CreateAttemptArgs where
  profile := "ci"
  executor := .docker
  imageRelease := "2026-01"
  vcpus := 1
  memoryMiB := 1024
  runnerName := "ci-1"
  runnerId := 7
  encodedJITConfig := "jit"
  caller := none

def ciJobStarted : JobStartedArgs where
  profile := "ci"
  runnerName := "ci-1"
  runnerRequestId := none
  repository := none
  owner := none
  jobId := none
  workflowRef := none
  headBranch := none
  displayName := none
  workflowRunId := none
  eventName := none
  queueTime := none
  assignedAt := none
  runnerAssignedAt := none
  caller := none

/-- A Worker joins, and an Attempt of `ci` is created, placed on it and claimed by it. -/
def claimedCalls : List Call := [⟨0, .issueRegistrationToken "join"⟩,
    ⟨0, .registerAgent ⟨"join", "worker", .linux, 8, some 32768, none, some 4, "secret"⟩⟩,
    ⟨0, .registerProfile ciProfile⟩,
    ⟨0, .readiness ciReadiness .empty⟩,
    ⟨0, .createAttempt ciAttempt⟩,
    ⟨0, .tryAssign⟩,
    ⟨0, .claimAttempt "secret" 0⟩]

/-- Its job starts; the Worker falls silent, so that the Attempt is retired twenty minutes later;
fifty controllers report and fall silent; and six hours on one more controller reports. -/
def unseenCalls : List Call := claimedCalls ++
    [⟨0, .markJobStarted ciJobStarted⟩, ⟨1200000, .reconcile⟩] ++
    ((List.range 50).map fun k => ⟨1200000, .recordHeartbeat (ciReport s!"host-{k}") none⟩) ++
    [⟨22860000, .recordHeartbeat (ciReport "standby") none⟩]

/-- In that run the Attempt is running on a Worker and a controller of its Profile is live, and the
next pass of the reconciler ends it. -/
theorem unseen_controller :
    ((after asciiEngine unseenCalls).attempts.get 0).map
        (fun a => (a.state, a.profile, a.machineId)) = some (.running, "ci", some 0) ∧
      (((after asciiEngine unseenCalls).controllerHeartbeats.collect fun row =>
        row.report.profile = "ci" && isLive row 22860000).map fun r => r.2.report.hostname)
          = ["standby"] ∧
      ((step asciiEngine (after asciiEngine unseenCalls) ⟨22860000, .reconcile⟩).attempts.get 0).map
        Attempt.state = some .failed := by
  decide +kernel

end EraInfra
