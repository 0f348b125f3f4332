import EraInfra.Protocol.AttemptLifecycle

/-!
# No Runner registration is left behind

GitHub removes an ephemeral Runner by itself only once the Runner has run a job, so every way an
Attempt can end has to decide whether its Runner is still to be deleted.  `registration_settled`
says that none of them forgets: the row of an ended Attempt asks for the delete, or the history of
the run shows why it need not.

The history is read off the run (`Occurs`): nothing in the database remembers it.
-/

namespace EraInfra

open DocStore AttemptState

variable {js : Engine} {c : Call} {db : Db} {i : DocId Attempt} {a : Attempt}
  {f : Attempt → Attempt} {released dropped : Bool} {calls : List Call}

/-! ## What can happen to an Attempt's Runner -/

/-- A JobStarted moves the Attempt to `running`. -/
def JobStartedMoves (js : Engine) (i : DocId Attempt) (db : Db) (c : Call) : Prop :=
  ∃ args a b, c.op = .markJobStarted args ∧ a.runnerName = args.runnerName ∧
    db.attempts.get i = some a ∧ a.state ≠ .running ∧
    (step js db c).attempts.get i = some b ∧ b.state = .running

/-- A JobCompleted is applied to the Attempt. -/
def JobCompletedApplies (js : Engine) (i : DocId Attempt) (db : Db) (c : Call) : Prop :=
  ∃ args a, c.op = .markJobCompleted args ∧ a.runnerName = args.runnerName ∧
    db.attempts.get i = some a ∧ (step js db c).attempts.get i = some (completedAttempt args a)

/-- The controller acknowledges the delete of the Attempt's Runner, by name and identifier. -/
def CleanupAcknowledges (js : Engine) (i : DocId Attempt) (db : Db) (c : Call) : Prop :=
  ∃ args a b, c.op = .completeRunnerCleanup args ∧ args.names a ∧
    db.attempts.get i = some a ∧ a.runnerCleanupPending = some true ∧
    (step js db c).attempts.get i = some b ∧ b.runnerCleanupPending = none

/-- The Attempt's executor exits with code 0 while the Attempt is running and not retiring. -/
def ExitsCleanly (js : Engine) (i : DocId Attempt) (db : Db) (c : Call) : Prop :=
  ∃ args a b, c.op = .reportAttempt args ∧ args.attemptId = i ∧ args.exitCode = 0 ∧
    db.attempts.get i = some a ∧ PlacedOn args.token a db ∧ a.state = .running ∧
    a.retirement = none ∧ (step js db c).attempts.get i = some b ∧ b.state.isTerminal = true

/-- Why an ended Attempt's Runner need not be deleted: GitHub reported its job completed, the
controller has deleted it, or its executor exited cleanly after a job had started on it. -/
def Settled (js : Engine) (i : DocId Attempt) (calls : List Call) : Prop :=
  Occurs (step js) .empty (JobCompletedApplies js i) calls ∨
    Occurs (step js) .empty (CleanupAcknowledges js i) calls ∨
    ∃ before c rest, calls = before ++ c :: rest ∧ ExitsCleanly js i (after js before) c ∧
      Occurs (step js) .empty (JobStartedMoves js i) before

lemma Settled.snoc (h : Settled js i calls) (c : Call) : Settled js i (calls ++ [c]) := by
  rcases h with h | h | ⟨before, d, rest, rfl, hexits, hstarted⟩
  · exact .inl (occurs_snoc.mpr (.inl h))
  · exact .inr (.inl (occurs_snoc.mpr (.inl h)))
  · exact .inr (.inr ⟨before, d, rest ++ [c], by simp, hexits, hstarted⟩)

/-! ## One rule -/

/-- Only a JobStarted moves an Attempt to `running`. -/
lemma Rule.to_running (h : Rule c db i a f released dropped) (hrunning : (f a).state = .running) :
    a.state = .running ∨ ∃ args, c.op = .markJobStarted args ∧ a.runnerName = args.runnerName := by
  cases h with
  | started args hop hname => exact .inr ⟨args, hop, hname⟩
  | confirmed _ retirement | unconfirmed retirement | exitedRetiring _ retirement =>
    have hterminal := outcome_terminal retirement.outcome
    rw [show retirement.outcome.state = .running from hrunning] at hterminal
    simp [isTerminal] at hterminal
  | exited args =>
    have hterminal := exitedAttempt_terminal c.now args.exitCode args.runnerExit a
    simp [hrunning, isTerminal] at hterminal
  | claimed | readied | completed | cancelled | expired =>
    simp [claimedAttempt, readyAttempt, completedAttempt, cancelledAttempt, expiredAttempt]
      at hrunning
  | _ => exact .inl hrunning

/-- What a rule that leaves an Attempt ended says about its Runner. -/
inductive RunnerEnd (c : Call) (db : Db) (i : DocId Attempt) (a b : Attempt) : Prop
  | pending : b.runnerCleanupPending = some true → RunnerEnd c db i a b
  | ended : a.state.isTerminal = true → b.runnerCleanupPending = a.runnerCleanupPending →
      RunnerEnd c db i a b
  | completed (args : JobCompletedArgs) : c.op = .markJobCompleted args →
      a.runnerName = args.runnerName → b = completedAttempt args a → RunnerEnd c db i a b
  | acknowledged (args : CleanupArgs) : c.op = .completeRunnerCleanup args → args.names a →
      a.runnerCleanupPending = some true → b.runnerCleanupPending = none → RunnerEnd c db i a b
  | exited (args : ReportAttemptArgs) : c.op = .reportAttempt args → args.attemptId = i →
      args.exitCode = 0 → PlacedOn args.token a db → a.state = .running → a.retirement = none →
      RunnerEnd c db i a b

/-- **Every rule that ends an Attempt decides about its Runner.** -/
lemma Rule.runnerEnd (h : Rule c db i a f released dropped)
    (hends : (f a).state.isTerminal = true) : RunnerEnd c db i a (f a) := by
  cases h with
  | assigned _ _ hpending _ | requeued _ hpending _ | unplaced _ hpending _ =>
    simp [assignedAttempt, requeuedAttempt, unplacedAttempt, hpending, isTerminal]
      at hends
  | claimed | readied => simp [claimedAttempt, readyAttempt, isTerminal] at hends
  | started args =>
    rw [(startedAttempt_cases c.now args a).1] at hends
    simp [isTerminal] at hends
  | branched args _ hterminal | reportedAgain args _ _ _ hterminal => exact .ended hterminal rfl
  | completed args hop hname _ => exact .completed args hop hname rfl
  | cancelled | exitedRetiring | expired | retired | abandoned | unconfirmed => exact .pending rfl
  | kept _ hrunning _ => simp [keptAttempt, hrunning, isTerminal] at hends
  | confirmed args retirement hop hnames hcleanup _ _ =>
    exact .acknowledged args hop hnames hcleanup rfl
  | acknowledged args hop hnames hcleanup _ => exact .acknowledged args hop hnames hcleanup rfl
  | exited args hop hi hplaced _ _ =>
    -- the Runner is left to be deleted, unless it ran a job to a clean end
    by_cases hpending : (exitedAttempt c.now args.exitCode args.runnerExit a a).runnerCleanupPending
        = some true
    · exact .pending hpending
    · have hclean : a.state = .running ∧ args.exitCode = 0 ∧ a.retirement = none := by
        simpa [exitedAttempt, runnerOutlivesExecutor] using hpending
      exact .exited args hop hi hclean.2.1 hplaced hclean.1 hclean.2.2

/-! ## Every run -/

/-- What the history of a run says about one Attempt's row. -/
structure Registered (js : Engine) (i : DocId Attempt) (calls : List Call) (db : Db) : Prop where
  running : ∀ a, db.attempts.get i = some a → a.state = .running →
    Occurs (step js) .empty (JobStartedMoves js i) calls
  ended : ∀ a, db.attempts.get i = some a → a.state.isTerminal = true →
    a.runnerCleanupPending = some true ∨ Settled js i calls

lemma Registered.step_ended (h : Registered js i calls (after js calls)) {b : Attempt}
    (hb : (step js (after js calls) c).attempts.get i = some b)
    (hterminal : b.state.isTerminal = true) :
    b.runnerCleanupPending = some true ∨ Settled js i (calls ++ [c]) := by
  rcases (step_change js (after js calls) c i).row_cases hb with
    hsame | ⟨a, f, released, dropped, ha, hrule, rfl⟩ | ⟨args, -, -, -, -, rfl⟩
  · exact (h.ended b hsame hterminal).imp_right fun hsettled => hsettled.snoc c
  · cases hrule.runnerEnd hterminal with
    | pending hpending => exact .inl hpending
    | ended haterminal hcleanup =>
      rw [hcleanup]
      exact (h.ended a ha haterminal).imp_right fun hsettled => hsettled.snoc c
    | completed args hop hname hrow =>
      rw [hrow] at hb
      exact .inr (.inl (occurs_snoc.mpr (.inr ⟨args, a, hop, hname, ha, hb⟩)))
    | acknowledged args hop hnames hpending hcleanup =>
      exact .inr (.inr (.inl (occurs_snoc.mpr
        (.inr ⟨args, a, f a, hop, hnames, ha, hpending, hb, hcleanup⟩))))
    | exited args hop hi hcode hplaced hrunning hretirement =>
      -- the row was running, so a JobStarted had moved it there
      exact .inr (.inr (.inr ⟨calls, c, [], rfl,
        ⟨args, a, f a, hop, hi, hcode, ha, hplaced, hrunning, hretirement, hb, hterminal⟩,
        h.running a ha hrunning⟩))
  · simp [newAttempt, isTerminal] at hterminal

lemma registered_after (js : Engine) (i : DocId Attempt) (calls : List Call) :
    Registered js i calls (after js calls) := by
  refine run_invariant (Registered js i)
    ⟨fun a ha => by simp [Db.empty] at ha, fun a ha => by simp [Db.empty] at ha⟩
    (fun calls c h => ⟨fun b hb hrunning => ?_, fun _ hb hterminal => h.step_ended hb hterminal⟩) calls
  rw [occurs_snoc]
  rcases (step_change js (after js calls) c i).row_cases hb with
    hsame | ⟨a, f, released, dropped, ha, hrule, rfl⟩ | ⟨args, -, -, -, -, rfl⟩
  · exact .inl (h.running b hsame hrunning)
  · by_cases harunning : a.state = .running
    · exact .inl (h.running a ha harunning)
    · obtain ⟨args, hop, hname⟩ := (hrule.to_running hrunning).resolve_left harunning
      exact .inr ⟨args, a, f a, hop, hname, ha, harunning, hb, hrunning⟩
  · simp [newAttempt] at hrunning

/-- **No registration leaks.**  In every state a run reaches, the row of an ended Attempt asks for
its Runner to be deleted, or its job was reported completed, its delete acknowledged, or its
executor exited cleanly after a job had started on it.  And a reconciler pass, from any database,
keeps every row whose delete is still asked for. -/
theorem registration_settled (js : Engine) :
    (∀ calls i a, (after js calls).attempts.get i = some a → a.state.isTerminal = true →
      a.runnerCleanupPending = some true ∨ Settled js i calls) ∧
    ∀ db now i a, db.attempts.get i = some a → a.runnerCleanupPending = some true →
      ((step js db ⟨now, .reconcile⟩).attempts.get i).isSome = true := by
  refine ⟨fun calls i a ha hterminal => (registered_after js i calls).ended a ha hterminal, ?_⟩
  intro db now i a ha hpending
  rcases step_row_cases js ⟨now, .reconcile⟩ ha with
    hsame | ⟨f, released, dropped, -, hrow⟩ | ⟨-, -, hnone⟩
  · rw [hsame]
    rfl
  · rw [hrow]
    rfl
  · rw [hnone] at hpending
    simp at hpending

end EraInfra
