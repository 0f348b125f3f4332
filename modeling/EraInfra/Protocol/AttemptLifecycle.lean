import EraInfra.Protocol.AttemptSweep
import EraInfra.Protocol.CallEffects

/-!
# The life of an Attempt

`perform_change` is the simulation everything here rests on: whatever the database holds, a call
that commits takes every Attempt through one `Change`.  A result about Attempts is then a result
about the rules of the life cycle, carried along a run.

The first of them is here: the flags of a row always agree (`flags_consistent`), so that no Runner
is both counted as capacity and deleted.
-/

namespace EraInfra

open DocStore List Table AttemptState
open Option (isSome_iff_ne_none some)

variable {js : Engine} {c : Call} {db db' : Db} {i j : DocId Attempt} {a b : Attempt}
  {f : Attempt → Attempt} {released dropped : Bool}

/-! ## Every call is a change -/

variable {now : ℤ} {args : CreateAttemptArgs} {caller : Option ControllerCaller} {profile : String}

lemma viewAttempt_insert_ne (hj : j ≠ db.attempts.next) : Db.viewAttempt { db with
      attempts := db.attempts.insert (newAttempt now args)
      attemptSecrets := db.attemptSecrets.insert ⟨db.attempts.next, args.encodedJITConfig, now⟩ } j
      = db.viewAttempt j := by
  have hborn : j < db.attempts.next + 1 ↔ j < db.attempts.next :=
    ⟨fun h => lt_of_le_of_ne (Nat.le_of_lt_succ h) hj, Nat.lt_succ_of_lt⟩
  simp [Db.viewAttempt, get_insert, hj, secretsOf, collect_insert, Ne.symm hj, hborn]

lemma createAttempt_change (h : createAttempt now args db = .ok db') (j : DocId Attempt) :
    Change ⟨now, .createAttempt args⟩ db j (db.viewAttempt j) (db'.viewAttempt j) := by
  rcases createAttempt_cases h with rfl | ⟨hfresh, rfl⟩
  · exact .same _
  by_cases hj : j = db.attempts.next
  · subst hj
    have hbefore : db.viewAttempt db.attempts.next
        = ⟨none, secretsOf db.attempts.next db.attemptSecrets, false⟩ := by
      simp [Db.viewAttempt, get_next]
    have hafter : Db.viewAttempt { db with
        attempts := db.attempts.insert (newAttempt now args)
        attemptSecrets := db.attemptSecrets.insert
          ⟨db.attempts.next, args.encodedJITConfig, now⟩ } db.attempts.next
        = ⟨some (newAttempt now args),
          secretsOf db.attempts.next db.attemptSecrets ++ [args.encodedJITConfig], true⟩ := by
      simp [Db.viewAttempt, get_insert, secretsOf, collect_insert]
    rw [hbefore, hafter]
    exact .created args _ rfl rfl hfresh
  · exact .of_view_eq (viewAttempt_insert_ne hj)

/-- No call on an Experiment is seen by an Attempt. -/
lemma EditsExperiment.view {k : DocId Experiment} {e : Experiment} {g : Experiment → Experiment}
    (h : EditsExperiment k e g released db db') : db'.viewAttempt j = db.viewAttempt j := by
  rw [h.eq]
  cases released with
  | false => rfl
  | true =>
    rw [releaseMachineSlot_eq]
    rfl

/-- **Every call is a change.**  From any database at all, a call that commits takes every Attempt
through one `Change`. -/
theorem perform_change (h : perform js c db = .ok db') (j : DocId Attempt) :
    Change c db j (db.viewAttempt j) (db'.viewAttempt j) := by
  cases perform_effect h with
  | one _ _ hone => exact hone.change j
  | passed _ _ _ hchange => exact hchange j
  | created args hop hcreated =>
    obtain ⟨now, op⟩ := c
    subst hop
    exact createAttempt_change hcreated j
  | joined tokens machine _ _ => exact .same _
  | placed n hop hplaced =>
    obtain ⟨now, op⟩ := c
    subst hop
    exact tryAssign_change hplaced j
  | requested e _ _ => exact .same _
  | experiment _ he => exact .of_view_eq he.view
  | reconciled r hop hrun =>
    obtain ⟨now, op⟩ := c
    subst hop
    exact reconcile_change hrun j

/-- A step is a change too; a call that throws changes nothing. -/
lemma step_change (js : Engine) (db : Db) (c : Call) (j : DocId Attempt) :
    Change c db j (db.viewAttempt j) ((step js db c).viewAttempt j) :=
  commit_rule (P := fun db' => Change c db j (db.viewAttempt j) (db'.viewAttempt j)) (.same _)
    fun _ h => perform_change h j

/-- What becomes of a row: it stays as it is, is edited by a rule, or is deleted by the
reconciler. -/
lemma step_row_cases (js : Engine) (c : Call) (ha : db.attempts.get i = some a) :
    (step js db c).attempts.get i = some a ∨ (∃ f released dropped, Rule c db i a f released dropped ∧
        (step js db c).attempts.get i = some (f a)) ∨
      (c.op = .reconcile ∧ a.state.isTerminal = true ∧ a.runnerCleanupPending = none) := by
  have hchange := step_change js db c i
  have hrow : (db.viewAttempt i).row = some a := ha
  have hrow' : ((step js db c).viewAttempt i).row = (step js db c).attempts.get i := rfl
  rw [← hrow']
  generalize db.viewAttempt i = v at hchange hrow
  generalize (step js db c).viewAttempt i = v' at hchange
  cases hchange with
  | same v => exact .inl hrow
  | created args secrets => simp at hrow
  | edited secrets hrule =>
    cases hrow
    exact .inr (.inl ⟨_, _, _, hrule, rfl⟩)
  | deleted b secrets hop hterminal hcleanup =>
    cases hrow
    exact .inr (.inr ⟨hop, hterminal, hcleanup⟩)

/-- Where a row comes from: it was there before the call, as it is or before an edit by a rule, or
the call created it. -/
lemma Change.row_cases {v v' : AttemptView} (h : Change c db j v v') (hb : v'.row = some b) :
    v.row = some b ∨
      (∃ a f released dropped, v.row = some a ∧ Rule c db j a f released dropped ∧ b = f a) ∨
      ∃ args, v.row = none ∧ c.op = .createAttempt args ∧ j = db.attempts.next ∧
        (∀ k b, db.attempts.get k = some b → b.runnerName ≠ args.runnerName) ∧
        b = newAttempt c.now args := by
  cases h with
  | same v => exact .inl hb
  | created args secrets hop hj hfresh =>
    exact .inr (.inr ⟨args, rfl, hop, hj, hfresh, (some.inj hb).symm⟩)
  | edited secrets hrule =>
    exact .inr (.inl ⟨_, _, _, _, rfl, hrule, (some.inj hb).symm⟩)
  | deleted a secrets => simp at hb

/-- What the rules keep of a row, a born Attempt keeps. -/
lemma Change.keeps {P : Attempt → Prop} {v v'} (h : Change c db j v v')
    (hrule : ∀ {a f released dropped}, Rule c db j a f released dropped → P a → P (f a))
    (hv : v.born = true ∧ ∀ a, v.row = some a → P a) :
    v'.born = true ∧ ∀ a, v'.row = some a → P a := by
  cases h with
  | same => exact hv
  | created => simp at hv
  | edited secrets h =>
    refine ⟨rfl, ?_⟩
    rintro _ ⟨⟩
    exact hrule h (hv.2 _ rfl)
  | deleted => exact ⟨rfl, by simp⟩

/-! ## The flags of a row -/

/-- What always holds between the fields of an Attempt's row. -/
structure AttemptOk (a : Attempt) : Prop where
  /-- A retirement is in progress only while the Runner may be online, with its delete requested. -/
  retiring : a.retirement.isSome = true → runnerMayBeOnline a.state = true ∧
    a.runnerCleanupPending = some true ∧ a.machineId.isSome = true
  /-- A delete is requested only of an ended or a retiring Attempt's Runner. -/
  cleanup : a.runnerCleanupPending = some true → a.state.isTerminal = true ∨ a.retirement.isSome = true
  /-- Only a Worker prepares an executor. -/
  placed : a.state = .preparing ∨ a.state = .ready → a.machineId.isSome = true
  /-- No row carries its JIT config itself. -/
  jitConfig : a.jitConfig = none

lemma outcome_terminal (outcome : RetirementOutcome) : outcome.state.isTerminal = true := by
  cases outcome <;> rfl

/-- A row without a retirement, once its Attempt has ended. -/
lemma AttemptOk.of_ended (hterminal : a.state.isTerminal = true) (hretirement : a.retirement = none)
    (hjit : a.jitConfig = none) : AttemptOk a := by
  refine ⟨by simp [hretirement], fun _ => .inl hterminal, ?_, hjit⟩
  rintro (h | h)
  · simp [h, isTerminal] at hterminal
  · simp [h, isTerminal] at hterminal

lemma AttemptOk.retirement_none_of_terminal (ha : AttemptOk a)
    (h : a.state.isTerminal = true) : a.retirement = none := by
  by_contra hne
  have honline := (ha.retiring (isSome_iff_ne_none.mpr hne)).1
  cases hs : a.state <;> simp [hs, isTerminal, runnerMayBeOnline] at h honline

lemma AttemptOk.retirement_none_of_pending (ha : AttemptOk a) (h : a.state = .pending) :
    a.retirement = none := by
  by_contra hne
  have honline := (ha.retiring (isSome_iff_ne_none.mpr hne)).1
  simp [h, runnerMayBeOnline] at honline

lemma AttemptOk.retirement_none_of_unplaced (ha : AttemptOk a) (h : a.machineId = none) :
    a.retirement = none := by
  by_contra hne
  have hplaced := (ha.retiring (isSome_iff_ne_none.mpr hne)).2.2
  simp [h] at hplaced

/-- A pending row's delete is never requested. -/
lemma AttemptOk.cleanup_of_pending (ha : AttemptOk a) (h : a.state = .pending) :
    a.runnerCleanupPending ≠ some true := by
  intro hcleanup
  rcases ha.cleanup hcleanup with hterminal | hretiring
  · simp [h, isTerminal] at hterminal
  · simp [ha.retirement_none_of_pending h] at hretiring

/-- What a JobStarted message leaves: running, and retiring only if it was running before. -/
lemma startedAttempt_cases (now : ℤ) (args : JobStartedArgs) (a : Attempt) :
    (startedAttempt now args a a).state = .running ∧
      (startedAttempt now args a a).machineId = a.machineId ∧
      (startedAttempt now args a a).jitConfig = a.jitConfig ∧
      ((a.state = .running ∨ a.retirement = none) ∧
          (startedAttempt now args a a).retirement = a.retirement ∧
          (startedAttempt now args a a).runnerCleanupPending = a.runnerCleanupPending ∨
        (a.state ≠ .running ∧ a.retirement ≠ none) ∧ (startedAttempt now args a a).retirement = none ∧
          (startedAttempt now args a a).runnerCleanupPending = none) := by
  unfold startedAttempt keepForJob
  by_cases hrunning : a.state = .running
  · simp [hrunning]
  · by_cases hretirement : a.retirement = none
    · simp [hretirement]
    · simp [hrunning, hretirement, keptAttempt]

lemma startedAttempt_ok {args : JobStartedArgs} (ha : AttemptOk a)
    (hactive : a.state.isTerminal = false) : AttemptOk (startedAttempt now args a a) := by
  obtain ⟨hstate, hmachine, hjit, hcases⟩ := startedAttempt_cases now args a
  refine ⟨fun h => ?_, fun h => ?_, by simp [hstate], hjit.trans ha.jitConfig⟩
  · rcases hcases with ⟨-, hretirement, hcleanup⟩ | ⟨-, hretirement, -⟩
    · rw [hretirement] at h
      rw [hcleanup, hmachine]
      exact ⟨rfl, (ha.retiring h).2⟩
    · simp [hretirement] at h
  · rcases hcases with ⟨-, hretirement, hcleanup⟩ | ⟨-, -, hcleanup⟩
    · rw [hcleanup] at h
      rw [hretirement]
      refine .inr ((ha.cleanup h).resolve_left ?_)
      simp [hactive]
    · simp [hcleanup] at h

lemma exitedAttempt_terminal (now : ℤ) (exitCode : ℚ) (runnerExit : Option RunnerExit)
    (a : Attempt) : (exitedAttempt now exitCode runnerExit a a).state.isTerminal = true := by
  unfold exitedAttempt
  dsimp only
  split
  · rfl
  · rfl

/-- **Every rule keeps the fields of a row in agreement.** -/
theorem Rule.ok (h : Rule c db i a f released dropped) (ha : AttemptOk a) : AttemptOk (f a) := by
  cases h with
  | assigned assignment _ hpending hnone =>
    exact ⟨by simp [assignedAttempt, ha.retirement_none_of_pending hpending], ha.cleanup,
      by simp [assignedAttempt], ha.jitConfig⟩
  | requeued _ hpending hplaced | unplaced _ hpending hplaced =>
    refine ⟨fun h => ?_, ha.cleanup, ?_, ha.jitConfig⟩
    · exact absurd h (by
        simp [requeuedAttempt, unplacedAttempt, ha.retirement_none_of_pending hpending])
    · simp [requeuedAttempt, unplacedAttempt, hpending]
  | claimed token _ hplaced hpending =>
    obtain ⟨machineId, machine, -, hm⟩ := hplaced
    refine ⟨by simp [claimedAttempt, ha.retirement_none_of_pending hpending], fun h => ?_,
      fun _ => by simp [claimedAttempt, hm], rfl⟩
    exact absurd h (ha.cleanup_of_pending hpending)
  | readied token _ hplaced hpreparing =>
    obtain ⟨machineId, machine, -, hm⟩ := hplaced
    refine ⟨fun h => ⟨rfl, (ha.retiring h).2⟩, fun h => ?_,
      fun _ => by simp [readyAttempt, hm], ha.jitConfig⟩
    rcases ha.cleanup h with hterminal | hretiring
    · simp [hpreparing, isTerminal] at hterminal
    · exact .inr hretiring
  | started args _ _ _ hactive => exact startedAttempt_ok ha hactive
  | branched args _ hterminal =>
    exact .of_ended hterminal (ha.retirement_none_of_terminal hterminal) ha.jitConfig
  | completed args => exact .of_ended rfl rfl rfl
  | cancelled args _ hpending =>
    exact .of_ended rfl (ha.retirement_none_of_pending hpending) rfl
  | retired reason _ hidle hnone =>
    refine ⟨fun _ => ⟨?_, rfl, ha.placed hidle⟩, fun _ => .inr rfl, ha.placed, rfl⟩
    rcases hidle with h | h <;> simp [retiringAttempt, h, runnerMayBeOnline]
  | abandoned reason _ honline hnone hplaced =>
    exact ⟨fun _ => ⟨honline, rfl, hplaced⟩, fun _ => .inr rfl, ha.placed, rfl⟩
  | kept _ hrunning hretiring =>
    exact ⟨by simp [keptAttempt], by simp [keptAttempt], ha.placed, ha.jitConfig⟩
  | confirmed args retirement _ _ _ hretirement _
  | unconfirmed retirement machineId _ _ hretirement _ _ =>
    exact .of_ended (outcome_terminal _) rfl rfl
  | acknowledged args _ _ hcleanup hretiring =>
    exact ⟨by simp [acknowledgedAttempt], by simp [acknowledgedAttempt], ha.placed, ha.jitConfig⟩
  | expired _ _ hnone _ => exact .of_ended rfl (ha.retirement_none_of_unplaced hnone) rfl
  | reportedAgain args _ _ _ hterminal =>
    exact .of_ended hterminal (ha.retirement_none_of_terminal hterminal) rfl
  | exitedRetiring args retirement => exact .of_ended (outcome_terminal _) rfl rfl
  | exited args => exact .of_ended (exitedAttempt_terminal _ _ _ _) rfl rfl

/-- No rule renames a Runner. -/
lemma Rule.runnerName (h : Rule c db i a f released dropped) : (f a).runnerName = a.runnerName := by
  cases h with
  | started args =>
    unfold startedAttempt keepForJob
    split
    · rfl
    · split
      · rfl
      · rfl
  | _ => rfl

/-- How far an Attempt has come. -/
def AttemptState.rank : AttemptState → ℕ
  | .pending => 0
  | .preparing => 1
  | .ready => 2
  | .running => 3
  | _ => 4

/-- `b` is a later row of the Attempt: no less far, and on the Worker that claimed it. -/
def Attempt.Later (a b : Attempt) : Prop :=
  a.state.rank ≤ b.state.rank ∧ (0 < a.state.rank → b.machineId = a.machineId)

lemma rank_le (s : AttemptState) (h : b.state.isTerminal = true) : s.rank ≤ b.state.rank := by
  cases s <;> cases hb : b.state <;> simp [hb, isTerminal, AttemptState.rank] at h ⊢

/-- No rule takes an Attempt back, or off its Worker. -/
lemma Rule.later (h : Rule c db i a f released dropped) : a.Later (f a) := by
  cases h with
  | assigned _ _ hpending | requeued _ hpending | unplaced _ hpending =>
    exact ⟨le_rfl, by simp [hpending, AttemptState.rank]⟩
  | claimed _ _ _ hstate | readied _ _ _ hstate =>
    exact ⟨by simp [hstate, AttemptState.rank, claimedAttempt, readyAttempt], fun _ => rfl⟩
  | started args _ _ _ hactive =>
    rcases startedAttempt_cases c.now args a with ⟨hstate, hmachine, -⟩
    refine ⟨?_, fun _ => hmachine⟩
    cases ha : a.state <;> simp [ha, hstate, AttemptState.rank, isTerminal] at hactive ⊢
  | completed | cancelled | expired => exact ⟨rank_le _ rfl, fun _ => rfl⟩
  | confirmed | unconfirmed | exitedRetiring =>
    exact ⟨rank_le _ (outcome_terminal _), fun _ => rfl⟩
  | exited => exact ⟨rank_le _ (exitedAttempt_terminal _ _ _ _), fun _ => rfl⟩
  | _ => exact ⟨le_rfl, fun _ => rfl⟩

/-! ## Every row, in every run -/

/-- All rows are in order, and a Runner has one row. -/
structure AttemptsOk (db : Db) : Prop where
  row : ∀ i a, db.attempts.get i = some a → AttemptOk a
  names : ∀ i j a b, db.attempts.get i = some a → db.attempts.get j = some b →
    a.runnerName = b.runnerName → i = j

/-- The Runner of a row, and whether the call registered it. -/
lemma step_runnerName (hb : (step js db c).attempts.get j = some b) :
    (∃ a, db.attempts.get j = some a ∧ a.runnerName = b.runnerName) ∨ (j = db.attempts.next ∧
        ∀ k a, db.attempts.get k = some a → a.runnerName ≠ b.runnerName) := by
  rcases (step_change js db c j).row_cases hb with
    hsame | ⟨a, f, released, dropped, ha, hrule, rfl⟩ | ⟨args, -, -, hj, hfresh, rfl⟩
  · exact .inl ⟨b, hsame, rfl⟩
  · exact .inl ⟨a, ha, hrule.runnerName.symm⟩
  · exact .inr ⟨hj, hfresh⟩

lemma AttemptsOk.step (h : AttemptsOk db) (c : Call) : AttemptsOk (step js db c) := by
  refine ⟨fun i b hb => ?_, fun i j a b hi hj hname => ?_⟩
  · rcases (step_change js db c i).row_cases hb with
      hsame | ⟨a, f, released, dropped, ha, hrule, rfl⟩ | ⟨args, -, -, -, -, rfl⟩
    · exact h.row i b hsame
    · exact hrule.ok (h.row i a ha)
    · exact ⟨by simp [newAttempt], by simp [newAttempt], by simp [newAttempt], rfl⟩
  · rcases step_runnerName hi with ⟨a₀, ha₀, hai⟩ | ⟨hinext, hfresh⟩ <;>
      rcases step_runnerName hj with ⟨b₀, hb₀, hbj⟩ | ⟨hjnext, hfresh'⟩
    · exact h.names i j a₀ b₀ ha₀ hb₀ (hai.trans (hname.trans hbj.symm))
    · exact absurd (hai.trans hname) (hfresh' i a₀ ha₀)
    · exact absurd (hbj.trans hname.symm) (hfresh j b₀ hb₀)
    · exact hinext.trans hjnext.symm

lemma attemptsOk_after (js : Engine) (calls : List Call) : AttemptsOk (after js calls) := by
  refine run_invariant (fun _ db => AttemptsOk db) ?_ (fun _ c h => h.step c) calls
  exact ⟨fun i a h => by simp [Db.empty] at h, fun i j a b h => by simp [Db.empty] at h⟩

lemma mem_listActiveAttempts {active : List ActiveAttempt} {x : ActiveAttempt}
    (h : listActiveAttempts now profile caller db = .ok active) (hx : x ∈ active) :
    ∃ i a, db.attempts.get i = some a ∧ a.runnerName = x.runnerName ∧
      a.state.isTerminal = false ∧ isRetiring a = false := by
  obtain ⟨-, -, h⟩ := bind_ok.mp h
  cases h
  obtain ⟨state, hstate, hx⟩ := mem_flatMap.mp hx
  obtain ⟨⟨i, a⟩, hr, rfl⟩ := mem_map.mp hx
  obtain ⟨hr, hretiring⟩ := mem_filter.mp hr
  obtain ⟨hget, hp⟩ := mem_collect.mp hr
  simp only [Bool.and_eq_true, decide_eq_true_eq] at hp
  exact ⟨i, a, hget, rfl, mem_activeAttemptStates.mp (hp.2 ▸ hstate), by simpa using hretiring⟩

/-- **The flags always agree.**  In every state a run reaches, a retiring Attempt is in `preparing`,
`ready` or `running` with its Runner's delete requested; a delete is requested only of an ended
or a retiring Attempt's Runner; and so a controller is never told to delete a Runner it is told
to count. -/
theorem flags_consistent (js : Engine) (calls : List Call) :
    (∀ i a, (after js calls).attempts.get i = some a →
      (a.retirement.isSome = true →
        (a.state = .preparing ∨ a.state = .ready ∨ a.state = .running) ∧
          a.runnerCleanupPending = some true) ∧
      (a.runnerCleanupPending = some true →
        a.state.isTerminal = true ∨ a.retirement.isSome = true)) ∧
    ∀ profile now now' caller caller' active cleanups,
      listActiveAttempts now profile caller (after js calls) = .ok active →
      listRunnerCleanups now' profile caller' (after js calls) = .ok cleanups →
      ∀ x ∈ active, ∀ y ∈ cleanups, x.runnerName ≠ y.runnerName := by
  have hok := attemptsOk_after js calls
  refine ⟨fun i a hget => ⟨fun hsome => ?_, (hok.row i a hget).cleanup⟩, ?_⟩
  · obtain ⟨honline, hcleanup, -⟩ := (hok.row i a hget).retiring hsome
    exact ⟨by simpa [runnerMayBeOnline, or_assoc] using honline, hcleanup⟩
  intro profile now now' caller caller' active cleanups hactive hcleanups x hx y hy hname
  obtain ⟨i, a, hi, hax, hstate, hretiring⟩ := mem_listActiveAttempts hactive hx
  obtain ⟨-, -, hcleanups⟩ := bind_ok.mp hcleanups
  cases hcleanups
  obtain ⟨⟨j, b⟩, hr, rfl⟩ := mem_map.mp hy
  obtain ⟨hj, hp⟩ := mem_collect.mp hr
  simp only [Bool.and_eq_true, decide_eq_true_eq] at hp
  -- one Runner, one row
  obtain rfl := hok.names i j a b hi hj (hax.trans hname)
  cases hi.symm.trans hj
  rcases (hok.row i a hi).cleanup hp.2 with hterminal | hsome
  · simp [hstate] at hterminal
  · simp [isRetiring, hsome, ((hok.row i a hi).retiring hsome).1] at hretiring

/-- An Attempt of `db` keeps its identifier in `db'`, and a row it still has is a later one. -/
def Db.Onward (db db' : Db) : Prop :=
  ∀ i < db.attempts.next, (db'.viewAttempt i).born = true ∧ ∀ b, (db'.viewAttempt i).row = some b →
    ∃ a, db.attempts.get i = some a ∧ a.Later b

/-- **An Attempt only moves on.**  Whatever is called, no state of an Attempt is taken back, a claimed
Attempt never changes its Worker, and a deleted one never returns. -/
theorem attempts_move_on (js : Engine) (db : Db) (calls : List Call) :
    db.Onward (run (step js) db calls) := by
  intro i hi
  induction calls using reverseRecOn with
  | nil => exact ⟨decide_eq_true hi, fun b hb => ⟨b, hb, le_rfl, fun _ => rfl⟩⟩
  | append_singleton calls c ih =>
    rw [run_snoc]
    refine (step_change ..).keeps (fun hrule => ?_) ih
    rintro ⟨a, ha, hstate, hworker⟩
    rcases hrule.later with ⟨hstate', hworker'⟩
    exact ⟨a, ha, hstate.trans hstate', fun h => (hworker' (h.trans_le hstate)).trans (hworker h)⟩

/-- **A Runner's name finds its Attempt.**  In every state a run reaches the lookup never throws: it
answers with the Attempt of that name, if there is one. -/
theorem runner_lookup_answers (js : Engine) (calls : List Call) (name : String) :
    attemptByRunnerName name (after js calls)
      = .ok ((after js calls).attempts.collect fun a => a.runnerName = name).head? := by
  have hok := attemptsOk_after js calls
  cases hrows : (after js calls).attempts.collect fun a => a.runnerName = name with
  | nil => simp [attemptByRunnerName, unique, hrows]
  | cons r rows =>
    obtain ⟨hget, hname⟩ := mem_collect.mp (hrows ▸ mem_cons_self : r ∈ _)
    refine unique_eq_some hget hname fun k b hk hb => hok.names k r.1 b r.2 hk hget ?_
    exact (of_decide_eq_true hb).trans (of_decide_eq_true hname).symm

end EraInfra
