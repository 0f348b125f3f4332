import EraInfra.Protocol.AttemptPlacement
import EraInfra.Protocol.WorkSteps

/-!
# What a call can commit

Every call of the Attempt protocol has one of eight kinds of effect.  The proofs that go through all
calls — that Attempts follow the life cycle, that slots stay accounted for, that legacy jobs are left
alone — are proofs about these kinds.
-/

namespace EraInfra

open DocStore

/-- An invariant of what the passes over many Attempts are made of: edits by a rule, changes to a
Worker other than to its count, and changes to Profiles. -/
structure PassInvariant (c : Call) (db : Db) (Inv : Db → Prop) : Prop where
  edits : ∀ i a f released dropped db₁ db₂, Edits i a f released dropped db₁ db₂ →
    Rule c db i a f released dropped → Inv db₁ → Inv db₂
  machines : ∀ db₁ machineId f, (∀ machine : Machine, (f machine).usedSlots = machine.usedSlots) →
    Inv db₁ → Inv (db₁.patchMachine machineId f)
  profiles : ∀ profiles, Inv db → Inv { db with profiles := profiles }

/-- **The effects of the calls.** -/
inductive Effect (js : Engine) (c : Call) (db : Db) : Db → Prop
  /-- At most one Attempt is edited. -/
  | one {db' : Db} : c.op ≠ .tryAssign → c.op ≠ .reconcile → EditsOne c db db' → Effect js c db db'
  /-- A pass over many Attempts. -/
  | passed {db' : Db} : c.op ≠ .tryAssign → c.op ≠ .reconcile →
      (∀ Inv, PassInvariant c db Inv → Inv db → Inv db') →
      (∀ j, Change c db j (db.viewAttempt j) (db'.viewAttempt j)) → Effect js c db db'
  | created {db' : Db} (args : CreateAttemptArgs) : c.op = .createAttempt args →
      createAttempt c.now args db = .ok db' → Effect js c db db'
  | joined (tokens : Table RegistrationToken) (machine : Machine) : c.op ≠ .reconcile →
      machine.usedSlots = 0 → Effect js c db { db with
        registrationTokens := tokens, machines := db.machines.insert machine }
  | placed {db' : Db} (n : ℕ) : c.op = .tryAssign →
      AttemptScheduler.tryAssign js c.now db = .ok (n, db') → Effect js c db db'
  | requested (e : Experiment) : c.op ≠ .reconcile → e.machineId = none →
      Effect js c db { db with experiments := db.experiments.insert e }
  | experiment {db' : Db} {k : DocId Experiment} {e : Experiment} {f : Experiment → Experiment}
      {released : Bool} : c.op ≠ .reconcile → EditsExperiment k e f released db db' →
      Effect js c db db'
  | reconciled {db' : Db} (r : ReconcileResult) : c.op = .reconcile →
      Reconcile.run c.now db = .ok (r, db') → Effect js c db db'

variable {js : Engine} {c : Call} {db db' : Db}

lemma Effect.unchanged (htry : c.op ≠ .tryAssign) (hreconcile : c.op ≠ .reconcile) :
    Effect js c db db :=
  .one htry hreconcile (.inl (.refl db))

lemma perform_effect (h : perform js c db = .ok db') : Effect js c db db' := by
  obtain ⟨now, op⟩ := c
  cases op with
  | issueRegistrationToken token =>
    exact .one (by simp) (by simp) (.inl (issueRegistrationToken_untouched h))
  | registerAgent args =>
    obtain ⟨r, hr⟩ := map_snd_ok.mp h
    rcases registerAgent_cases hr with rfl | ⟨tokens, machine, hused, rfl⟩
    · exact .unchanged (by simp) (by simp)
    · exact .joined tokens machine (by simp) hused
  | setLabels name labels =>
    obtain ⟨r, hr⟩ := map_snd_ok.mp h
    exact .passed (by simp) (by simp) (fun Inv hinv h0 => (setLabels_change Inv hinv.edits
        (fun _ _ => hinv.machines _ _ _ (fun _ => rfl) h0) h0 hr).1)
      (setLabels_change (fun _ => True) (fun _ _ _ _ _ _ _ _ _ _ => trivial)
        (fun _ _ => trivial) trivial hr).2
  | heartbeat token =>
    obtain ⟨r, hr⟩ := map_snd_ok.mp h
    exact .passed (by simp) (by simp) (fun Inv hinv h0 => (heartbeat_change Inv hinv.edits
        (fun _ _ => hinv.machines _ _ _ fun _ => rfl) h0 hr).1)
      (heartbeat_change (fun _ => True) (fun _ _ _ _ _ _ _ _ _ _ => trivial)
        (fun _ _ _ => trivial) trivial hr).2
  | measure machineId facts =>
    cases h
    exact .passed (by simp) (by simp) (fun Inv hinv => hinv.machines _ _ _ fun _ => rfl)
      fun j => .same _
  | readiness rows evidence =>
    cases h
    exact .one (by simp) (by simp) (.inl ⟨rfl, rfl, rfl, rfl, rfl, rfl, rfl⟩)
  | acquireLease args =>
    obtain ⟨r, hr⟩ := map_snd_ok.mp h
    exact .one (by simp) (by simp) (.inl (acquire_untouched hr))
  | renewLease args =>
    obtain ⟨r, hr⟩ := map_snd_ok.mp h
    exact .one (by simp) (by simp) (.inl (renew_untouched hr))
  | releaseLease args => exact .one (by simp) (by simp) (.inl (release_untouched h))
  | recordHeartbeat report caller =>
    exact .one (by simp) (by simp) (.inl (recordHeartbeat_untouched h))
  | registerProfile args =>
    obtain ⟨r, hr⟩ := map_snd_ok.mp h
    exact .passed (by simp) (by simp) (fun Inv hinv h0 => (registerProfile_change Inv hinv.edits
        (fun _ => hinv.profiles _ h0) hr).1)
      (registerProfile_change (fun _ => True) (fun _ _ _ _ _ _ _ _ _ _ => trivial)
        (fun _ => trivial) hr).2
  | pauseProfile name caller =>
    obtain ⟨r, hr⟩ := map_snd_ok.mp h
    exact .one (by simp) (by simp) (.inl (pauseProfile_untouched hr))
  | createAttempt args => exact .created args rfl h
  | cancelAttempt args => exact .one (by simp) (by simp) (cancelAttempt_edits h)
  | markJobStarted args => exact .one (by simp) (by simp) (markJobStarted_edits h)
  | markJobCompleted args => exact .one (by simp) (by simp) (markJobCompleted_edits h)
  | completeRunnerCleanup args =>
    obtain ⟨r, hr⟩ := map_snd_ok.mp h
    exact .one (by simp) (by simp) (completeRunnerCleanup_edits hr)
  | tryAssign =>
    obtain ⟨n, hr⟩ := map_snd_ok.mp h
    exact .placed n rfl hr
  | claimAttempt token attemptId =>
    obtain ⟨r, hr⟩ := map_snd_ok.mp h
    exact .one (by simp) (by simp) (claimAttempt_edits hr)
  | markReady token attemptId =>
    obtain ⟨r, hr⟩ := map_snd_ok.mp h
    exact .one (by simp) (by simp) (markReady_edits hr)
  | reportAttempt args =>
    obtain ⟨r, hr⟩ := map_snd_ok.mp h
    exact .one (by simp) (by simp) (reportAttempt_edits hr)
  | createExperiment auth args =>
    obtain ⟨r, hr⟩ := map_snd_ok.mp h
    obtain ⟨e, he, rfl⟩ := createExperiment_cases hr
    exact .requested e (by simp) he
  | cancelExperiment auth k =>
    obtain ⟨r, hr⟩ := map_snd_ok.mp h
    rcases cancelExperiment_cases hr with rfl | ⟨e, he⟩
    · exact .unchanged (by simp) (by simp)
    · exact .experiment (by simp) he
  | claimExperiment token k =>
    obtain ⟨r, hr⟩ := map_snd_ok.mp h
    rcases claimExperiment_cases hr with rfl | ⟨e, he⟩
    · exact .unchanged (by simp) (by simp)
    · exact .experiment (by simp) he
  | markExperimentRunning token k =>
    obtain ⟨r, hr⟩ := map_snd_ok.mp h
    rcases markExperimentRunning_cases hr with rfl | ⟨e, he⟩
    · exact .unchanged (by simp) (by simp)
    · exact .experiment (by simp) he
  | reportExperiment token k exitCode =>
    obtain ⟨r, hr⟩ := map_snd_ok.mp h
    rcases reportExperiment_cases hr with rfl | ⟨e, he⟩
    · exact .unchanged (by simp) (by simp)
    · exact .experiment (by simp) he
  | reconcile =>
    obtain ⟨r, hr⟩ := map_snd_ok.mp h
    exact .reconciled r rfl hr

end EraInfra
