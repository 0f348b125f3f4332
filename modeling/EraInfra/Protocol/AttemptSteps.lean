import EraInfra.Protocol.AttemptRules

/-!
# The calls on one Attempt

What each controller and Worker call on a single Attempt commits, read off its definition once:
nothing that concerns placed work, or one edit by a rule of the life cycle.  The calls that go over
many Attempts, off-pin retirement and a returning Worker's heartbeat, make such edits one after
another (`retireOffPin`, `keepRunning`), each row at most once.
-/

namespace EraInfra

open DocStore List Option Table

variable {js : Engine} {now : ℤ} {db db' : Db} {i : DocId Attempt} {a : Attempt}

/-! ## Looking an Attempt up -/

variable {name reason : String}

lemma attemptByRunnerName_some (h : attemptByRunnerName name db = .ok (some (i, a))) :
    db.attempts.get i = some a ∧ a.runnerName = name := by
  obtain ⟨hget, hname, -⟩ := unique_some h
  exact ⟨hget, by simpa using hname⟩

/-! ## The retirement operations -/

section

variable (hfound : db.attempts.get i = some a)

include hfound

/-- `retireAttempt` on an Attempt with a Runner: begun now, or already under way. -/
lemma retireAttempt_cases {outcome : RetirementOutcome} {started : Bool}
    (h : retireAttempt now i a outcome reason db = .ok (started, db')) :
    runnerMayBeOnline a.state = true ∧ (db' = db ∨ a.retirement = none ∧
      Edits i a (retiringAttempt now outcome reason) false true db db') := by
  unfold retireAttempt at h
  split at h
  · cases h
  rename_i honline
  refine ⟨by simpa using honline, ?_⟩
  split at h
  · cases h
    exact .inl rfl
  rename_i hretiring
  obtain ⟨dropped, hdropped, h⟩ := bind_ok.mp h
  cases h
  exact .inr ⟨by simpa using hretiring, edits_drop hfound hdropped⟩

lemma finishRetirement_cases {unconfirmed : Bool}
    (h : finishRetirement now i a unconfirmed db = .ok db') :
    ∃ retirement, a.retirement = some retirement ∧
      Edits i a (retiredAttempt now retirement unconfirmed) true true db db' := by
  unfold finishRetirement at h
  split at h
  · cases h
  rename_i retirement hretirement
  obtain ⟨dropped, hdropped, h⟩ := bind_ok.mp h
  cases h
  exact ⟨retirement, hretirement, edits_release_drop hfound hdropped⟩

lemma cancelUnclaimedAttempt_cases (h : cancelUnclaimedAttempt now i a reason db = .ok db') :
    a.state = .pending ∧ Edits i a (cancelledAttempt now reason) true true db db' := by
  unfold cancelUnclaimedAttempt at h
  split at h
  · cases h
  rename_i hpending
  obtain ⟨dropped, hdropped, h⟩ := bind_ok.mp h
  cases h
  exact ⟨not_not.mp hpending, edits_release_drop hfound hdropped⟩

lemma keepForReturningWorker_cases : (keepForReturningWorker i a db = (false, db)) ∨
      (a.state = .running ∧ a.retirement.isSome = true ∧
        Edits i a keptAttempt false false db (keepForReturningWorker i a db).2) := by
  unfold keepForReturningWorker
  split
  · exact .inl rfl
  rename_i hrunning
  obtain ⟨hstate, hretirement⟩ := not_or.mp hrunning
  exact .inr ⟨not_not.mp hstate, isSome_iff_ne_none.mpr hretirement, edits_patch hfound⟩

end

/-! ## Controllers -/

lemma createAttempt_cases {args : CreateAttemptArgs} (h : createAttempt now args db = .ok db') :
    db' = db ∨ ((∀ j b, db.attempts.get j = some b → b.runnerName ≠ args.runnerName) ∧ db' = { db with
          attempts := db.attempts.insert (newAttempt now args)
          attemptSecrets := db.attemptSecrets.insert
            ⟨db.attempts.next, args.encodedJITConfig, now⟩ }) := by
  obtain ⟨-, -, h⟩ := bind_ok.mp h
  obtain ⟨profile, -, h⟩ := bind_ok.mp h
  rcases profile with _ | ⟨profileId, profile⟩
  · cases h
  dsimp only at h
  split at h
  · cases h
  obtain ⟨existing, hexisting, h⟩ := bind_ok.mp h
  rcases existing with _ | ⟨k, existing⟩
  · cases h
    exact .inr ⟨fun j b hb => by simpa using not_of_unique_none hexisting hb, rfl⟩
  dsimp only at h
  split at h
  · exact .inl (pure_ok.mp h).symm
  · cases h

lemma cancelAttempt_edits {args : CancelAttemptArgs} (h : cancelAttempt now args db = .ok db') :
    EditsOne ⟨now, .cancelAttempt args⟩ db db' := by
  obtain ⟨-, -, h⟩ := bind_ok.mp h
  obtain ⟨row, hrow, h⟩ := bind_ok.mp h
  rcases row with _ | ⟨i, a⟩
  · cases h
    exact .inl (.refl _)
  obtain ⟨hfound, -⟩ := attemptByRunnerName_some hrow
  dsimp only at h
  split at h
  · cases h
    exact .inl (.refl _)
  split at h
  · cases h
  rename_i hrunning
  obtain ⟨⟨outcome, ended⟩, hended, h⟩ := bind_ok.mp h
  cases h
  unfold endIdleAttempt at hended
  split at hended
  · obtain ⟨db₁, hcancelled, hended⟩ := bind_ok.mp hended
    cases hended
    obtain ⟨hpending, hedits⟩ := cancelUnclaimedAttempt_cases hfound hcancelled
    exact .inr ⟨i, a, _, true, true, hedits, .cancelled args rfl hpending⟩
  · obtain ⟨⟨started, db₁⟩, hretired, hended⟩ := bind_ok.mp hended
    cases hended
    obtain ⟨honline, rfl | ⟨hnone, hedits⟩⟩ := retireAttempt_cases hfound hretired
    · exact .inl (.refl _)
    · refine .inr ⟨i, a, _, false, true, hedits, .retired args.reason trivial ?_ hnone⟩
      simpa [runnerMayBeOnline, hrunning] using honline

lemma markJobStarted_edits {args : JobStartedArgs} (h : markJobStarted now args db = .ok db') :
    EditsOne ⟨now, .markJobStarted args⟩ db db' := by
  obtain ⟨-, -, h⟩ := bind_ok.mp h
  obtain ⟨row, hrow, h⟩ := bind_ok.mp h
  rcases row with _ | ⟨i, a⟩
  · cases h
  obtain ⟨hfound, hname⟩ := attemptByRunnerName_some hrow
  dsimp only at h
  split at h
  · cases h
  rename_i hprofile
  split at h
  · rename_i hterminal
    split at h
    · cases h
      exact .inr ⟨i, a, _, false, false, edits_patch hfound, .branched args rfl hterminal⟩
    · cases h
      exact .inl (.refl _)
  rename_i hterminal
  cases h
  exact .inr ⟨i, a, _, false, false, edits_patch hfound,
    .started args rfl hname (not_not.mp hprofile) (by simpa using hterminal)⟩

/-- A JobCompleted ends its Attempt, whatever its state; only an active one has a slot to give
back. -/
lemma markJobCompleted_edits {args : JobCompletedArgs} (h : markJobCompleted now args db = .ok db') :
    EditsOne ⟨now, .markJobCompleted args⟩ db db' := by
  obtain ⟨-, -, h⟩ := bind_ok.mp h
  obtain ⟨row, hrow, h⟩ := bind_ok.mp h
  rcases row with _ | ⟨i, a⟩
  · cases h
  obtain ⟨hfound, hname⟩ := attemptByRunnerName_some hrow
  dsimp only at h
  split at h
  · cases h
  rename_i hprofile
  obtain ⟨db₁, hdropped, h⟩ := bind_ok.mp h
  cases h
  have hrule : Rule ⟨now, .markJobCompleted args⟩ db i a (completedAttempt args)
      (!a.state.isTerminal) true := .completed args rfl hname (not_not.mp hprofile)
  refine .inr ⟨i, a, _, _, true, ?_, hrule⟩
  cases hterminal : a.state.isTerminal with
  | true =>
    rw [hterminal] at hdropped
    exact edits_drop hfound hdropped
  | false =>
    rw [hterminal] at hdropped
    exact edits_release_drop hfound hdropped

variable {r : Bool} {token : String}

lemma completeRunnerCleanup_edits {args : CleanupArgs}
    (h : completeRunnerCleanup now args db = .ok (r, db')) :
    EditsOne ⟨now, .completeRunnerCleanup args⟩ db db' := by
  obtain ⟨-, -, h⟩ := bind_ok.mp h
  obtain ⟨row, hrow, h⟩ := bind_ok.mp h
  rcases row with _ | ⟨i, a⟩
  · cases h
    exact .inl (.refl _)
  obtain ⟨hfound, hname⟩ := attemptByRunnerName_some hrow
  dsimp only at h
  split at h
  · cases h
    exact .inl (.refl _)
  rename_i hnamed
  obtain ⟨hprofile, hrunner⟩ := not_or.mp hnamed
  have hnames : args.names a := ⟨hname, not_not.mp hprofile, not_not.mp hrunner⟩
  split at h
  · cases h
    exact .inl (.refl _)
  rename_i hpending
  split at h
  · rename_i hretiring
    obtain ⟨db₁, hfinished, h⟩ := bind_ok.mp h
    cases h
    obtain ⟨retirement, hretirement, hedits⟩ := finishRetirement_cases hfound hfinished
    refine .inr ⟨i, a, _, true, true, hedits,
      .confirmed args retirement rfl hnames (not_not.mp hpending) hretirement ?_⟩
    simpa [isRetiring, hretirement] using hretiring
  · rename_i hretiring
    cases h
    exact .inr ⟨i, a, _, false, false, edits_patch hfound,
      .acknowledged args rfl hnames (not_not.mp hpending) (by simpa using hretiring)⟩

/-! ## Workers -/

/-- **What `claimAttempt` does.**  It hands out nothing and changes nothing, or it hands a pending
Attempt's JIT config to the Worker it is placed on and drops it. -/
theorem claimAttempt_cases {r : Option ClaimedAttempt}
    (h : claimAttempt now token i db = .ok (r, db')) :
    (r = none ∧ db' = db) ∨ ∃ a claimed, r = some claimed ∧ PlacedOn token a db ∧ a.state = .pending ∧
        (claimed.jitConfig ∈ secretsOf i db.attemptSecrets ∨ a.jitConfig = some claimed.jitConfig) ∧
        Edits i a (claimedAttempt now) false true db db' := by
  obtain ⟨⟨machineId, machine⟩, hmachine, h⟩ := bind_ok.mp h
  dsimp only at h
  split at h
  · cases h
    exact .inl ⟨rfl, rfl⟩
  rename_i a hfound
  split at h
  · cases h
    exact .inl ⟨rfl, rfl⟩
  rename_i hguard
  obtain ⟨hplaced, hpending⟩ := not_or.mp hguard
  obtain ⟨secret, hsecret, h⟩ := bind_ok.mp h
  split at h
  · cases h
    exact .inl ⟨rfl, rfl⟩
  rename_i jitConfig hjit
  obtain ⟨egress, -, h⟩ := bind_ok.mp h
  cases h
  refine .inr ⟨a, _, rfl, ⟨machineId, machine, hmachine, not_not.mp hplaced⟩, not_not.mp hpending, ?_⟩
  rcases secret with _ | ⟨k, secret⟩
  · refine ⟨.inr (by simpa using hjit), hfound, rfl, fun j => ?_, rfl, rfl, rfl, rfl, rfl, rfl, rfl⟩
    show secretsOf j db.attemptSecrets = _
    split
    · rename_i hj
      rw [hj.2, secretsOf, unique_none hsecret, map_nil]
    · rfl
  · obtain ⟨hk, hi, hone⟩ := unique_some hsecret
    have hi : secret.attemptId = i := by simpa using hi
    refine ⟨.inl (mem_map.mpr ⟨(k, secret), mem_collect.mpr ⟨hk, by simpa using hi⟩,
      by simpa using hjit⟩), hfound, rfl, fun j => ?_, rfl, rfl, rfl, rfl, rfl, rfl, rfl⟩
    simpa [Db.patchAttempt] using
      secretsOf_delete hk hi (fun k' s hs hsi => hone k' s hs (by simpa using hsi)) j

lemma claimAttempt_edits {r : Option ClaimedAttempt} (h : claimAttempt now token i db = .ok (r, db')) :
    EditsOne ⟨now, .claimAttempt token i⟩ db db' := by
  rcases claimAttempt_cases h with ⟨-, rfl⟩ | ⟨a, -, -, hplaced, hpending, -, hedits⟩
  · exact .inl (.refl _)
  · exact .inr ⟨i, a, _, false, true, hedits, .claimed token rfl hplaced hpending⟩

lemma markReady_edits (h : markReady now token i db = .ok (r, db')) :
    EditsOne ⟨now, .markReady token i⟩ db db' := by
  obtain ⟨⟨machineId, machine⟩, hmachine, h⟩ := bind_ok.mp h
  dsimp only at h
  split at h
  · cases h
    exact .inl (.refl _)
  rename_i a hfound
  split at h
  · cases h
    exact .inl (.refl _)
  rename_i hguard
  obtain ⟨hplaced, hpreparing⟩ := not_or.mp hguard
  cases h
  exact .inr ⟨i, a, _, false, false, edits_patch hfound,
    .readied token rfl ⟨machineId, machine, hmachine, not_not.mp hplaced⟩ (not_not.mp hpreparing)⟩

lemma recordEgress_spec {machineId : DocId Machine} {profile : String} {egress : Option EgressRecord}
    (h : recordEgress now i machineId profile egress db = .ok db') :
    ∃ records, db' = { db with attemptEgress := records } := by
  unfold recordEgress at h
  split at h
  · exact ⟨_, (pure_ok.mp h).symm⟩
  · obtain ⟨existing, -, h⟩ := bind_ok.mp h
    exact ⟨_, (pure_ok.mp h).symm⟩

/-- An edit does not look at the egress records. -/
lemma Edits.of_egress {f : Attempt → Attempt} {released dropped : Bool} {r : Table AttemptEgress}
    (h : Edits i a f released dropped { db with attemptEgress := r } db') :
    Edits i a f released dropped db db' := by
  have hrelease : releaseAttemptSlot a { db with attemptEgress := r }
      = { releaseAttemptSlot a db with attemptEgress := r } := by
    unfold releaseAttemptSlot releaseMachineSlot
    split
    · rfl
    dsimp only
    split
    · rfl
    · rfl
  have hm := h.machines
  have hl := h.slotReleases
  rw [hrelease] at hm hl
  exact ⟨h.found, h.attempts, h.secrets, hm, hl, h.experiments, h.jobs, h.commands, h.profiles,
    h.controllerHeartbeats⟩

lemma isTerminal_iff {s : AttemptState} :
    s.isTerminal = true ↔ s = .completed ∨ s = .cancelled ∨ s = .failed := by
  cases s <;> simp [AttemptState.isTerminal]

lemma reportAttempt_edits {args : ReportAttemptArgs} (h : reportAttempt now args db = .ok (r, db')) :
    EditsOne ⟨now, .reportAttempt args⟩ db db' := by
  obtain ⟨-, -, h⟩ := bind_ok.mp h
  obtain ⟨⟨machineId, machine⟩, hmachine, h⟩ := bind_ok.mp h
  dsimp only at h
  split at h
  · cases h
    exact .inl (.refl _)
  rename_i a hfound
  split at h
  · cases h
    exact .inl (.refl _)
  rename_i hplaced
  have hplaced : PlacedOn args.token a db := ⟨machineId, machine, hmachine, not_not.mp hplaced⟩
  obtain ⟨recorded, hrecorded, h⟩ := bind_ok.mp h
  obtain ⟨records, rfl⟩ := recordEgress_spec hrecorded
  split at h
  · rename_i hterminal
    obtain ⟨db₁, hdropped, h⟩ := bind_ok.mp h
    cases h
    have hedits f : Edits args.attemptId a f false true db (db₁.patchAttempt args.attemptId f) :=
      Edits.of_egress (r := records) (edits_drop hfound hdropped)
    exact .inr ⟨_, a, _, false, true, hedits _,
      .reportedAgain args rfl rfl hplaced (isTerminal_iff.mpr hterminal)⟩
  rename_i hterminal
  have hactive : a.state.isTerminal = false := by
    rw [← Bool.not_eq_true, isTerminal_iff]
    exact hterminal
  obtain ⟨db₁, hdropped, h⟩ := bind_ok.mp h
  have hedits f : Edits args.attemptId a f true true db (db₁.patchAttempt args.attemptId f) :=
    Edits.of_egress (r := records) (edits_release_drop hfound hdropped)
  split at h
  · rename_i retirement hretirement
    split at h
    · rename_i hrunning
      cases h
      exact .inr ⟨_, a, _, true, true, hedits _,
        .exitedRetiring args retirement rfl rfl hplaced hactive hrunning hretirement⟩
    · rename_i hrunning
      cases h
      exact .inr ⟨_, a, _, true, true, hedits _,
        .exited args rfl rfl hplaced hactive (.inr (not_not.mp hrunning))⟩
  · rename_i hretirement
    cases h
    exact .inr ⟨_, a, _, true, true, hedits _, .exited args rfl rfl hplaced hactive (.inl hretirement)⟩

/-! ## Off-pin retirement -/

/-- One Attempt of an off-pin pass: it stays, goes back to the queue, or begins to retire.  Its
state does not change. -/
lemma retireIfOffPin_cases {c : Call} {db₀ : Db} {profile : Option Profile}
    {machine : Option Machine} {tally tally' : PinRetirement} (hpins : c.op.changesPins)
    (hfound : db.attempts.get i = some a) (hidle : a.state ∈ idleStates)
    (hplaced : a.machineId.isSome)
    (h : retireIfOffPin js c.now i a profile machine tally db = .ok (tally', db')) :
    db' = db ∨ ∃ f released dropped, Edits i a f released dropped db db' ∧
      Rule c db₀ i a f released dropped ∧ (f a).state = a.state := by
  unfold retireIfOffPin at h
  split at h
  · dsimp only at h
    split at h
    · cases h
      exact .inl rfl
    split at h
    · rename_i hpending
      cases h
      exact .inr ⟨_, true, false, edits_release hfound, .requeued hpins hpending hplaced, rfl⟩
    rename_i hpending
    obtain ⟨⟨started, retired⟩, hretired, h⟩ := bind_ok.mp h
    cases h
    obtain ⟨-, rfl | ⟨hnone, hedits⟩⟩ := retireAttempt_cases hfound hretired
    · exact .inl rfl
    · refine .inr ⟨_, false, true, hedits, .retired _ ?_ ?_ hnone, rfl⟩
      · cases hop : c.op <;> simp_all [Op.retiresIdle]
      · simpa [idleStates, hpending] using hidle
  · cases h
    exact .inl rfl

section OffPin

variable {c : Call} {db₀ : Db} {Inv : Db → Prop} {s s' : PinRetirement × Db}

/-- The two nested loops of an off-pin pass.  The rows of a state are read again when its turn
comes; since no row changes state, none comes up twice. -/
lemma retireOffPin_loop {p : Attempt → Bool}
    {body : PinRetirement × Db → DocId Attempt × Attempt → Result (PinRetirement × Db)}
    (hbody : ∀ s r s', s.2.attempts.get r.1 = some r.2 → p r.2 = true → r.2.state ∈ idleStates →
      body s r = .ok s' → s'.2 = s.2 ∨ ∃ f released dropped,
        Edits r.1 r.2 f released dropped s.2 s'.2 ∧ Rule c db₀ r.1 r.2 f released dropped ∧
          (f r.2).state = r.2.state)
    (hinv : ∀ i a f released dropped db db', Edits i a f released dropped db db' →
      Rule c db₀ i a f released dropped → Inv db → Inv db')
    (h0 : Inv s.2)
    (h : idleStates.foldlM (fun s state =>
      (s.2.attempts.collect fun attempt => p attempt && attempt.state = state).foldlM body s) s
        = .ok s') :
    Inv s'.2 ∧ ∀ j, Change c db₀ j (s.2.viewAttempt j) (s'.2.viewAttempt j) := by
  let stateOf (v : AttemptView) : Option AttemptState := v.row.map Attempt.state
  let Keeps (t : PinRetirement × Db) : Prop :=
    Inv t.2 ∧ ∀ j, stateOf (t.2.viewAttempt j) = stateOf (s.2.viewAttempt j)
  have key := foldlM_each (fun j t => t.2.viewAttempt j)
    (fun state j => stateOf (s.2.viewAttempt j) = some state) Keeps (Change c db₀)
    ?_ ?_ ⟨h0, fun _ => rfl⟩ h
  · refine ⟨key.1.1, fun j => ?_⟩
    rcases key.2 j with hj | ⟨-, hj⟩
    · exact .of_view_eq hj
    · exact hj
  · refine List.Nodup.pairwise_of_forall_ne (by decide) fun st _ st' _ hne j hj hj' => ?_
    exact hne (some.inj (hj.symm.trans hj'))
  · intro state hstate t t' ⟨hinvt, hstates⟩ _ ht
    have inner := foldlM_each (fun j t => t.2.viewAttempt j) (fun r j => j = r.1) Keeps
      (Change c db₀) ?_ ?_ ⟨hinvt, hstates⟩ ht
    · refine ⟨inner.1, fun j => ?_⟩
      rcases inner.2 j with hj | ⟨⟨r, hr, rfl⟩, hj⟩
      · exact .inl hj
      refine .inr ⟨?_, hj⟩
      obtain ⟨hget, hp⟩ := mem_collect.mp hr
      rw [← hstates, Db.viewAttempt, hget]
      simp only [Bool.and_eq_true, decide_eq_true_eq] at hp
      exact congrArg some hp.2
    · exact collect_nodup.imp fun hne k hk hk' => hne (hk.symm.trans hk')
    · rintro ⟨i, a⟩ hr u u' ⟨hinvu, hstatesu⟩ hown hu
      obtain ⟨hget, hp⟩ := mem_collect.mp hr
      simp only [Bool.and_eq_true, decide_eq_true_eq] at hp
      have hfound : u.2.attempts.get i = some a := by
        have := congrArg AttemptView.row (hown i rfl)
        exact this.trans hget
      rcases hbody u (i, a) u' hfound hp.1 (hp.2 ▸ hstate) hu with
        hsame | ⟨f, released, dropped, hedits, hrule, hkeeps⟩
      · refine ⟨⟨hsame ▸ hinvu, fun j => ?_⟩, fun j => .inl (by rw [hsame])⟩
        rw [hsame]
        exact hstatesu j
      refine ⟨⟨hinv _ _ _ _ _ _ _ hedits hrule hinvu, fun j => ?_⟩, fun j => ?_⟩
      · by_cases hj : j = i
        · subst hj
          rw [← hstatesu, hedits.view_self, hedits.view_eq]
          exact congrArg some hkeeps
        · rw [hedits.view_ne hj]
          exact hstatesu j
      · by_cases hj : j = i
        · exact .inr ⟨hj, hedits.change hrule j⟩
        · exact .inl (hedits.view_ne hj)

variable {tally : PinRetirement}
  (hinv : ∀ i a f released dropped db db', Edits i a f released dropped db db' →
    Rule c db₀ i a f released dropped → Inv db → Inv db')
include hinv

lemma retireOffPinForProfile_change {profile : Profile} (hpins : c.op.changesPins) (h0 : Inv db)
    (h : retireOffPinForProfile js c.now profile db = .ok (tally, db')) :
    Inv db' ∧ ∀ j, Change c db₀ j (db.viewAttempt j) (db'.viewAttempt j) := by
  unfold retireOffPinForProfile at h
  split at h
  · cases h
    exact ⟨h0, fun j => .same _⟩
  refine retireOffPin_loop (s := (⟨0, 0⟩, db)) ?_ hinv h0 h
  intro s r s' hfound _ hidle hbody
  split at hbody
  · rw [pure_ok.mp hbody]
    exact .inl rfl
  · rename_i machineId hmachine
    exact retireIfOffPin_cases hpins hfound hidle (by simp [hmachine]) hbody

/-! ## A returning Worker -/

lemma keepRunning_change (machineId : DocId Machine) {token : String}
    (hop : c.op = .heartbeat token) (h0 : Inv db) :
    Inv (keepRunningAttemptsOfReturningWorker machineId db).2 ∧ ∀ j, Change c db₀ j (db.viewAttempt j)
        ((keepRunningAttemptsOfReturningWorker machineId db).2.viewAttempt j) := by
  have key := foldlM_each (fun j s => s.2.viewAttempt j) (fun r j => j = r.1)
    (fun s => Inv s.2) (Change c db₀)
    (collect_nodup (t := db.attempts)
      (p := fun attempt => attempt.machineId = some machineId && attempt.state = .running)
      |>.imp fun hne k hk hk' => hne (hk.symm.trans hk')) ?_ h0
    (foldlM_ok (fun s r => (if (keepForReturningWorker r.1 r.2 s.2).1 then s.1 + 1 else s.1,
      (keepForReturningWorker r.1 r.2 s.2).2)) (0, db))
  · refine ⟨key.1, fun j => ?_⟩
    rcases key.2 j with hj | ⟨-, hj⟩
    · exact .of_view_eq hj
    · exact hj
  · rintro ⟨i, a⟩ hr s _ hinvs hown ⟨⟩
    obtain ⟨hget, -⟩ := mem_collect.mp hr
    have hfound : s.2.attempts.get i = some a := (congrArg AttemptView.row (hown i rfl)).trans hget
    rcases keepForReturningWorker_cases hfound with hsame | ⟨hrunning, hretiring, hedits⟩
    · rw [hsame]
      exact ⟨hinvs, fun j => .inl rfl⟩
    have hrule : Rule c db₀ i a keptAttempt false false := .kept (.inr ⟨token, hop⟩) hrunning hretiring
    refine ⟨hinv _ _ _ _ _ _ _ hedits hrule hinvs, fun j => ?_⟩
    by_cases hj : j = i
    · exact .inr ⟨hj, hedits.change hrule j⟩
    · exact .inl (hedits.view_ne hj)

end OffPin

end EraInfra
