import EraInfra.Protocol.AttemptSteps

/-!
# The calls that concern no single Attempt

Leases, Profiles, reports, Workers and Experiments: what each call commits, for the tables that
placed work lives in.  A call on one Experiment keeps it on its Worker, or ends it and gives its
slot back (`EditsExperiment`).
-/

namespace EraInfra

open DocStore

variable {js : Engine} {now : ℤ} {db db' : Db}

/-! ## Leases, Profiles and reports -/

lemma untouched_withLeases (leases : Table ControllerLease) : Untouched db (db.withLeases leases) :=
  ⟨rfl, rfl, rfl, rfl, rfl, rfl, rfl⟩

lemma acquire_untouched {args : AcquireArgs} {r : AcquireResult}
    (h : acquire now args db = .ok (r, db')) : Untouched db db' := by
  rcases acquire_cases h with ⟨-, rfl⟩ | ⟨-, -, rfl⟩ | ⟨who, own, lease, -, -, -, -, -, rfl⟩
  · exact .refl _
  · exact untouched_withLeases _
  · unfold writeGrant
    split
    · exact untouched_withLeases _
    · exact untouched_withLeases _

variable {args : LeaseArgs} {caller : Option ControllerCaller} {auth : Result String}

lemma renew_untouched {r : RenewResult} (h : renew now args db = .ok (r, db')) : Untouched db db' := by
  obtain ⟨who, leaseId, lease, holder, -, -, -, -, -, -, -, rfl⟩ := renew_cases h
  exact untouched_withLeases _

lemma release_untouched (h : release now args db = .ok db') : Untouched db db' := by
  rcases release_cases h with ⟨rfl, -⟩ | ⟨leaseId, lease, -, -, rfl⟩
  · exact .refl _
  · exact untouched_withLeases _

lemma recordHeartbeat_untouched {report : HeartbeatReport}
    (h : recordHeartbeat now report caller db = .ok db') : Untouched db db' := by
  obtain ⟨-, -, h⟩ := bind_ok.mp h
  obtain ⟨machine, -, h⟩ := bind_ok.mp h
  obtain ⟨known, -, h⟩ := bind_ok.mp h
  cases h
  exact ⟨rfl, rfl, rfl, rfl, rfl, rfl, rfl⟩

variable {r : Bool} {token : String} {i : DocId Experiment}

lemma pauseProfile_untouched {name : String}
    (h : pauseProfile now name caller db = .ok (r, db')) : Untouched db db' := by
  obtain ⟨-, -, h⟩ := bind_ok.mp h
  obtain ⟨-, -, h⟩ := bind_ok.mp h
  obtain ⟨row, -, h⟩ := bind_ok.mp h
  rcases row with _ | ⟨profileId, profile⟩
  · cases h
    exact .refl _
  dsimp only at h
  split at h
  · cases h
    exact ⟨rfl, rfl, rfl, rfl, rfl, rfl, rfl⟩
  · cases h
    exact .refl _

lemma issueRegistrationToken_untouched
    (h : issueRegistrationToken now token db = .ok db') : Untouched db db' := by
  obtain ⟨row, -, h⟩ := bind_ok.mp h
  rcases row with _ | row
  · cases h
    exact ⟨rfl, rfl, rfl, rfl, rfl, rfl, rfl⟩
  · cases h

/-! ## Workers -/

/-- A Worker joins with no slot in use. -/
lemma registerAgent_cases {args : RegisterAgentArgs} {r : RegisterAgentResult}
    (h : registerAgent js now args db = .ok (r, db')) :
    db' = db ∨ ∃ tokens machine, machine.usedSlots = 0 ∧
      db' = { db with registrationTokens := tokens, machines := db.machines.insert machine } := by
  obtain ⟨row, -, h⟩ := bind_ok.mp h
  rcases row with _ | ⟨registrationId, registration⟩
  · cases h
    exact .inl rfl
  dsimp only at h
  split at h
  · cases h
    exact .inl rfl
  split at h
  · cases h
    exact .inl rfl
  split at h
  · cases h
    exact .inl rfl
  obtain ⟨taken, -, h⟩ := bind_ok.mp h
  rcases taken with _ | taken
  · cases h
    exact .inr ⟨_, _, rfl, rfl⟩
  · cases h

/-! ## Experiments -/

/-- A call on one Experiment: the row `e` of an active one is rewritten by `f`, and it either ends,
with its slot given back, or stays active on its Worker. -/
structure EditsExperiment (i : DocId Experiment) (e : Experiment) (f : Experiment → Experiment)
    (released : Bool) (db db' : Db) : Prop where
  found : db.experiments.get i = some e
  active : e.state.isTerminal = false
  ends : (f e).state.isTerminal = released
  stays : released = false → (f e).machineId = e.machineId
  eq : db' = (if released then releaseMachineSlot e.machineId db else db).patchExperiment i f

lemma createExperiment_cases {args : CreateExperimentArgs}
    {k : DocId Experiment} (h : createExperiment now auth args db = .ok (k, db')) :
    ∃ e : Experiment, e.machineId = none ∧
      db' = { db with experiments := db.experiments.insert e } := by
  obtain ⟨subject, -, h⟩ := bind_ok.mp h
  dsimp only at h
  split at h
  · cases h
  obtain ⟨-, -, h⟩ := bind_ok.mp h
  split at h
  · cases h
  obtain ⟨row, -, h⟩ := bind_ok.mp h
  rcases row with _ | ⟨profileId, profile⟩
  · cases h
  dsimp only at h
  split at h
  · cases h
  split at h
  · cases h
  cases h
  exact ⟨_, rfl, rfl⟩

lemma cancelExperiment_cases (h : cancelExperiment now auth i db = .ok (r, db')) :
    db' = db ∨ ∃ e, EditsExperiment i e (cancelledExperiment now) true db db' := by
  obtain ⟨-, -, h⟩ := bind_ok.mp h
  split at h
  · cases h
    exact .inl rfl
  rename_i e hfound
  split at h
  · cases h
    exact .inl rfl
  rename_i hactive
  cases h
  exact .inr ⟨e, hfound, by simpa using hactive, rfl, by simp, rfl⟩

lemma claimExperiment_cases
    {r : Option ClaimedExperiment} (h : claimExperiment now token i db = .ok (r, db')) :
    db' = db ∨ ∃ e, EditsExperiment i e (claimedExperiment now) false db db' := by
  obtain ⟨⟨machineId, machine⟩, -, h⟩ := bind_ok.mp h
  dsimp only at h
  split at h
  · cases h
    exact .inl rfl
  rename_i e hfound
  split at h
  · cases h
    exact .inl rfl
  rename_i hguard
  obtain ⟨egress, -, h⟩ := bind_ok.mp h
  cases h
  have hqueued : e.state = .queued := not_not.mp (not_or.mp hguard).2
  exact .inr ⟨e, hfound, by rw [hqueued]; rfl, rfl, fun _ => rfl, rfl⟩

lemma markExperimentRunning_cases (h : markExperimentRunning now token i db = .ok (r, db')) :
    db' = db ∨ ∃ e, EditsExperiment i e (runningExperiment now) false db db' := by
  obtain ⟨⟨machineId, machine⟩, -, h⟩ := bind_ok.mp h
  dsimp only at h
  split at h
  · cases h
    exact .inl rfl
  rename_i e hfound
  split at h
  · cases h
    exact .inl rfl
  rename_i hguard
  cases h
  have hpreparing : e.state = .preparing := not_not.mp (not_or.mp hguard).2
  exact .inr ⟨e, hfound, by rw [hpreparing]; rfl, rfl, fun _ => rfl, rfl⟩

lemma reportExperiment_cases {exitCode : ℚ}
    (h : reportExperiment now token i exitCode db = .ok (r, db')) :
    db' = db ∨ ∃ e, EditsExperiment i e (exitedExperiment now exitCode) true db db' := by
  unfold reportExperiment at h
  dsimp only at h
  split at h
  · cases h
  obtain ⟨⟨machineId, machine⟩, -, h⟩ := bind_ok.mp h
  split at h
  · cases h
    exact .inl rfl
  rename_i e hfound
  split at h
  · cases h
    exact .inl rfl
  split at h
  · cases h
    exact .inl rfl
  rename_i hactive
  cases h
  refine .inr ⟨e, hfound, by simpa using hactive, ?_, by simp, rfl⟩
  unfold exitedExperiment
  split
  · rfl
  · rfl

/-! ## Calls that may move many Attempts

Each is an edit of a Worker or a Profile and a pass over Attempts; `Inv` is any invariant of both. -/

section Passes

variable (Inv : Db → Prop)

lemma setLabels_change {name : String} {labels : List String} {r : SetLabelsResult}
    (hinv : ∀ i a f released dropped db₁ db₂, Edits i a f released dropped db₁ db₂ →
      Rule ⟨now, .setLabels name labels⟩ db i a f released dropped → Inv db₁ → Inv db₂)
    (hmachine : ∀ machineId labels,
      Inv (db.patchMachine machineId fun stored => { stored with labels := labels }))
    (h0 : Inv db) (h : setLabels js now name labels db = .ok (r, db')) :
    Inv db' ∧ ∀ j,
      Change ⟨now, .setLabels name labels⟩ db j (db.viewAttempt j) (db'.viewAttempt j) := by
  unfold setLabels at h
  split at h
  · cases h
    exact ⟨h0, fun j => .same _⟩
  obtain ⟨row, -, h⟩ := bind_ok.mp h
  rcases row with _ | ⟨machineId, machine⟩
  · cases h
    exact ⟨h0, fun j => .same _⟩
  obtain ⟨⟨tally, db₁⟩, hretired, h⟩ := bind_ok.mp h
  cases h
  refine retireOffPin_loop (c := ⟨now, .setLabels name labels⟩) (s := (⟨0, 0⟩, _)) ?_ hinv
    (hmachine machineId _) hretired
  intro s r s' hfound hplaced hidle hbody
  obtain ⟨profile, -, hbody⟩ := bind_ok.mp hbody
  have hplaced : r.2.machineId = some machineId := by simpa using hplaced
  exact retireIfOffPin_cases trivial hfound hidle (by simp [hplaced]) hbody

lemma registerProfile_change {args : RegisterProfileArgs} {r : RegisterResult}
    (hinv : ∀ i a f released dropped db₁ db₂, Edits i a f released dropped db₁ db₂ →
      Rule ⟨now, .registerProfile args⟩ db i a f released dropped → Inv db₁ → Inv db₂)
    (hprofiles : ∀ profiles, Inv { db with profiles := profiles })
    (h : registerProfile js now args db = .ok (r, db')) :
    Inv db' ∧ ∀ j, Change ⟨now, .registerProfile args⟩ db j (db.viewAttempt j) (db'.viewAttempt j) := by
  obtain ⟨-, -, h⟩ := bind_ok.mp h
  obtain ⟨-, -, h⟩ := bind_ok.mp h
  obtain ⟨existing, -, h⟩ := bind_ok.mp h
  dsimp only at h
  split at h
  · cases h
    exact ⟨hprofiles db.profiles, fun j => .same _⟩
  have hstores : ∃ profiles, storeProfile existing
      (registeredProfile now args (existing.map Prod.snd)) db = { db with profiles := profiles } := by
    cases existing with
    | none | some row => exact ⟨_, rfl⟩
  obtain ⟨profiles, hstored⟩ := hstores
  rw [hstored] at h
  split at h
  · obtain ⟨⟨tally, db₁⟩, hretired, h⟩ := bind_ok.mp h
    cases h
    have hpass := retireOffPinForProfile_change hinv trivial (hprofiles profiles) hretired
    exact hpass
  · cases h
    exact ⟨hprofiles profiles, fun j => .same _⟩

lemma heartbeat_change {token : String} {r : Os × ℕ}
    (hinv : ∀ i a f released dropped db₁ db₂, Edits i a f released dropped db₁ db₂ →
      Rule ⟨now, .heartbeat token⟩ db i a f released dropped → Inv db₁ → Inv db₂)
    (hmachine : ∀ db₁ machineId, Inv db₁ →
      Inv (db₁.patchMachine machineId fun stored => { stored with lastSeen := now }))
    (h0 : Inv db) (h : heartbeat now token db = .ok (r, db')) :
    Inv db' ∧ ∀ j, Change ⟨now, .heartbeat token⟩ db j (db.viewAttempt j) (db'.viewAttempt j) := by
  obtain ⟨⟨machineId, machine⟩, -, h⟩ := bind_ok.mp h
  cases h
  have hkept := keepRunning_change hinv machineId rfl h0
  split
  · exact ⟨hmachine _ machineId h0, fun j => .same _⟩
  · exact ⟨hmachine _ machineId hkept.1, hkept.2⟩

end Passes

end EraInfra
