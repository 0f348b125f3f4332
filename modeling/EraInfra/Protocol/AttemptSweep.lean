import EraInfra.Protocol.AttemptSteps

/-!
# What a pass of the reconciler does

The pass is taken apart loop by loop: the jobs, the Attempts, the Experiments, the deletes and the
slot repair (`reconcile_stages`).  Jobs, Experiments, deletes of other tables and the repair leave
Attempts alone; the Attempt loop edits each row at most once, by a rule; and the only rows deleted
are terminal ones that owe GitHub nothing (`reconcile_change`).
-/

namespace EraInfra

open DocStore List Option Table Db

variable {now : ℤ} {db db' db₀ : Db} {i j : DocId Attempt} {a : Attempt}

/-! ## Stages -/

variable {r : ReconcileResult} {m : DocId Machine}

lemma reconcile_stages (h : Reconcile.run now db = .ok (r, db')) :
    ∃ swept purged, (activeAttempts db).foldlM (sweepAttempt (sweepContext now db))
        (sweepJobs (sweepContext now db) db (initialSweep db)) = .ok swept ∧
      purge now ((activeExperiments db).foldl (sweepExperiment (sweepContext now db)) swept).db
        = .ok purged ∧
      db' = (retryStalledDeliveries now ((loadMachines db).foldl (repairSlot (occupiedSlots purged))
          ({ (activeExperiments db).foldl (sweepExperiment (sweepContext now db)) swept with
            db := purged }, 0)).1.db).db := by
  obtain ⟨recovered, hrecovered, h⟩ := bind_ok.mp h
  obtain ⟨swept, hswept, hrecovered⟩ := bind_ok.mp hrecovered
  cases hrecovered
  obtain ⟨purged, hpurged, h⟩ := bind_ok.mp h
  cases h
  exact ⟨swept, purged, hswept, hpurged, rfl⟩

/-! ## What job handling leaves alone -/

/-- The tables no job ever touches. -/
def Db.attemptSide (db : Db) :
    Table Attempt × Table AttemptSecret × Table Experiment × Table ControllerHeartbeat ×
      List SlotRelease :=
  (db.attempts, db.attemptSecrets, db.experiments, db.controllerHeartbeats, db.slotReleases)

lemma viewAttempt_of_attemptSide (h : db'.attemptSide = db.attemptSide) :
    db'.viewAttempt j = db.viewAttempt j := by
  have hattempts : db'.attempts = db.attempts := congrArg Prod.fst h
  have hsecrets : db'.attemptSecrets = db.attemptSecrets := congrArg (fun p => p.2.1) h
  rw [viewAttempt, hattempts, hsecrets, viewAttempt]

@[simp] lemma attemptSide_patchJob (k : DocId Job) (f : Job → Job) :
    (db.patchJob k f).attemptSide = db.attemptSide := rfl

@[simp] lemma attemptSide_settleFailedJob (k : DocId Job) (job : Job) (error : String)
    (failedOn : Option (DocId Machine)) :
    (settleFailedJob now k job error failedOn db).attemptSide = db.attemptSide := by
  unfold settleFailedJob
  split <;> rfl

section

variable (ctx : SweepContext) (s : Sweep) (r : DocId Job × Job)

lemma attemptSide_sweepAssignedJob : (sweepAssignedJob ctx s r).db.attemptSide = s.db.attemptSide := by
  unfold sweepAssignedJob
  dsimp only
  split
  · rfl
  split
  all_goals
    simp [view_releaseSlot attemptSide fun _ _ => rfl, view_discardCommands attemptSide fun _ _ _ => rfl]

lemma attemptSide_sweepRunningJob : (sweepRunningJob ctx s r).db.attemptSide = s.db.attemptSide := by
  unfold sweepRunningJob
  dsimp only
  split
  · rfl
  · rw [view_releaseSlot attemptSide fun _ _ => rfl, view_abandonCommands attemptSide fun _ _ _ => rfl,
      attemptSide_patchJob]

lemma attemptSide_sweepQueuedJob : (sweepQueuedJob ctx s r).db.attemptSide = s.db.attemptSide := by
  unfold sweepQueuedJob
  split
  · rfl
  · rfl

end

lemma attemptSide_sweepJobs (ctx : SweepContext) (loaded : Db) (s : Sweep) :
    (sweepJobs ctx loaded s).db.attemptSide = s.db.attemptSide := by
  unfold sweepJobs
  rw [foldl_frame (fun s : Sweep => s.db.attemptSide) (attemptSide_sweepQueuedJob ctx),
    foldl_frame (fun s : Sweep => s.db.attemptSide) (attemptSide_sweepRunningJob ctx),
    foldl_frame (fun s : Sweep => s.db.attemptSide) (attemptSide_sweepAssignedJob ctx)]

/-! ## One Attempt -/

lemma mem_activeAttemptStates {s : AttemptState} : s ∈ activeAttemptStates ↔ s.isTerminal = false := by
  cases s <;> decide

lemma loadMachines_find {machine : Machine}
    (h : (loadMachines db).find m = some machine) : db.machines.get m = some machine := by
  rcases mem_append.mp (OrderedMap.find_ofList h) with hmem | hmem
  · obtain ⟨m', -, hm'⟩ := mem_filterMap.mp hmem
    obtain ⟨machine', hget, heq⟩ := map_eq_some_iff.mp hm'
    cases heq
    exact hget
  · exact (mem_collect.mp hmem).1

/-- A Worker that some loaded work names is loaded, if it exists. -/
lemma loadMachines_of_referenced (h : m ∈ referencedMachineIds db) :
    (loadMachines db).find m = db.machines.get m := by
  cases hget : db.machines.get m with
  | none =>
    cases hfind : (loadMachines db).find m with
    | none => rfl
    | some machine =>
      rw [loadMachines_find hfind] at hget
      simp at hget
  | some machine =>
    have hmem : (m, machine) ∈ (referencedMachineIds db).dedup.filterMap fun machineId =>
        (db.machines.get machineId).map fun machine => (machineId, machine) :=
      mem_filterMap.mpr ⟨m, mem_dedup.mpr h, by rw [hget, map_some]⟩
    obtain ⟨machine', hfind⟩ := OrderedMap.find_ofList_isSome (mem_append_left
      (db.machines.collect fun machine => machine.usedSlots > 0) hmem)
    have hloaded : (loadMachines db).find m = some machine' := hfind
    rw [hloaded, ← hget, loadMachines_find hloaded]

lemma loadMachines_of_attempt (hfound : db.attempts.get i = some a)
    (hactive : a.state.isTerminal = false) (hm : a.machineId = some m) :
    (loadMachines db).find m = db.machines.get m := by
  refine loadMachines_of_referenced (mem_append_left _ (mem_append_right _ ?_))
  exact mem_filterMap.mpr ⟨(i, a), mem_collectBy.mpr ⟨hfound, mem_activeAttemptStates.mpr hactive⟩, hm⟩

/-- What an edit of the Attempt loop leaves: the row is still active, or its Runner is still to be
deleted.  In either case the pass does not delete it. -/
def Kept (a : Attempt) : Prop := a.state.isTerminal = false ∨ a.runnerCleanupPending = some true

/-- The local copy of a Worker's slots after an edit that gave one back. -/
def recounted (ctx : SweepContext) (a : Attempt) (db : Db)
    (slots : OrderedMap (DocId Machine) ℤ) : OrderedMap (DocId Machine) ℤ :=
  match a.machineId with
  | none => slots
  | some m =>
    match ctx.machinesById.find m, db.machines.get m with
    | some _, some current => slots.set m current.usedSlots
    | _, _ => slots

/-- **One Attempt of the loop.**  It stays as it is, or its row is edited once by a rule. -/
theorem sweepAttempt_cases {s s' : Sweep} (hfound : s.db.attempts.get i = some a)
    (hactive : a.state.isTerminal = false)
    (hbeats : s.db.controllerHeartbeats = db.controllerHeartbeats)
    (hmachine : ∀ m, a.machineId = some m → (loadMachines db).find m = db.machines.get m)
    (h : sweepAttempt (sweepContext now db) s (i, a) = .ok s') :
    (s'.db = s.db ∧ s'.machineSlots = s.machineSlots) ∨
      ∃ f released dropped, Edits i a f released dropped s.db s'.db ∧
        Rule ⟨now, .reconcile⟩ db i a f released dropped ∧ Kept (f a) ∧
        s'.machineSlots = if released then
          recounted (sweepContext now db) a s'.db s.machineSlots else s.machineSlots := by
  unfold sweepAttempt at h
  dsimp only at h
  split at h
  · rename_i hnone
    unfold expireAttempt at h
    split at h
    · rename_i hexpired
      obtain ⟨db₁, hdropped, h⟩ := bind_ok.mp h
      cases h
      exact .inr ⟨_, false, true, edits_drop hfound hdropped,
        .expired rfl hactive hnone hexpired, .inr rfl, rfl⟩
    · cases h
      exact .inl ⟨rfl, rfl⟩
  rename_i m hm
  have hplaced : a.machineId.isSome := by rw [hm]; rfl
  split at h
  · rename_i hpending
    cases h
    exact .inr ⟨_, false, false, edits_patch hfound, .unplaced rfl hpending.1 hplaced,
      .inl hactive, rfl⟩
  split at h
  · rename_i hretiring
    unfold sweepRetiring at h
    dsimp only at h
    split at h
    · rename_i hkept
      cases h
      rcases keepForReturningWorker_cases hfound with hsame | ⟨hrunning, -, hedits⟩
      · rw [hsame] at hkept
        simp at hkept
      · exact .inr ⟨_, false, false, hedits, .kept (.inl rfl) hrunning hretiring, .inl hactive, rfl⟩
    split at h
    · rename_i hdue
      obtain ⟨db₁, hfinished, h⟩ := bind_ok.mp h
      cases h
      obtain ⟨retirement, hretirement, hedits⟩ := finishRetirement_cases hfound hfinished
      refine .inr ⟨_, true, true, hedits,
        .unconfirmed retirement m rfl hactive hretirement hm ?_, .inr rfl, ?_⟩
      · rw [← hmachine m hm]
        simp only [retirementBackstopDue, controllerReports, hbeats] at hdue
        exact hdue
      · simp only [recounted, hm]
        all_goals rfl
    · cases h
      exact .inl ⟨rfl, rfl⟩
  · split at h
    · cases h
      exact .inl ⟨rfl, rfl⟩
    obtain ⟨⟨started, db₁⟩, hretired, h⟩ := bind_ok.mp h
    cases h
    obtain ⟨honline, rfl | ⟨hnone, hedits⟩⟩ := retireAttempt_cases hfound hretired
    · exact .inl ⟨rfl, rfl⟩
    · exact .inr ⟨_, false, true, hedits, .abandoned _ rfl honline hnone hplaced, .inr rfl, rfl⟩

/-- **The Attempt loop.**  Every row is as the loop's start found it, or edited once by a rule, and
then kept; an invariant of single edits is an invariant of the loop. -/
theorem sweepAttempts_each {s s' : Sweep} (Inv : Sweep → Prop)
    (hside : s.db.attemptSide = db.attemptSide)
    (hinv : ∀ i a s s', s.db.attempts.get i = some a → db.attempts.get i = some a →
      a.state.isTerminal = false → s.db.controllerHeartbeats = db.controllerHeartbeats →
      sweepAttempt (sweepContext now db) s (i, a) = .ok s' → Inv s → Inv s')
    (h0 : Inv s) (h : (activeAttempts db).foldlM (sweepAttempt (sweepContext now db)) s = .ok s') :
    Inv s' ∧ ∀ j, s'.db.viewAttempt j = db.viewAttempt j ∨
      ∃ b, (s'.db.viewAttempt j).row = some b ∧ Kept b ∧
        Change ⟨now, .reconcile⟩ db j (db.viewAttempt j) (s'.db.viewAttempt j) := by
  have key := foldlM_each (fun j s => s.db.viewAttempt j) (fun r j => j = r.1)
    (fun s => Inv s ∧ s.db.controllerHeartbeats = db.controllerHeartbeats)
    (fun j v v' => ∃ b, v'.row = some b ∧ Kept b ∧ Change ⟨now, .reconcile⟩ db j v v')
    ((collectBy_nodup (by decide)).imp fun hne k hk hk' => hne (hk.symm.trans hk')) ?_
    ⟨h0, congrArg (fun p => p.2.2.2.1) hside⟩ h
  · refine ⟨key.1.1, fun j => ?_⟩
    rw [← viewAttempt_of_attemptSide (j := j) hside]
    rcases key.2 j with hj | ⟨-, hj⟩
    · exact .inl hj
    · exact .inr hj
  rintro ⟨i, a⟩ hmem t t' ⟨hinvt, hbeats⟩ hown ht
  obtain ⟨hget, hstate⟩ := mem_collectBy.mp hmem
  have hactive := mem_activeAttemptStates.mp hstate
  have hfound : t.db.attempts.get i = some a := by
    have := congrArg AttemptView.row ((hown i rfl).trans (viewAttempt_of_attemptSide hside))
    exact this.trans hget
  have hinv' := hinv i a t t' hfound hget hactive hbeats ht hinvt
  rcases sweepAttempt_cases hfound hactive hbeats
    (fun m hm => loadMachines_of_attempt hget hactive hm) ht with
    ⟨hsame, -⟩ | ⟨f, released, dropped, hedits, hrule, hkept, -⟩
  · rw [hsame]
    exact ⟨⟨hinv', hbeats⟩, fun k => .inl rfl⟩
  refine ⟨⟨hinv', hedits.controllerHeartbeats.trans hbeats⟩, fun k => ?_⟩
  by_cases hk : k = i
  · subst hk
    refine .inr ⟨rfl, f a, ?_, hkept, hedits.change hrule k⟩
    rw [hedits.view_self]
  · exact .inl (hedits.view_ne hk)

/-! ## Deletes -/

/-- What a delete of an Attempt does to an Attempt as the protocol sees it. -/
def Purges (v v' : AttemptView) : Prop :=
  v' = v ∨ ∃ a, v.row = some a ∧ a.state.isTerminal = true ∧ a.runnerCleanupPending = none ∧
    v' = ⟨none, [], v.born⟩

lemma Purges.trans {v v' v'' : AttemptView} (h : Purges v v') (h' : Purges v' v'') :
    Purges v v'' := by
  rcases h with rfl | ⟨a, hrow, hterminal, hcleanup, rfl⟩
  · exact h'
  rcases h' with rfl | ⟨a', hrow', -⟩
  · exact .inr ⟨a, hrow, hterminal, hcleanup, rfl⟩
  · simp at hrow'

lemma Purges.born {v v' : AttemptView} (h : Purges v v') : v'.born = v.born := by
  rcases h with rfl | ⟨a, -, -, -, rfl⟩
  · rfl
  · rfl

lemma purgeAttempt_spec (h : purgeAttempt db i = .ok db') : ∃ secrets records, db' = { db with
        attempts := db.attempts.delete i
        attemptSecrets := secrets
        attemptEgress := records } ∧
      ∀ j, secretsOf j secrets = if j = i then [] else secretsOf j db.attemptSecrets := by
  obtain ⟨db₁, hsecret, h⟩ := bind_ok.mp h
  obtain ⟨db₂, hegress, h⟩ := bind_ok.mp h
  cases h
  obtain ⟨secrets, rfl, hsecrets⟩ := deleteAttemptSecret_spec hsecret
  obtain ⟨row, -, hegress⟩ := bind_ok.mp hegress
  rcases row with _ | ⟨k, record⟩
  · cases pure_ok.mp hegress
    exact ⟨secrets, _, rfl, hsecrets⟩
  · cases pure_ok.mp hegress
    exact ⟨secrets, _, rfl, hsecrets⟩

lemma mem_takeEarliest {α : Type} {key : α → ℤ} {n : ℕ} {rows : List (DocId α × α)}
    {r : DocId α × α} (h : r ∈ takeEarliest key n rows) : r ∈ rows :=
  (mem_insertionSort _).mp (mem_of_mem_take h)

/-- The deletes of one state.  A row comes up as it was when the list was made, or gone. -/
lemma purgeAttempts_inner {stale : List (DocId Attempt × Attempt)}
    (hstale : ∀ r ∈ stale, db.attempts.get r.1 = some r.2 ∧ r.2.state.isTerminal = true ∧
      r.2.runnerCleanupPending = none)
    (h : (stale.map Prod.fst).foldlM purgeAttempt db = .ok db') (j : DocId Attempt) :
    Purges (db.viewAttempt j) (db'.viewAttempt j) := by
  refine foldlM_keeps (P := fun db₁ => Purges (db.viewAttempt j) (db₁.viewAttempt j)) ?_ (.inl rfl) h
  intro i hi db₁ db₂ hP hpurge
  obtain ⟨secrets, records, rfl, hsecrets⟩ := purgeAttempt_spec hpurge
  obtain ⟨⟨i', a⟩, hr, rfl⟩ := mem_map.mp hi
  obtain ⟨hget, hterminal, hcleanup⟩ := hstale _ hr
  by_cases hj : j = i'
  · subst hj
    refine .inr ⟨a, hget, hterminal, hcleanup, ?_⟩
    rw [← hP.born]
    simp [viewAttempt, hsecrets]
    rfl
  · have : viewAttempt { db₁ with
        attempts := db₁.attempts.delete i', attemptSecrets := secrets, attemptEgress := records } j
        = db₁.viewAttempt j := by
      simp [viewAttempt, hsecrets, hj, get_delete_ne hj]
      rfl
    rw [this]
    exact hP

lemma purgeAttempts_purges (h : purgeAttempts now db = .ok db') (j : DocId Attempt) :
    Purges (db.viewAttempt j) (db'.viewAttempt j) := by
  refine foldlM_keeps (P := fun db₁ => Purges (db.viewAttempt j) (db₁.viewAttempt j)) ?_ (.inl rfl) h
  intro state hstate db₁ db₂ hP hinner
  have hterminal : state.isTerminal = true := by
    cases state <;> simp [terminalAttemptStates, AttemptState.isTerminal] at hstate ⊢
  refine hP.trans (purgeAttempts_inner (fun r hr => ?_) hinner j)
  -- only terminal Attempts that owe GitHub nothing are stale
  rcases mem_append.mp hr with hr | hr
  · obtain ⟨hget, hp⟩ := mem_collect.mp (mem_takeEarliest hr)
    simp only [Bool.and_eq_true, decide_eq_true_eq] at hp
    exact ⟨hget, hp.1.1 ▸ hterminal, hp.1.2⟩
  · obtain ⟨hget, hp⟩ := mem_collect.mp (mem_of_mem_take (mem_of_mem_filter hr))
    simp only [Bool.and_eq_true, decide_eq_true_eq] at hp
    exact ⟨hget, hp.1.1 ▸ hterminal, hp.1.2⟩

/-- The deletes that come before those of Attempts touch neither Attempts nor placed work. -/
def purgeBefore (now : ℤ) (db : Db) : Db :=
  purgeJobs now (purgeRecovery now (purgeDeliveries now (purgeRegistrationTokens now db)))

lemma purge_stages (h : purge now db = .ok db') :
    ∃ db₁, purgeAttempts now (purgeBefore now db) = .ok db₁ ∧ db' = purgeExperiments now db₁ := by
  obtain ⟨db₁, hattempts, h⟩ := bind_ok.mp h
  exact ⟨db₁, hattempts, (pure_ok.mp h).symm⟩

lemma purge_purges (h : purge now db = .ok db') (j : DocId Attempt) :
    Purges (db.viewAttempt j) (db'.viewAttempt j) := by
  obtain ⟨db₁, hattempts, rfl⟩ := purge_stages h
  have hlast : (purgeExperiments now db₁).viewAttempt j = db₁.viewAttempt j := by
    simp only [viewAttempt, purgeExperiments]
    rfl
  rw [hlast]
  exact purgeAttempts_purges hattempts j

/-! ## The whole pass -/

/-- The loop over Experiments writes Experiments. -/
lemma sweepExperiments_db (ctx : SweepContext) (rows : List (DocId Experiment × Experiment))
    (s : Sweep) : ∃ experiments,
      (rows.foldl (sweepExperiment ctx) s).db = { s.db with experiments := experiments } := by
  have hone : ∀ s r, ∃ experiments,
      (sweepExperiment ctx s r).db = { s.db with experiments := experiments } := by
    intro s r
    unfold sweepExperiment
    split
    · split
      · exact ⟨_, rfl⟩
      · exact ⟨_, rfl⟩
    dsimp only
    split
    · exact ⟨_, rfl⟩
    · split
      · exact ⟨_, rfl⟩
      · exact ⟨_, rfl⟩
  induction rows generalizing s with
  | nil => exact ⟨_, rfl⟩
  | cons r rows ih =>
    obtain ⟨first, hfirst⟩ := hone s r
    obtain ⟨rest, hrest⟩ := ih (sweepExperiment ctx s r)
    exact ⟨rest, by rw [foldl_cons, hrest, hfirst]⟩

/-- The repair writes Workers. -/
lemma repairSlots_db (occupied : List (DocId Machine)) (rows : List (DocId Machine × Machine))
    (t : Sweep × ℕ) : ∃ machines,
      (rows.foldl (repairSlot occupied) t).1.db = { t.1.db with machines := machines } := by
  have hone : ∀ t r, ∃ machines,
      (repairSlot occupied t r).1.db = { t.1.db with machines := machines } := by
    intro t r
    unfold repairSlot
    dsimp only
    split
    · exact ⟨_, rfl⟩
    · exact ⟨_, rfl⟩
  induction rows generalizing t with
  | nil => exact ⟨_, rfl⟩
  | cons r rows ih =>
    obtain ⟨first, hfirst⟩ := hone t r
    obtain ⟨rest, hrest⟩ := ih (repairSlot occupied t r)
    exact ⟨rest, by rw [foldl_cons, hrest, hfirst]⟩

/-- The retries write deliveries. -/
lemma retryStalledDeliveries_db (now : ℤ) (db : Db) : ∃ deliveries,
    (retryStalledDeliveries now db).db = { db with webhookDeliveries := deliveries } := by
  refine foldlRecOn _ (retryDelivery now) (motive := fun s : RetryTally => ∃ deliveries,
    s.db = { db with webhookDeliveries := deliveries }) ⟨_, rfl⟩ fun s hs r _ => ?_
  obtain ⟨deliveries, hs⟩ := hs
  unfold retryDelivery
  split
  · exact ⟨deliveries, hs⟩
  · dsimp only
    split
    · exact ⟨_, by rw [hs]⟩
    · exact ⟨_, by rw [hs]⟩

/-- A pass, for what is neither a Worker's count nor an Experiment: the loops over jobs and Attempts,
and the retention deletes. -/
lemma reconcile_frame (h : Reconcile.run now db = .ok (r, db')) :
    ∃ swept experiments purged machines deliveries,
      (activeAttempts db).foldlM (sweepAttempt (sweepContext now db))
        (sweepJobs (sweepContext now db) db (initialSweep db)) = .ok swept ∧
      purge now { swept.db with experiments := experiments } = .ok purged ∧
      db' = { purged with machines := machines, webhookDeliveries := deliveries } := by
  obtain ⟨swept, purged, hswept, hpurged, rfl⟩ := reconcile_stages h
  obtain ⟨experiments, hexperiments⟩ := sweepExperiments_db (sweepContext now db)
    (activeExperiments db) swept
  obtain ⟨machines, hmachines⟩ := repairSlots_db (occupiedSlots purged) (loadMachines db)
    ({ (activeExperiments db).foldl (sweepExperiment (sweepContext now db)) swept with
      db := purged }, 0)
  obtain ⟨deliveries, hdeliveries⟩ := retryStalledDeliveries_db now
    ((loadMachines db).foldl (repairSlot (occupiedSlots purged))
      ({ (activeExperiments db).foldl (sweepExperiment (sweepContext now db)) swept with
        db := purged }, 0)).1.db
  exact ⟨swept, experiments, purged, machines, deliveries, hswept, hexperiments ▸ hpurged,
    by rw [hdeliveries, hmachines]⟩

/-- **A pass of the reconciler, for one Attempt.** -/
theorem reconcile_change (h : Reconcile.run now db = .ok (r, db')) (j : DocId Attempt) :
    Change ⟨now, .reconcile⟩ db j (db.viewAttempt j) (db'.viewAttempt j) := by
  obtain ⟨swept, experiments, purged, machines, deliveries, hswept, hpurged, rfl⟩ := reconcile_frame h
  have hside : (sweepJobs (sweepContext now db) db (initialSweep db)).db.attemptSide
      = db.attemptSide := attemptSide_sweepJobs ..
  have hattempts := (sweepAttempts_each (fun _ => True) hside (fun _ _ _ _ _ _ _ _ _ _ => trivial)
    trivial hswept).2 j
  have hpurges := purge_purges hpurged j
  change Purges (swept.db.viewAttempt j) (purged.viewAttempt j) at hpurges
  change Change _ _ _ _ (purged.viewAttempt j)
  rcases hpurges with hsame | ⟨b, hrow, hterminal, hcleanup, hgone⟩
  · rw [hsame]
    rcases hattempts with hj | ⟨-, -, -, hchange⟩
    · exact .of_view_eq hj
    · exact hchange
  · rw [hgone]
    rcases hattempts with hj | ⟨b', hb', hkept, -⟩
    · rw [hj] at hrow ⊢
      have hborn : (db.viewAttempt j).born = true := by
        simpa [viewAttempt] using get_lt hrow
      have hview : db.viewAttempt j = ⟨some b, (db.viewAttempt j).secrets, true⟩ := by
        rw [← hrow, ← hborn]
      rw [hview]
      exact .deleted b _ rfl hterminal hcleanup
    · cases hb'.symm.trans hrow
      rcases hkept with hkept | hkept
      · rw [hterminal] at hkept
        simp at hkept
      · rw [hcleanup] at hkept
        simp at hkept

end EraInfra
