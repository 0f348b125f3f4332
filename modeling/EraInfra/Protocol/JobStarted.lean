import EraInfra.Protocol.RunningAttempts

/-!
# The two JobStarted reports of a job

A controller reports the start of a job twice, the second time with its branch, and either report may
land first (`controllerApi.markJobStarted`).  What a report leaves out it should not clear.  That holds
of nine of its fields; the three times it writes whether it has them or not.
-/

namespace EraInfra

open DocStore Option Table List

variable {now : ℤ} {db db' : Db} {i : DocId Attempt} {a : Attempt} {r s : JobStartedArgs}

/-- The row a report leaves. -/
def reportStarted (now : ℤ) (args : JobStartedArgs) (a : Attempt) : Attempt :=
  if a.state.isTerminal then
    if args.headBranch.isSome ∧ a.startedAt.isSome ∧ a.headBranch = none then
      branchedAttempt args.headBranch a
    else a
  else startedAttempt now args a a

/-- A report that is accepted writes the one row of its Runner. -/
lemma markJobStarted_ok (h : markJobStarted now r db = .ok db') :
    ∃ i a, attemptByRunnerName r.runnerName db = .ok (some (i, a)) ∧
      db'.attempts.get i = some (reportStarted now r a) ∧
      ∀ k ≠ i, db'.attempts.get k = db.attempts.get k := by
  obtain ⟨-, -, h⟩ := bind_ok.mp h
  obtain ⟨row, hrow, h⟩ := bind_ok.mp h
  rcases row with _ | ⟨i, a⟩
  · cases h
  refine ⟨i, a, hrow, ?_⟩
  have hfound := (attemptByRunnerName_some hrow).1
  have hpatch : ∀ f : Attempt → Attempt, db' = db.patchAttempt i f →
      db'.attempts.get i = some (f a) ∧ ∀ k ≠ i, db'.attempts.get k = db.attempts.get k := by
    rintro f rfl
    exact ⟨by simp [Db.patchAttempt, hfound], fun k hk => get_patch_ne hk⟩
  dsimp only at h
  split at h
  · cases h
  simp only [reportStarted]
  split_ifs at h ⊢ with hterminal hbranch
  · exact hpatch _ (pure_ok.mp h).symm
  · cases h
    exact ⟨hfound, fun _ _ => rfl⟩
  · exact hpatch _ (pure_ok.mp h).symm

lemma runnerName_reportStarted (now : ℤ) (args : JobStartedArgs) (a : Attempt) :
    (reportStarted now args a).runnerName = a.runnerName := by
  simp only [reportStarted, startedAttempt, keepForJob]
  split_ifs <;> rfl

/-- Two reports of one Runner, one after the other. -/
lemma reports_ok {now' : ℤ} {db₁ : Db} (h : markJobStarted now r db = .ok db₁)
    (h' : markJobStarted now' s db₁ = .ok db') (hsame : s.runnerName = r.runnerName)
    (hi : attemptByRunnerName r.runnerName db = .ok (some (i, a))) :
    db'.attempts.get i = some (reportStarted now' s (reportStarted now r a)) ∧
      ∀ k ≠ i, db'.attempts.get k = db.attempts.get k := by
  rcases markJobStarted_ok h with ⟨j, b, hj, hwritten, hothers⟩
  rw [hi] at hj
  cases hj
  rcases markJobStarted_ok h' with ⟨j, b, hj, hwritten', hothers'⟩
  have hname := (attemptByRunnerName_some hi).2
  have hi' : i = j := (unique_some hj).2.2 i _ hwritten (by simp [runnerName_reportStarted, hname, hsame])
  subst hi'
  rw [(attemptByRunnerName_some hj).1, some.injEq] at hwritten
  exact ⟨hwritten ▸ hwritten', fun k hk => (hothers' k hk).trans (hothers k hk)⟩

/-- The optional fields of a report. -/
def JobStartedArgs.fields (r : JobStartedArgs) : List (Option (String ⊕ ℤ)) :=
  [r.runnerRequestId, r.repository, r.owner, r.jobId, r.workflowRef, r.headBranch, r.displayName,
    r.eventName].map (·.map .inl) ++
  [r.workflowRunId.map Nat.cast, r.queueTime, r.assignedAt, r.runnerAssignedAt].map (·.map .inr)

/-- Where a row stores them. -/
def Attempt.fields (a : Attempt) : List (Option (String ⊕ ℤ)) :=
  [a.runnerRequestId, a.repo, a.owner, a.jobId, a.workflowRef, a.headBranch, a.displayName,
    a.eventName].map (·.map .inl) ++
  [a.workflowRunId.map Nat.cast, a.queueTime, a.assignedAt, a.runnerAssignedAt].map (·.map .inr)

/-- What two reports of one job both say is the same. -/
def SameJob (r s : JobStartedArgs) : Prop :=
  s.runnerName = r.runnerName ∧ ∀ x ∈ r.fields.zip s.fields, x.1 = none ∨ x.2 = none ∨ x.1 = x.2

/-- What a report leaves out stays as it was stored. -/
def LeavesOut (r : JobStartedArgs) (a b : Attempt) : Prop :=
  ∀ x ∈ r.fields.zip (a.fields.zip b.fields), x.1 = none → x.2.2 = x.2.1

/-- The three times of a JobStarted message. -/
def JobStartedArgs.times (r : JobStartedArgs) : List (Option ℤ) :=
  [r.queueTime, r.assignedAt, r.runnerAssignedAt]

def Attempt.times (a : Attempt) : List (Option ℤ) := [a.queueTime, a.assignedAt, a.runnerAssignedAt]

/-- A row, whenever it was started. -/
def Attempt.anyStart (a : Attempt) : Attempt := { a with startedAt := none }

lemma orElse_comm {α : Type} {x y : Option α} (h : x = none ∨ y = none ∨ x = y) (z : Option α) :
    (x.orElse fun _ => y.orElse fun _ => z) = y.orElse fun _ => x.orElse fun _ => z := by
  rcases h with rfl | rfl | rfl
  · simp
  · simp
  · cases x <;> simp

/-- The rows two reports leave, one way round and the other. -/
lemma reportStarted_comm (h : SameJob r s) (t t' u u' : ℤ) :
    (reportStarted t' s (reportStarted t r a)).anyStart
        = (reportStarted u r (reportStarted u' s a)).anyStart ↔
      a.state.isTerminal = true ∨ s.times = r.times := by
  have hfields := h.2
  simp only [JobStartedArgs.fields, map_cons, map_nil, cons_append, nil_append,
    zip_cons_cons, forall_mem_cons, map_eq_none_iff, Option.map_inj_right, Sum.inl.injEq,
    Sum.inr.injEq, Nat.cast_inj, imp_self, implies_true] at hfields
  rcases hfields with ⟨hrequest, hrepo, howner, hjob, hworkflow, hbranch, hdisplay, hevent, hrun, -⟩
  by_cases hterminal : a.state.isTerminal = true
  · simp only [reportStarted, branchedAttempt]
    -- the first branch that is known stays
    rcases hbranch with hbranch | hbranch | hbranch <;> simp only [hbranch] <;> split_ifs <;> simp_all
  have hrunning : AttemptState.isTerminal .running = false := rfl
  simp only [reportStarted, hterminal, startedAttempt, hrunning, Attempt.anyStart, if_false,
    Bool.false_eq_true, orElse_comm hrequest, orElse_comm hrepo, orElse_comm howner,
    orElse_comm hjob, orElse_comm hworkflow, orElse_comm hbranch, orElse_comm hdisplay,
    orElse_comm hrun, orElse_comm hevent]
  simp [JobStartedArgs.times]

/-- Of what a report leaves out, only the times can be lost. -/
lemma leavesOut_reportStarted (t : ℤ) :
    LeavesOut r a (reportStarted t r a) ↔ a.state.isTerminal = true ∨
      ∀ x ∈ r.times.zip a.times, x.1 = none → x.2 = none := by
  simp only [LeavesOut, JobStartedArgs.fields, Attempt.fields, JobStartedArgs.times, Attempt.times]
  by_cases hterminal : a.state.isTerminal = true
  · simp only [reportStarted, branchedAttempt]
    split_ifs <;> simp_all
  · simp only [reportStarted, startedAttempt]
    refine ⟨fun h => ?_, fun h => ?_⟩ <;> simp_all

/-- **Two reports of one job**, in either order: they leave the same rows exactly when the Attempt has
ended or their times are the same, and a report keeps what it leaves out exactly when the Attempt has
ended or no time that it leaves out is stored. -/
theorem job_started_reports_commute (r s : JobStartedArgs) (hsame : SameJob r s)
    (db db₁ db₂ db₁₂ db₂₁ : Db) (t₁ t₂ u₁ u₂ : ℤ)
    (h₁ : markJobStarted t₁ r db = .ok db₁) (h₁₂ : markJobStarted t₂ s db₁ = .ok db₁₂)
    (h₂ : markJobStarted u₂ s db = .ok db₂) (h₂₁ : markJobStarted u₁ r db₂ = .ok db₂₁) :
    ∃ i a b, db.attempts.get i = some a ∧ a.runnerName = r.runnerName ∧ db₁.attempts.get i = some b ∧
      ((∀ k, (db₁₂.attempts.get k).map Attempt.anyStart = (db₂₁.attempts.get k).map Attempt.anyStart) ↔
        a.state.isTerminal = true ∨ s.times = r.times) ∧
      (LeavesOut r a b ↔ a.state.isTerminal = true ∨
        ∀ x ∈ r.times.zip a.times, x.1 = none → x.2 = none) := by
  rcases markJobStarted_ok h₁ with ⟨i, a, hi, hb, -⟩
  have hi' : attemptByRunnerName s.runnerName db = .ok (some (i, a)) := hsame.1 ▸ hi
  rcases reports_ok h₁ h₁₂ hsame.1 hi with ⟨hrow, hothers⟩
  rcases reports_ok h₂ h₂₁ hsame.1.symm hi' with ⟨hrow', hothers'⟩
  rcases attemptByRunnerName_some hi with ⟨hfound, hname⟩
  refine ⟨i, a, _, hfound, hname, hb, ?_, leavesOut_reportStarted t₁⟩
  rw [← reportStarted_comm hsame t₁ t₂ u₁ u₂]
  constructor
  · intro h
    have hi := h i
    rwa [hrow, hrow', map_some, map_some, some.injEq] at hi
  · intro h k
    by_cases hk : k = i
    · rw [hk, hrow, hrow', map_some, map_some, h]
    · rw [hothers k hk, hothers' k hk]

/-- An Attempt without a job. -/
def waitingDb : Db := after asciiEngine [⟨0, .registerProfile ciProfile⟩, ⟨0, .createAttempt ciAttempt⟩]

def timedReport : JobStartedArgs := { ciJobStarted with queueTime := some 5 }

def branchReport : JobStartedArgs := { timedReport with headBranch := some "main" }

theorem job_started_reports_commute_with_branch : ∃ db₁ db₂ db₁₂ db₂₁,
    markJobStarted 1 timedReport waitingDb = .ok db₁ ∧ markJobStarted 2 branchReport db₁ = .ok db₁₂ ∧
    markJobStarted 1 branchReport waitingDb = .ok db₂ ∧ markJobStarted 2 timedReport db₂ = .ok db₂₁ ∧
    ∀ k, (db₁₂.attempts.get k).map Attempt.anyStart = (db₂₁.attempts.get k).map Attempt.anyStart := by
  have hsame : SameJob timedReport branchReport := by
    simp [SameJob, JobStartedArgs.fields, timedReport, branchReport, ciJobStarted]
  refine ⟨_, _, _, _, rfl, rfl, rfl, rfl, ?_⟩
  rcases job_started_reports_commute timedReport branchReport hsame waitingDb _ _ _ _ 1 2 2 1
    rfl rfl rfl rfl with ⟨i, a, b, -, -, -, hcomm, -⟩
  exact hcomm.mpr (.inr rfl)

/-- A report without times clears the time that the other one stored, if it lands last. -/
theorem job_started_report_clears_time :
    ((markJobStarted 1 timedReport waitingDb >>= markJobStarted 2 ciJobStarted).map fun db =>
        (db.attempts.get 0).map Attempt.queueTime) = .ok (some none) ∧
      ((markJobStarted 1 ciJobStarted waitingDb >>= markJobStarted 2 timedReport).map fun db =>
        (db.attempts.get 0).map Attempt.queueTime) = .ok (some (some 5)) :=
  ⟨rfl, rfl⟩

end EraInfra
