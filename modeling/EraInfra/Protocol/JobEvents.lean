import EraInfra.Protocol.RunnerNames

/-!
# Events in any order

GitHub delivers the events of a job in any order, more than once, and with the name of whichever
runner it chose.  As long as no job is reset or deleted, every order ends the same way
(`events_settle`): there is one row for each GitHub job, a finished row stays as it is, and a
completion that was delivered has finished its job.
-/

namespace EraInfra

open DocStore List

variable {js : Engine} {db : Db} {c : JobCall} {calls : List JobCall}

/-- Calls that neither reset nor delete jobs remember all attempts. -/
lemma remembers_of_lasts (h : c.op.lasts) : c.Remembers db := by
  obtain ⟨now, op⟩ := c
  cases op with
  | attempt op =>
    cases op with
    | reconcile => exact h.elim
    | _ => trivial
  | dropJob jobId => exact h.elim
  | requeueJob jobId => exact h.elim
  | _ => trivial

lemma numbered_of_lasts (h : ∀ c ∈ calls, c.op.lasts) : Numbered (afterJobs js calls).board :=
  numbered_after fun before c after hsplit =>
    remembers_of_lasts (h c (by simp [hsplit]))

/-- What is finished at some point of a run is as it was at its end. -/
lemma stays_after (js : Engine) (before rest : List JobCall) (h : ∀ c ∈ rest, c.op.lasts) :
    Stays (afterJobs js before).board (afterJobs js (before ++ rest)).board := by
  induction rest using reverseRecOn with
  | nil =>
    rw [append_nil]
    exact Stays.refl _
  | append_singleton rest c ih =>
    rw [← append_assoc, afterJobs_snoc]
    exact (stepJob_moves (d := ⟨False, False, True⟩) js
      ⟨False.elim, False.elim, fun _ => h c (by simp)⟩).invariant
      (fun _ _ hm hstays => hstays.trans (hm.stays trivial)) (ih fun c hc => h c (by simp [hc]))

/-- **Events settle in any order.**  In every run that neither resets nor deletes jobs there is at
most one row for a GitHub job; a row that is done or failed at any point has the same status and
conclusion ever after; and once a completed event was applied for a job that is known or
self-hosted, the job is and stays terminal. -/
theorem events_settle (js : Engine) (calls : List JobCall) (hcalls : ∀ c ∈ calls, c.op.lasts) :
    (∀ i j a b, (afterJobs js calls).jobs.get i = some a → (afterJobs js calls).jobs.get j = some b →
      a.ghJobId = b.ghJobId → i = j) ∧
    (∀ before rest, calls = before ++ rest → ∀ j job,
      (afterJobs js before).jobs.get j = some job → job.status = .done ∨ job.status = .failed →
      ∃ job', (afterJobs js calls).jobs.get j = some job' ∧ job'.status = job.status ∧
        job'.conclusion = job.conclusion) ∧
    ∀ before now event rest, calls = before ++ ⟨now, .workflowJob event⟩ :: rest →
      event.action = .completed →
      (∃ j job, (afterJobs js before).jobs.get j = some job ∧ job.ghJobId = event.ghJobId) ∨
        event.labels.contains "self-hosted" = true →
      ∃ j job, (afterJobs js calls).jobs.get j = some job ∧ job.ghJobId = event.ghJobId ∧
        (job.status = .done ∨ job.status = .failed) := by
  have hterminal : ∀ status : JobStatus, status.isTerminal = true ↔ status = .done ∨ status = .failed := by
    intro status
    cases status <;> simp [JobStatus.isTerminal]
  refine ⟨(numbered_of_lasts hcalls).unique, ?_, ?_⟩
  · rintro before rest rfl j job hj hend
    obtain ⟨job', hj', -, hstatus, hconclusion⟩ := stays_after js before rest
      (fun c hc => hcalls c (by simp [hc])) j job hj ((hterminal _).mpr hend)
    exact ⟨job', hj', hstatus, hconclusion⟩
  · rintro before now event rest rfl haction hknown
    -- the event is applied, because no two commands have one name
    have hnumbered : Numbered (afterJobs js before).board :=
      numbered_of_lasts fun c hc => hcalls c (by simp [hc])
    obtain ⟨db', happly⟩ := applyWorkflowJob_isOk hnumbered.names now event
    have hstep : afterJobs js (before ++ [⟨now, .workflowJob event⟩]) = db' := by
      rw [afterJobs_snoc]
      show commit _ (applyWorkflowJob now event (afterJobs js before)) = db'
      rw [happly]
      rfl
    obtain ⟨j, job, hj, hg, hend⟩ := (applyWorkflowJob_moves (d := ⟨False, True, True⟩) happly).2
      haction (hknown.imp_left (by
        rintro ⟨i, b, hb, hbg⟩ hnone
        exact jobByGhJobId_none hnone i b hb hbg))
    have hstays := stays_after js (before ++ [⟨now, .workflowJob event⟩]) rest
      fun c hc => hcalls c (by simp [hc])
    rw [append_assoc, hstep] at hstays
    obtain ⟨job', hj', hg', hstatus, -⟩ := hstays j job hj hend
    exact ⟨j, job', hj', hg'.trans hg, (hterminal _).mp (hstatus ▸ hend)⟩

/-- A job whose completion arrives first. -/
theorem events_settle_completed_first :
    ∃ j job, (afterJobs asciiEngine
      [⟨0, .workflowJob (ciEvent .completed 7 (some "rc-worker-7-1"))⟩,
        ⟨0, .workflowJob (ciEvent .queued 7 none)⟩,
        ⟨0, .workflowJob (ciEvent .inProgress 7 (some "rc-worker-7-1"))⟩]).jobs.get j = some job ∧
      job.ghJobId = 7 ∧ (job.status = .done ∨ job.status = .failed) :=
  (events_settle asciiEngine _ (by simp [JobOp.lasts])).2.2 [] 0 _ _ rfl rfl (.inr rfl)

end EraInfra
